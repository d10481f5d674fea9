import Dmrlib.Io.Invariant
import Dmrlib.Io.Timers

/-!
# The loop itself (`dmr_io_loop` in `src/dmr/io.c`)

A round of the loop waits in `select` for what the three sets hold, calls the timers that are
due, and then goes through the descriptors from 0 to the highest one, for each of them from
the errors through the readers to the writers. The loop ends when nothing is registered any
more, or when a callback has asked for that, and calls the close handlers.

The loop is cut where code of the program runs: `EventLoop.step` takes what that code does,
the return of a callback, or what the loop does on its own account up to the next dispatch.
Signals may arrive at any time. What `select` reports is up to the environment, but only
descriptors that it has waited for. A call of `dmr_io_loop` from a callback is left out.

- `LoopControl`: the point of its round that the loop is at.
- `EventLoop`: the registry, the dispatches under way, the close handlers and this point.
- `SelectOutcome`: what `select` returns.
- `EventLoop.Event`, `EventLoop.step`: what can happen next, and the state after it.
-/

namespace Dmrlib

open Run

variable {κ υ : Type}

/-- The order in which the loop looks a descriptor up. -/
def FdSet.scanned : List FdSet := [.errors, .readers, .writers]

/-- The dispatch for a descriptor of a set. -/
def FdSet.dispatch : FdSet → (fd : Nat) → IoAction κ υ
  | errors, fd => .error fd
  | readers, fd => .readable fd
  | writers, fd => .writable fd

/-- What `select` returns: the number of descriptors that are left in the sets. -/
def ready (fds : FdSet → Finset Nat) : Nat :=
  (fds .readers).card + (fds .writers).card + (fds .errors).card

inductive SelectOutcome where
  /-- `EAGAIN` or `EINTR` -/
  | again
  /-- any other failure; the sets are left as they were -/
  | failed
  /-- what is left in the sets is what they share with the report -/
  | ready (report : FdSet → Finset Nat)

/-- Where `dmr_io_loop` is, with its variables. -/
inductive LoopControl where
  | idle
  /-- at the condition of the `while` -/
  | check
  /-- in `select`; `timeout` is absent where it waits without one -/
  | select (fds : FdSet → Finset Nat) (timeout : Option Timeval)
  /-- going through the descriptors; `todo` is what is still to be looked up for `i` -/
  | scan (ret : Int) (fds : FdSet → Finset Nat) (i : Nat) (todo : List FdSet) (handled : Nat)
  /-- in `io_handle_close`, whose callback for the node `cur` runs -/
  | close (cur : Nat) (next : Option Nat)

/-- `dmr_io`, with the list of close handlers, and the loop that works on it. -/
structure EventLoop (κ υ : Type) extends IoLoop κ υ where
  closers : NodeList (DmrIoEntry κ υ)
  closed : Bool
  control : LoopControl

/-- What can happen next. -/
inductive EventLoop.Event (κ υ : Type) where
  /-- code of the program registers or deregisters -/
  | op (op : IoOp κ υ)
  /-- code of the program calls `dmr_io_reg_close` -/
  | regClose (cb : κ) (userdata : υ) (allocated : Bool)
  /-- code of the program calls `dmr_io_close` -/
  | close
  | signal (sig : Nat)
  /-- the callback that runs returns -/
  | ret (value : Int)
  /-- `dmr_io_loop` is called, or goes on. The clock reads `now`, and `select` has an outcome
  if the loop is there. -/
  | advance (now : Timeval) (outcome : SelectOutcome)

/-- The timeout that `select` is given. `io->timeout` is what `dmr_io_new` has set it to. -/
def selectTimeout (io : DmrIoRegistry κ υ) : Option Timeval :=
  match ioTimeout io ⟨1, 0⟩ with
  | (0, _) => none
  | (_, timeout) => some timeout

namespace EventLoop

/-- The loop before anything is registered. -/
def start (now : Timeval) : EventLoop κ υ := ⟨.start now, .empty, false, .idle⟩

/-- `dmr_io_reg_close`: neither the counter nor a set knows of it. -/
def dmrIoRegClose (l : EventLoop κ υ) (cb : κ) (userdata : υ) (allocated : Bool) :
    Int × EventLoop κ υ :=
  if allocated then (0, { l with closers := l.closers.insertHead ⟨0, cb, userdata, true⟩ })
  else (-1, l)

/-- `dmr_io_close` -/
def dmrIoClose (l : EventLoop κ υ) : EventLoop κ υ := { l with closed := true }

/-- `io_handle_close` at the head of `cells`. -/
def closeFrom : (cells : List (Nat × DmrIoEntry κ υ)) → LoopControl
  | [] => .idle
  | c :: cells => .close c.1 (cells.head?.map Prod.fst)

/-- `io_handle_close`, from the return of the callback of `cur` to the next call. -/
def closeReturns (l : EventLoop κ υ) (cur : Nat) (next : Option Nat) : Option (EventLoop κ υ) :=
  let closers := l.closers.remove cur
  match next with
  | none => some { l with closers, control := .idle }
  | some a => (closers.suffix a).map fun cells => { l with closers, control := closeFrom cells }

/-- The condition of the `while`. -/
def Continues (l : EventLoop κ υ) : Prop := 0 < l.io.entries ∧ l.closed = false

instance (l : EventLoop κ υ) : Decidable l.Continues :=
  inferInstanceAs (Decidable (0 < l.io.entries ∧ l.closed = false))

/-- From the condition of the `while` to `select`, or to the first close handler. -/
def checked (l : EventLoop κ υ) (now : Timeval) : EventLoop κ υ :=
  if l.Continues then
    let io := { l.io with wallclock := now }
    { l with io, control := .select io.fds (selectTimeout io) }
  else { l with control := closeFrom l.closers.cells }

/-- What the registry does for the loop. -/
def within [DecidableEq κ] (l : EventLoop κ υ) (a : IoAction κ υ) (control : LoopControl) :
    Option (EventLoop κ υ) :=
  (l.toIoLoop.step a).map fun l' => { l with toIoLoop := l', control }

/-- From the end of the wait to the first timer. -/
def serve [DecidableEq κ] (l : EventLoop κ υ) (now : Timeval) (ret : Int)
    (fds : FdSet → Finset Nat) : Option (EventLoop κ υ) :=
  l.within (.timers now) (.scan ret fds 0 FdSet.scanned 0)

/-- `select` does not return without a descriptor when it waits without a timeout. -/
def selected [DecidableEq κ] (l : EventLoop κ υ) (fds : FdSet → Finset Nat)
    (timeout : Option Timeval) (now : Timeval) : SelectOutcome → Option (EventLoop κ υ)
  | .again => some { l with control := .select fds (selectTimeout l.io) }
  | .failed => l.serve now (-1) fds
  | .ready report =>
    let left s := fds s ∩ report s
    if timeout = none ∧ ready left = 0 then some l else l.serve now (ready left) left

/-- One step through the descriptors. `io->maxfd` is read anew for each of them. -/
def scan [DecidableEq κ] (l : EventLoop κ υ) (ret : Int) (fds : FdSet → Finset Nat) (i : Nat) :
    (todo : List FdSet) → (handled : Nat) → Option (EventLoop κ υ)
  | [], handled =>
    some { l with control :=
      if i + 1 < l.io.maxfd + 1 then .scan ret fds (i + 1) FdSet.scanned handled else .check }
  | s :: todo, handled =>
    if i ∈ fds s then l.within (s.dispatch i) (.scan ret fds i todo (handled + 1))
    else some { l with control := .scan ret fds i todo handled }

/-- `dmr_io_loop` between two callbacks. -/
def advance [DecidableEq κ] (l : EventLoop κ υ) (now : Timeval) (outcome : SelectOutcome) :
    Option (EventLoop κ υ) :=
  match l.control with
  | .idle => some { l with closed := false, control := .check }
  | .check => some (l.checked now)
  | .select fds timeout => l.selected fds timeout now outcome
  | .scan ret fds i todo handled => l.scan ret fds i todo handled
  | .close _ _ => some l

/-- A callback of a dispatch returns to its dispatcher, and one that no dispatch has called to
`io_handle_close`. -/
def step [DecidableEq κ] (l : EventLoop κ υ) : Event κ υ → Option (EventLoop κ υ)
  | .op op => l.within (.op op) l.control
  | .regClose cb userdata allocated => some (l.dmrIoRegClose cb userdata allocated).2
  | .close => some l.dmrIoClose
  | .signal sig => l.within (.signal sig) l.control
  | .ret value =>
    match l.frames, l.control with
    | [], .close cur next => l.closeReturns cur next
    | _, control => l.within (.ret value) control
  | .advance now outcome =>
    match l.frames with
    | [] => l.advance now outcome
    | _ :: _ => some l

end EventLoop

end Dmrlib
