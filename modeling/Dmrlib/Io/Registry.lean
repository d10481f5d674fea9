import Dmrlib.Io
import Dmrlib.Lib.NodeList
import Dmrlib.Lib.Run

/-!
# The registry of the I/O loop (`src/dmr/io.c`)

Programs register callbacks for signals, descriptors and timers, each kind in a list
of its own, newest first, and the loop calls them. `entries` counts what is
registered and ends the loop when nothing is; three sets of descriptors are what
`select` waits for.

A dispatcher calls into code that registers and deregisters in turn, so it is cut at
its callbacks: `IoLoop.step` takes one operation on the registry, the beginning of a
dispatch up to its first callback, or what a dispatcher does from the return of one
callback to the call of the next. `IoLoop` keeps the dispatches under way, the
innermost first, since a signal may arrive while a callback runs.

`none` is a step on a node that was freed. Descriptors are non-negative and below
`FD_SETSIZE`, as they are under the default limit of open files; what `FD_SET` does with
others is not defined, so the sets of descriptors are sets of numbers without a bound. The
list of close handlers, which no set and no counter knows of, is left out.

- `DmrIoRegistry`: the lists, the counter, the sets and the clock.
- `IoOp`: the registering and deregistering functions.
- `Dispatcher`, `seek`, `resume`, `resumeTimer`: a dispatch, cut at its callbacks.
- `IoLoop.step`: the transition function.
- `timers_dmrIoRegTimer`, `timers_dmrIoDelTimer`: to the list of timers, registering and removing
  do what the functions of `Dmrlib.Io` do.
-/

namespace Dmrlib

/-- `dmr_request_type`, as far as the loop dispatches on it. -/
inductive DmrRequestType where
  | signal
  | read
  | write
  | error
deriving DecidableEq

/-- The three members of type `fd_set`. -/
inductive FdSet where
  | readers
  | writers
  | errors
deriving DecidableEq

/-- The list that a set of descriptors belongs to. -/
def FdSet.request : FdSet → DmrRequestType
  | readers => .read
  | writers => .write
  | errors => .error

/-- `dmr_io_entry`; `κ` is the type of callbacks and `υ` that of their data. -/
structure DmrIoEntry (κ υ : Type) where
  fd : Nat
  cb : κ
  userdata : υ
  once : Bool
deriving DecidableEq

/-- `dmr_io_timer`, with its data. -/
structure DmrIoTimerEntry (κ υ : Type) extends DmrIoTimer κ where
  userdata : υ

/-- `dmr_io` -/
structure DmrIoRegistry (κ υ : Type) where
  entry : DmrRequestType → NodeList (DmrIoEntry κ υ)
  timer : NodeList (DmrIoTimerEntry κ υ)
  entries : Int
  maxfd : Nat
  wallclock : Timeval
  fds : FdSet → Finset Nat

variable {κ υ : Type}

/-- `dmr_io_new`, when the clock reads `now` and there is memory. -/
def dmrIoNew (now : Timeval) : DmrIoRegistry κ υ where
  entry _ := .empty
  timer := .empty
  entries := 0
  maxfd := 0
  wallclock := now
  fds _ := ∅

namespace DmrIoRegistry

/-- `DMR_LIST_INSERT_HEAD` and `io->entries++` -/
def insert (io : DmrIoRegistry κ υ) (r : DmrRequestType) (e : DmrIoEntry κ υ) :
    DmrIoRegistry κ υ :=
  { io with
    entry := Function.update io.entry r ((io.entry r).insertHead e)
    entries := io.entries + 1 }

/-- `DMR_LIST_REMOVE`, `io->entries--` and `dmr_free` -/
def unlink (io : DmrIoRegistry κ υ) (r : DmrRequestType) (a : Nat) : DmrIoRegistry κ υ :=
  { io with
    entry := Function.update io.entry r ((io.entry r).remove a)
    entries := io.entries - 1 }

/-- The same for a timer. -/
def unlinkTimer (io : DmrIoRegistry κ υ) (a : Nat) : DmrIoRegistry κ υ :=
  { io with timer := io.timer.remove a, entries := io.entries - 1 }

/-- `FD_SET` -/
def fdSet (io : DmrIoRegistry κ υ) (s : FdSet) (fd : Nat) : DmrIoRegistry κ υ :=
  { io with fds := Function.update io.fds s (Insert.insert fd (io.fds s)) }

/-- `FD_CLR` -/
def fdClr (io : DmrIoRegistry κ υ) (s : FdSet) (fd : Nat) : DmrIoRegistry κ υ :=
  { io with fds := Function.update io.fds s ((io.fds s).erase fd) }

end DmrIoRegistry

/-! ## Registering and deregistering -/

/-- `dmr_io_reg_signal` -/
def dmrIoRegSignal (io : DmrIoRegistry κ υ) (sig : Nat) (cb : κ) (userdata : υ)
    (once allocated : Bool) : Int × DmrIoRegistry κ υ :=
  if allocated then (0, io.insert .signal ⟨sig, cb, userdata, once⟩) else (-1, io)

/-- What the registering functions for descriptors share. -/
def regEntry (s : FdSet) (io : DmrIoRegistry κ υ) (fd : Nat) (cb : κ) (userdata : υ)
    (once allocated : Bool) : Int × DmrIoRegistry κ υ :=
  if allocated then
    let io := (io.insert s.request ⟨fd, cb, userdata, once⟩).fdSet s fd
    (0, { io with maxfd := max io.maxfd fd })
  else (-1, io)

/-- `dmr_io_reg_read` -/
def dmrIoRegRead (io : DmrIoRegistry κ υ) := regEntry .readers io

/-- `dmr_io_reg_write` -/
def dmrIoRegWrite (io : DmrIoRegistry κ υ) := regEntry .writers io

/-- `dmr_io_reg_error` -/
def dmrIoRegError (io : DmrIoRegistry κ υ) := regEntry .errors io

/-- `dmr_io_reg_timer` -/
def DmrIoRegistry.dmrIoRegTimer (io : DmrIoRegistry κ υ) (timeout : Timeval) (cb : κ) (userdata : υ)
    (once allocated : Bool) : Int × DmrIoRegistry κ υ :=
  if allocated then
    (0, { io with
      timer := io.timer.insertHead
        ⟨⟨timeout, timeradd io.wallclock timeout, cb, once⟩, userdata⟩
      entries := io.entries + 1 })
  else (-1, io)

section Deregister

variable [DecidableEq κ]

/-- The entry that a deregistering function removes. -/
def delTarget (s : FdSet) (io : DmrIoRegistry κ υ) (fd : Nat) (cb : κ) : Option Nat :=
  (io.entry s.request).find? fun e => e.fd = fd ∧ e.cb = cb

/-- What the deregistering functions for descriptors share. -/
def delEntry (s : FdSet) (io : DmrIoRegistry κ υ) (fd : Nat) (cb : κ) : Int × DmrIoRegistry κ υ :=
  match delTarget s io fd cb with
  | some a => (0, (io.unlink s.request a).fdClr s fd)
  | none => (1, io)

/-- `dmr_io_del_read` -/
def dmrIoDelRead (io : DmrIoRegistry κ υ) := delEntry .readers io

/-- `dmr_io_del_write` -/
def dmrIoDelWrite (io : DmrIoRegistry κ υ) := delEntry .writers io

/-- `dmr_io_del_error` -/
def dmrIoDelError (io : DmrIoRegistry κ υ) := delEntry .errors io

/-- `dmr_io_del_timer` -/
def DmrIoRegistry.dmrIoDelTimer (io : DmrIoRegistry κ υ) (cb : κ) : Int × DmrIoRegistry κ υ :=
  match io.timer.find? fun t => t.cb = cb with
  | some a => (0, io.unlinkTimer a)
  | none => (0, io)

end Deregister

/-! The timers of the registry are those of `DmrIo`, which knows neither their data
nor their addresses. -/

/-- What `DmrIo` shows of the registry. -/
def DmrIoRegistry.timers (io : DmrIoRegistry κ υ) : DmrIo κ :=
  ⟨io.wallclock, io.timer.cells.map fun c => c.2.toDmrIoTimer⟩

theorem timers_dmrIoRegTimer (io : DmrIoRegistry κ υ) (timeout : Timeval) (cb : κ) (userdata : υ)
    (once allocated : Bool) :
    (io.dmrIoRegTimer timeout cb userdata once allocated).2.timers =
      (dmrIoRegTimer io.timers timeout cb once allocated).2 := by
  unfold DmrIoRegistry.dmrIoRegTimer dmrIoRegTimer
  split <;> rfl

theorem timers_dmrIoDelTimer [DecidableEq κ] (io : DmrIoRegistry κ υ) (cb : κ) :
    (io.dmrIoDelTimer cb).2.timers = (dmrIoDelTimer io.timers cb).2 := by
  have herase : io.timers.timer.eraseP (fun t => decide (t.cb = cb)) =
      (io.timer.cells.eraseP fun c => decide (c.2.cb = cb)).map fun c => c.2.toDmrIoTimer :=
    List.eraseP_map
  unfold dmrIoDelTimer DmrIoRegistry.dmrIoDelTimer
  rw [herase]
  cases hfind : io.timer.find? fun t => decide (t.cb = cb) with
  | none => rw [NodeList.eraseP_of_find?_none hfind]; rfl
  | some a =>
    rw [NodeList.eraseP_of_find?_some hfind]
    rfl

/-- A call that registers or deregisters. -/
inductive IoOp (κ υ : Type) where
  | regSignal (sig : Nat) (cb : κ) (userdata : υ) (once allocated : Bool)
  | regRead (fd : Nat) (cb : κ) (userdata : υ) (once allocated : Bool)
  | regWrite (fd : Nat) (cb : κ) (userdata : υ) (once allocated : Bool)
  | regError (fd : Nat) (cb : κ) (userdata : υ) (once allocated : Bool)
  | regTimer (timeout : Timeval) (cb : κ) (userdata : υ) (once allocated : Bool)
  | delRead (fd : Nat) (cb : κ)
  | delWrite (fd : Nat) (cb : κ)
  | delError (fd : Nat) (cb : κ)
  | delTimer (cb : κ)

def IoOp.run [DecidableEq κ] (io : DmrIoRegistry κ υ) : IoOp κ υ → DmrIoRegistry κ υ
  | .regSignal sig cb userdata once allocated =>
    (dmrIoRegSignal io sig cb userdata once allocated).2
  | .regRead fd cb userdata once allocated => (dmrIoRegRead io fd cb userdata once allocated).2
  | .regWrite fd cb userdata once allocated => (dmrIoRegWrite io fd cb userdata once allocated).2
  | .regError fd cb userdata once allocated => (dmrIoRegError io fd cb userdata once allocated).2
  | .regTimer timeout cb userdata once allocated =>
    (io.dmrIoRegTimer timeout cb userdata once allocated).2
  | .delRead fd cb => (dmrIoDelRead io fd cb).2
  | .delWrite fd cb => (dmrIoDelWrite io fd cb).2
  | .delError fd cb => (dmrIoDelError io fd cb).2
  | .delTimer cb => (io.dmrIoDelTimer cb).2

/-! ## Dispatching -/

/-- What distinguishes the dispatchers for signals and descriptors: the list they
search, the set that they clear when they remove a one-shot entry, and whether they go
on after the first entry. -/
structure Dispatcher where
  request : DmrRequestType
  clears : Option FdSet
  all : Bool

/-- `io_handle_readable` -/
def ioHandleReadable : Dispatcher := ⟨.read, some .readers, true⟩

/-- `io_handle_writable` -/
def ioHandleWritable : Dispatcher := ⟨.write, some .writers, false⟩

/-- `io_handle_error`: it clears the descriptor from the writers. -/
def ioHandleError : Dispatcher := ⟨.error, some .writers, false⟩

/-- `io_handle_signal` -/
def ioHandleSignal : Dispatcher := ⟨.signal, none, false⟩

/-- A dispatch whose callback is running: the node it was found in, and the successor
that was read before the call. -/
inductive Frame where
  | entry (d : Dispatcher) (fd : Nat) (cur : Nat) (next : Option Nat)
  | timer (cur : Nat) (next : Option Nat)

/-- `timercmp(a, b, <)` -/
def timerLt (a b : Timeval) : Bool := if a.sec = b.sec then a.usec < b.usec else a.sec < b.sec

namespace Dispatcher

/-- The next entry for `fd` among `cells`. -/
def seek (d : Dispatcher) (fd : Nat) (cells : List (Nat × DmrIoEntry κ υ)) : Option Frame :=
  (NodeList.seek (fun e => decide (e.fd = fd)) cells).map fun c => .entry d fd c.1 c.2

/-- The removal of a one-shot entry. -/
def reap (d : Dispatcher) (fd : Nat) (io : DmrIoRegistry κ υ) (cur : Nat) : DmrIoRegistry κ υ :=
  match d.clears with
  | none => io.unlink d.request cur
  | some s => (io.unlink d.request cur).fdClr s fd

/-- What the dispatcher does with the entry `e` whose callback has returned. -/
def afterEntry (d : Dispatcher) (fd : Nat) (io : DmrIoRegistry κ υ) (cur : Nat)
    (e : DmrIoEntry κ υ) : DmrIoRegistry κ υ :=
  if e.once then d.reap fd io cur else io

/-- The search from a saved successor on, if the dispatcher looks further. -/
def seekFrom (d : Dispatcher) (fd : Nat) (io : DmrIoRegistry κ υ) (next : Option Nat) :
    Option (Option Frame) :=
  match d.all, next with
  | true, some a => ((io.entry d.request).suffix a).map (d.seek fd)
  | _, _ => some none

/-- From the return of the callback of `cur` to the next call. -/
def resume (d : Dispatcher) (fd : Nat) (io : DmrIoRegistry κ υ) (cur : Nat) (next : Option Nat) :
    Option (DmrIoRegistry κ υ × Option Frame) := do
  let e ← (io.entry d.request).get? cur
  let io := d.afterEntry fd io cur e
  let frame ← d.seekFrom fd io next
  return (io, frame)

end Dispatcher

/-- The next timer that is due. -/
def seekTimer (io : DmrIoRegistry κ υ) (cells : List (Nat × DmrIoTimerEntry κ υ)) : Option Frame :=
  (NodeList.seek (fun t => timerLt t.wallclock io.wallclock) cells).map fun c => .timer c.1 c.2

/-- What `io_handle_timers` does with the timer `t` whose callback has returned. -/
def afterTimer (io : DmrIoRegistry κ υ) (cur : Nat) (t : DmrIoTimerEntry κ υ) :
    DmrIoRegistry κ υ :=
  if t.once then io.unlinkTimer cur
  else { io with timer := io.timer.modify cur fun t =>
    { t with wallclock := timeradd io.wallclock t.timeout } }

/-- The search from a saved successor on. -/
def seekTimerFrom (io : DmrIoRegistry κ υ) : (next : Option Nat) → Option (Option Frame)
  | none => some none
  | some a => (io.timer.suffix a).map (seekTimer io)

/-- In `io_handle_timers`, from the return of the callback of `cur` to the next call. -/
def resumeTimer (io : DmrIoRegistry κ υ) (cur : Nat) (next : Option Nat) :
    Option (DmrIoRegistry κ υ × Option Frame) := do
  let t ← io.timer.get? cur
  let io := afterTimer io cur t
  let frame ← seekTimerFrom io next
  return (io, frame)

/-- The callback that a dispatch is running, its data, and its descriptor, if it has
one. -/
def Frame.callback (io : DmrIoRegistry κ υ) : Frame → Option (κ × υ × Nat)
  | .entry d fd cur _ => ((io.entry d.request).get? cur).map fun e => (e.cb, e.userdata, fd)
  | .timer cur _ => (io.timer.get? cur).map fun t => (t.cb, t.userdata, 0)

/-- The registry and the dispatches under way, the innermost first. -/
structure IoLoop (κ υ : Type) where
  io : DmrIoRegistry κ υ
  frames : List Frame

/-- What can happen next. -/
inductive IoAction (κ υ : Type) where
  /-- the program, or the callback that runs, registers or deregisters -/
  | op (op : IoOp κ υ)
  | readable (fd : Nat)
  | writable (fd : Nat)
  | error (fd : Nat)
  | signal (sig : Nat)
  /-- `io_handle_timers`, when the clock reads `now` -/
  | timers (now : Timeval)
  /-- the callback that runs returns; no dispatcher looks at what -/
  | ret (value : Int)

namespace IoLoop

/-- The loop before anything is registered. -/
def start (now : Timeval) : IoLoop κ υ := ⟨dmrIoNew now, []⟩

/-- A dispatch up to its first callback. -/
def dispatch (l : IoLoop κ υ) (d : Dispatcher) (fd : Nat) : IoLoop κ υ :=
  { l with frames := (d.seek fd (l.io.entry d.request).cells).toList ++ l.frames }

/-- The state in which the innermost dispatch goes on with `frame`, if it does. -/
def goOn (frames : List Frame) (r : DmrIoRegistry κ υ × Option Frame) : IoLoop κ υ :=
  ⟨r.1, r.2.toList ++ frames⟩

def step [DecidableEq κ] (l : IoLoop κ υ) : IoAction κ υ → Option (IoLoop κ υ)
  | .op op => some { l with io := op.run l.io }
  | .readable fd => some (l.dispatch ioHandleReadable fd)
  | .writable fd => some (l.dispatch ioHandleWritable fd)
  | .error fd => some (l.dispatch ioHandleError fd)
  | .signal sig => some (l.dispatch ioHandleSignal sig)
  | .timers now =>
    let io := { l.io with wallclock := now }
    some ⟨io, (seekTimer io io.timer.cells).toList ++ l.frames⟩
  | .ret _ =>
    match l.frames with
    | [] => some l
    | .entry d fd cur next :: frames => (d.resume fd l.io cur next).map (goOn frames)
    | .timer cur next :: frames => (resumeTimer l.io cur next).map (goOn frames)

end IoLoop

end Dmrlib
