import Dmrlib.Io.Registry
import Dmrlib.Lib.Sweep
import Dmrlib.Protocol.HomebrewLogin

/-!
# Homebrew clients on the I/O loop (`src/dmr/protocol/homebrew_io.c`)

A client that is registered has a timer that pings the master and callbacks for its
socket. Two of them can ask for the client to be closed, by returning something else
than zero: the reader when the master refuses the client, and the ping timer when the
master has not answered for ten seconds.

The callbacks are static, so only `homebrew_io_register` registers them, and only
`homebrew_io_stop`, called by the callback for errors, removes them.
`HomebrewLoop` is the loop with any number of clients on it, and with callbacks of
others that register and deregister as they like. A client that was freed is taken to
keep its content.

- `homebrewIoRegister`, `homebrewIoStop`: the operations on the loop, in their order.
- `HomebrewLoop`: the loop, the clients and the queues of the packets they have received.
- `work`: what a callback does.
- `LoopEvent`, `step`: what can happen next, and the state after it.
-/

namespace Dmrlib

open Run

/-- The callbacks on a loop: those of the Homebrew clients, and the others. -/
inductive HomebrewCallback where
  | pingTimer
  | readable
  | error
  | other (n : Nat)
deriving DecidableEq

/-- What a callback finds when it is called, and what it returns, if it is none of
those of the clients. -/
structure CallbackInput where
  env : HomebrewEnv
  /-- Whether there is memory for the pointer to the packet. -/
  allocated : Bool
  /-- Whether there is memory to queue the packet. -/
  queued : Bool
  recv : Option (List UInt8)
  value : Int

/-- `homebrew_io_readable`: the return value, the client, and its queue `rxq`. -/
def homebrewIoReadable (c : Common) (i : CallbackInput) (homebrew : DmrHomebrew)
    (rxq : List DmrParsedPacket) : Option (Int × DmrHomebrew × List DmrParsedPacket) :=
  if i.allocated = false then some (-1, homebrew, rxq)
  else do
    let r ← dmrHomebrewRead c { i.env with parsedOut := true } homebrew i.recv
    match r.ret, r.parsed with
    | 0, some (some parsed) =>
      if i.queued then return (0, r.homebrew, rxq ++ [parsed]) else return (-1, r.homebrew, rxq)
    | ret, _ => return (ret, r.homebrew, rxq)

/-- `homebrew_io_register`, for the client `homebrew` with socket `fd`; `allocated`
tells for each call whether there is memory. -/
def homebrewIoRegister (homebrew fd : Nat) (allocated : Bool × Bool × Bool) :
    List (IoOp HomebrewCallback Nat) :=
  [.regTimer ⟨5, 0⟩ .pingTimer homebrew false allocated.1,
    .regRead fd .readable homebrew false allocated.2.1,
    .regError fd .error homebrew false allocated.2.2]

/-- `homebrew_io_stop` -/
def homebrewIoStop (fd : Nat) : List (IoOp HomebrewCallback Nat) :=
  [.delTimer .pingTimer, .delRead fd .readable, .delError fd .error]

/-- Calls of others register callbacks of their own. -/
def IoOp.others : IoOp Nat Nat → IoOp HomebrewCallback Nat
  | .regSignal sig cb userdata once allocated => .regSignal sig (.other cb) userdata once allocated
  | .regRead fd cb userdata once allocated => .regRead fd (.other cb) userdata once allocated
  | .regWrite fd cb userdata once allocated => .regWrite fd (.other cb) userdata once allocated
  | .regError fd cb userdata once allocated => .regError fd (.other cb) userdata once allocated
  | .regTimer timeout cb userdata once allocated =>
    .regTimer timeout (.other cb) userdata once allocated
  | .delRead fd cb => .delRead fd (.other cb)
  | .delWrite fd cb => .delWrite fd (.other cb)
  | .delError fd cb => .delError fd (.other cb)
  | .delTimer cb => .delTimer (.other cb)

/-- The loop, the clients and their queues. -/
structure HomebrewLoop where
  loop : IoLoop HomebrewCallback Nat
  homebrew : Nat → DmrHomebrew
  rxq : Nat → List DmrParsedPacket

inductive LoopEvent where
  /-- `homebrew_io_register` -/
  | register (homebrew fd : Nat) (allocated : Bool × Bool × Bool)
  /-- the program, or a callback of others, registers or deregisters -/
  | op (op : IoOp Nat Nat)
  /-- the program calls functions of a client -/
  | use (homebrew : Nat) (state : DmrHomebrew)
  | timers (now : Timeval)
  | readable (fd : Nat)
  | writable (fd : Nat)
  | error (fd : Nat)
  /-- a signal, which may arrive at any time -/
  | signal (sig : Nat)
  /-- the callback that runs does its work and returns -/
  | ret (i : CallbackInput)

namespace HomebrewLoop

def ops (s : HomebrewLoop) (ops : List (IoOp HomebrewCallback Nat)) : HomebrewLoop :=
  { s with loop := { s.loop with io := ops.foldl IoOp.run s.loop.io } }

def act (s : HomebrewLoop) (a : IoAction HomebrewCallback Nat) : Option HomebrewLoop :=
  (s.loop.step a).map fun loop => { s with loop := loop }

/-- The loop starts a dispatch when the previous one is through. -/
def dispatch (s : HomebrewLoop) (a : IoAction HomebrewCallback Nat) : Option HomebrewLoop :=
  match s.loop.frames with
  | [] => s.act a
  | _ :: _ => none

/-- The callback that runs. -/
def running (s : HomebrewLoop) : Option (HomebrewCallback × Nat × Nat) :=
  s.loop.frames.head?.bind (Frame.callback s.loop.io)

/-- What the callback that runs does before it returns, and what it returns. -/
def work (c : Common) (s : HomebrewLoop) (i : CallbackInput) : Option (Int × HomebrewLoop) :=
  match s.running with
  | some (.readable, h, _) => do
    let (ret, homebrew, rxq) ← homebrewIoReadable c i (s.homebrew h) (s.rxq h)
    return (ret, { s with
      homebrew := Function.update s.homebrew h homebrew
      rxq := Function.update s.rxq h rxq })
  | some (.pingTimer, h, _) => do
    let r ← homebrewIoPingTimer i.env (s.homebrew h)
    return (r.ret, { s with homebrew := Function.update s.homebrew h r.homebrew })
  | some (.error, _, fd) => some (0, s.ops (homebrewIoStop fd))
  | _ => some (i.value, s)

def step (c : Common) (s : HomebrewLoop) : LoopEvent → Option HomebrewLoop
  | .register homebrew fd allocated => some (s.ops (homebrewIoRegister homebrew fd allocated))
  | .op op => some (s.ops [op.others])
  | .use homebrew state => some { s with homebrew := Function.update s.homebrew homebrew state }
  | .timers now => s.dispatch (.timers now)
  | .readable fd => s.dispatch (.readable fd)
  | .writable fd => s.dispatch (.writable fd)
  | .error fd => s.dispatch (.error fd)
  | .signal sig => s.act (.signal sig)
  | .ret i => do
    let (value, s) ← s.work c i
    s.act (.ret value)

/-- A loop with nothing registered, and clients in any state. -/
def start (now : Timeval) (homebrew : Nat → DmrHomebrew) : HomebrewLoop :=
  ⟨.start now, homebrew, fun _ => []⟩

end HomebrewLoop

end Dmrlib
