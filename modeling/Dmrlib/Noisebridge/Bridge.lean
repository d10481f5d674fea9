import Dmrlib.Io.Program
import Dmrlib.Lib.Heap
import Dmrlib.Noisebridge.Repeater
import Dmrlib.Protocol.HomebrewIo
import Dmrlib.Protocol.MmdvmSend

/-!
# The bridge on its loop (`src/cmd/noisebridge/repeater.c`)

Two callbacks share the descriptor of a protocol. The protocol's own one reads a packet and
puts a reference to it in the queue `rxq`; `poll_proto_homebrew` or `poll_proto_mmdvm` takes
the references out and has the packets relayed. Both are on the list of readers, and whether
a packet is relayed by the dispatch that read it depends on their order there.

Packets and the buffers of the Homebrew functions are objects on a heap. What is in a buffer is
the business of `Dmrlib.Protocol.Homebrew`; here a buffer is only allocated or freed. The
buffers of what a client sends on its own, of answers and pings, and those of the modem's
functions are left out, as is the pointer that a reader allocates and frees for itself.

`none` is a call the program does not survive, or that never returns: an error of the script
that no one catches, sending for ever, or following a reference to what was freed.

- `Object`: what is on the heap.
- `BridgeSetup`: the protocols with their sockets, and what they use of missing libraries.
- `Noisebridge`: the state: the loop, the slots, the script's stack, the clients, the modems, the
  queues, the heap, and a record of the packets that were pushed.
- `program`: the callbacks, as work on that state.
- `BridgeEvent`, `Noisebridge.step`: a dispatch of the loop as one step.
-/

namespace Dmrlib

open Lua Run

/-! ## Objects -/

/-- What is allocated on the way of a packet. -/
inductive Object where
  | raw
  | parsed (parsed : DmrParsedPacket)

/-- A `dmr_packetq_entry`: its reference, and what the reader had stored there, for the
record. -/
structure Queued where
  ref : Nat
  parsed : DmrParsedPacket

/-- `dmr_homebrew_send`. Its buffer is freed in `dmr_homebrew_send_raw`, whatever becomes of
sending. -/
def dmrHomebrewSendOnHeap (A : Allocator) (env : HomebrewEnv) (homebrew : DmrHomebrew)
    (parsed : DmrParsedPacket) (heap : Heap Object) : Option (HomebrewResult × Heap Object) :=
  if env.allocated then do
    let (raw, heap) := heap.alloc A .raw
    let r ← dmrHomebrewSend env homebrew parsed
    let heap ← heap.free raw
    return (r, heap)
  else do
    let r ← dmrHomebrewSend env homebrew parsed
    return (r, heap)

/-- `socket_recv` failed, or the datagram is shorter than any that the master sends. -/
def shortRead : (recv : Option (List UInt8)) → Bool
  | none => true
  | some datagram => datagram.length < 14

/-- `dmr_homebrew_read`, with `dmr_homebrew_parse_dmrd`: the outcome, and the packet that was
stored to `parsed_out`. -/
def dmrHomebrewReadOnHeap (A : Allocator) (c : Common) (env : HomebrewEnv) (homebrew : DmrHomebrew)
    (recv : Option (List UInt8)) (heap : Heap Object) :
    Option (HomebrewResult × Option Queued × Heap Object) := do
  let r ← dmrHomebrewRead c env homebrew recv
  if env.received = false then return (r, none, heap)
  let (raw, heap) := heap.alloc A .raw
  -- these returns do not free the buffer
  if shortRead recv then return (r, none, heap)
  match r.parsed with
  | some (some parsed) =>
    let (ref, heap) := heap.alloc A (.parsed parsed)
    let heap ← heap.free raw
    return (r, some ⟨ref, parsed⟩, heap)
  | _ =>
    let heap ← heap.free raw
    return (r, none, heap)

/-! ## Setting up -/

/-- The callbacks on the loop of the bridge. -/
inductive BridgeCallback where
  | stopRepeater
  | slotTimer
  | homebrewIo (cb : HomebrewCallback)
  | pollProtoHomebrew
  | mmdvmIoReadable
  | mmdvmIoError
  | pollProtoMmdvm
deriving DecidableEq

/-- What the bridge runs with. Protocols are known by their positions. `init_repeater` gives up
where a protocol is neither a Homebrew client nor a modem, and sockets and serial lines that
are open have different descriptors. -/
structure BridgeSetup extends RepeaterConfig where
  fd : Nat → Nat
  model : Nat → DmrMmdvmModel
  conv : Conv
  common : Common
  allocator : Allocator
  type_eq : ∀ proto ∈ protos, proto.type = DMR_PROTOCOL_HOMEBREW ∨ proto.type = DMR_PROTOCOL_MMDVM
  fd_inj : ∀ i < protos.length, ∀ j < protos.length, fd i = fd j → i = j

/-- The same call with another type of callbacks. -/
def IoOp.map {κ κ' υ : Type} (f : κ → κ') : IoOp κ υ → IoOp κ' υ
  | .regSignal sig cb userdata once allocated => .regSignal sig (f cb) userdata once allocated
  | .regRead fd cb userdata once allocated => .regRead fd (f cb) userdata once allocated
  | .regWrite fd cb userdata once allocated => .regWrite fd (f cb) userdata once allocated
  | .regError fd cb userdata once allocated => .regError fd (f cb) userdata once allocated
  | .regTimer timeout cb userdata once allocated => .regTimer timeout (f cb) userdata once allocated
  | .delRead fd cb => .delRead fd (f cb)
  | .delWrite fd cb => .delWrite fd (f cb)
  | .delError fd cb => .delError fd (f cb)
  | .delTimer cb => .delTimer (f cb)

namespace BridgeSetup

/-- `init_proto_homebrew`, and `homebrew_io_register` through `dmr_io_add_protocol` -/
def initProtoHomebrew (setup : BridgeSetup) (i : Nat) : List (IoOp BridgeCallback Nat) :=
  .regRead (setup.fd i) .pollProtoHomebrew i false true ::
    (homebrewIoRegister i (setup.fd i) (true, true, true)).map (IoOp.map .homebrewIo)

/-- `init_proto_mmdvm`, and `mmdvm_io_register` -/
def initProtoMmdvm (setup : BridgeSetup) (i : Nat) : List (IoOp BridgeCallback Nat) :=
  [.regRead (setup.fd i) .pollProtoMmdvm i false true,
    .regRead (setup.fd i) .mmdvmIoReadable i false true,
    .regError (setup.fd i) .mmdvmIoError i false true]

/-- The body of the loop in `init_repeater`. -/
def initProto (setup : BridgeSetup) : Proto × Nat → List (IoOp BridgeCallback Nat)
  | (proto, i) =>
    if proto.type = DMR_PROTOCOL_HOMEBREW then setup.initProtoHomebrew i
    else setup.initProtoMmdvm i

/-- `init_repeater`, when there is memory for all entries: the loop it sets up. -/
def initRepeater (setup : BridgeSetup) (now : Timeval) : DmrIoRegistry BridgeCallback Nat :=
  let SIGINT := 2
  (.regSignal SIGINT .stopRepeater 0 true true :: setup.protos.zipIdx.flatMap setup.initProto).foldl
    IoOp.run (dmrIoNew now)

end BridgeSetup

/-! ## The bridge -/

/-- The bridge: its loop, the slots, the stack of the script, and for each protocol the client or
the modem with what its line has in store, and the queue `rxq`. `pushed` records the calls of
`push_proto`: the source, and the packet. -/
structure Noisebridge where
  io : DmrIoRegistry BridgeCallback Nat
  ts : Fin 2 → RepeaterSlot
  stack : Stack
  homebrew : Nat → DmrHomebrew
  mmdvm : Nat → DmrMmdvm
  port : Nat → List SerialRead
  rxq : Nat → List Queued
  heap : Heap Object
  pushed : List (Nat × DmrParsedPacket)

/-- What surrounds a call of `push_proto`: besides what `PushEnv` says, the sends to each
destination. -/
structure PushInput extends PushEnv where
  send : Nat → HomebrewEnv

/-- What a callback of the bridge finds around it. -/
structure BridgeInput extends CallbackInput where
  serial : ReadEnv
  /-- What has come in on the serial line. -/
  arrived : List SerialRead
  /-- For each packet that is pushed. -/
  push : Nat → PushInput
  /-- The clock at the turn of each slot. -/
  now : Fin 2 → Timeval

/-- The timers of the loop, as `Repeater` has them. -/
def DmrIoRegistry.repeaterIo (io : DmrIoRegistry BridgeCallback Nat) : DmrIo TimerCb where
  wallclock := io.wallclock
  timer := io.timer.cells.filterMap fun c =>
    match c.2.cb with
    | .slotTimer => some ⟨c.2.timeout, c.2.wallclock, .slotTimer, c.2.once⟩
    | .homebrewIo .pingTimer =>
      some ⟨c.2.timeout, c.2.wallclock, .homebrewIoPingTimer c.2.userdata, c.2.once⟩
    | _ => none

/-- What a push does to the timers of the loop, when it moves a slot from one state to another:
`new_io_timer`, `end_io_timer` or nothing. -/
def slotTimerOps (config : RepeaterConfig) (allocated : Bool) (old new : SlotState) :
    List (IoOp BridgeCallback Nat) :=
  if old = .idle ∧ new ≠ .idle then
    [.regTimer ⟨(config.timeout / 1000).toNat, (config.timeout % 1000).toNat * 1000⟩ .slotTimer 0
      false allocated]
  else if old ≠ .idle ∧ new = .idle then [.delTimer .slotTimer]
  else []

namespace Noisebridge

/-- The slots and the timers. -/
def repeater (s : Noisebridge) : Repeater := ⟨s.ts, s.io.repeaterIo⟩

/-- The packet at a reference. -/
def packet? (s : Noisebridge) (ref : Nat) : Option DmrParsedPacket :=
  match s.heap.get? ref with
  | some (.parsed parsed) => some parsed
  | _ => none

/-- `dmr_packetq_add` -/
def enqueue (s : Noisebridge) (h : Nat) (q : Queued) : Noisebridge :=
  { s with rxq := Function.update s.rxq h (s.rxq h ++ [q]) }

variable (setup : BridgeSetup)

/-- The switches in `push_proto` on the policy and on the type of the destination. -/
def send (env : PushInput) (policy : RoutePolicy) (dst : Proto) (i cloned : Nat)
    (s : Noisebridge) : Option Noisebridge :=
  if policy = .reject then some s
  else if dst.type = DMR_PROTOCOL_HOMEBREW then do
    let packet ← s.packet? cloned
    let (_, heap) ←
      dmrHomebrewSendOnHeap setup.allocator (env.send i) (s.homebrew i) packet s.heap
    return { s with heap }
  else if dst.type = DMR_PROTOCOL_MMDVM then do
    let packet ← s.packet? cloned
    let (packet, _) := dmrMmdvmSend (env.send i).allocated (env.send i).grown (setup.model i) packet
    return { s with heap := s.heap.set cloned (.parsed packet) }
  else some s

/-- The loop over the destinations in `push_proto`: its return value, and the bridge. No one
frees the clones. -/
def relay (env : PushInput) (src : Nat) (srcProto : Proto) (parsed : Nat) :
    List (Proto × Nat) → Noisebridge → Option (Int × Noisebridge)
  | [], s => some (0, s)
  | (dst, i) :: rest, s =>
    if i = src then relay env src srcProto parsed rest s
    else if env.cloned i then do
      let packet ← s.packet? parsed
      let (cloned, heap) := s.heap.alloc setup.allocator (.parsed packet)
      let outcome ← route setup.conv s.stack ⟨srcProto, dst, packet, env.script i⟩
      let s : Noisebridge :=
        { s with stack := outcome.stack, heap := heap.set cloned (.parsed outcome.parsed) }
      let s ← s.send setup env outcome.policy dst i cloned
      relay env src srcProto parsed rest s
    else some (-1, s)

/-- `push_proto` -/
def pushProto (env : PushInput) (src : Nat) (srcProto : Proto) (parsed : Nat) (s : Noisebridge) :
    Option Noisebridge := do
  let packet ← s.packet? parsed
  let s := { s with pushed := s.pushed ++ [(src, packet)] }
  let t ← slotOf packet.ts
  match pushSlot setup.toRepeaterConfig env.timerAllocated t packet s.repeater with
  | none => return s
  | some r =>
    let ops := slotTimerOps setup.toRepeaterConfig env.timerAllocated (s.ts t).state (r.ts t).state
    let s := { s with ts := r.ts, io := ops.foldl IoOp.run s.io }
    let (_, s) ← s.relay setup env src srcProto parsed setup.protos.zipIdx
    return s

/-- The loops around `dmr_packetq_shift`, for a queue with these entries. -/
def drain (h src : Nat) (srcProto : Proto) :
    List Queued → (push : Nat → PushInput) → Noisebridge → Option Noisebridge
  | [], _, s => some s
  | q :: rest, push, s => do
    let s := { s with rxq := Function.update s.rxq h rest }
    let s ← s.pushProto setup (push 0) src srcProto q.ref
    drain h src srcProto rest (fun k => push (k + 1)) s

/-- `poll_proto_homebrew`: it goes through all protocols with the descriptor. -/
def pollProtoHomebrew (h fd : Nat) (push : Nat → PushInput) (s : Noisebridge) :
    Option Noisebridge :=
  if setup.fd h ≠ fd then some s
  else setup.protos.zipIdx.foldlM (fun s p =>
    if setup.fd p.2 = fd then s.drain setup h p.2 p.1 (s.rxq h) push else some s) s

/-- `poll_proto_mmdvm`: it takes the first protocol with the descriptor. -/
def pollProtoMmdvm (h fd : Nat) (push : Nat → PushInput) (s : Noisebridge) : Option Noisebridge :=
  if setup.fd h ≠ fd then some s
  else
    match setup.protos.zipIdx.find? fun p => setup.fd p.2 = fd with
    | none => some s
    | some p => s.drain setup h p.2 p.1 (s.rxq h) push

/-- `homebrew_io_readable` -/
def homebrewIoReadable (h : Nat) (i : CallbackInput) (s : Noisebridge) : Option Noisebridge :=
  if i.allocated = false then some s
  else do
    let (r, parsed, heap) ← dmrHomebrewReadOnHeap setup.allocator setup.common
      { i.env with parsedOut := true } (s.homebrew h) i.recv s.heap
    let s := { s with homebrew := Function.update s.homebrew h r.homebrew, heap }
    match r.ret, parsed with
    | 0, some q => return if i.queued then s.enqueue h q else s
    | _, _ => return s

/-- `mmdvm_io_readable`: once the packet is in the queue, it is freed. -/
def mmdvmIoReadable (h : Nat) (i : BridgeInput) (s : Noisebridge) : Option Noisebridge :=
  if i.allocated = false then some s
  else do
    let r ← dmrMmdvmRead i.serial (s.mmdvm h) (s.port h ++ i.arrived)
    let s := { s with
      mmdvm := Function.update s.mmdvm h r.mmdvm
      port := Function.update s.port h r.port }
    match r.ret, r.parsed with
    | 0, some parsed =>
      let (ref, heap) := s.heap.alloc setup.allocator (.parsed parsed)
      let s := if i.queued then { s with heap }.enqueue h ⟨ref, parsed⟩ else { s with heap }
      let heap ← s.heap.free ref
      return { s with heap }
    | _, _ => return s

/-- The callbacks. Those for errors and signals are not called by the dispatches below. -/
def work : BridgeCallback → (userdata fd : Nat) → BridgeInput → Noisebridge → Option Noisebridge
  | .homebrewIo .readable, h, _, i, s => s.homebrewIoReadable setup h i.toCallbackInput
  | .homebrewIo .pingTimer, h, _, i, s => do
    let r ← homebrewIoPingTimer i.env (s.homebrew h)
    return { s with homebrew := Function.update s.homebrew h r.homebrew }
  | .pollProtoHomebrew, h, fd, i, s => s.pollProtoHomebrew setup h fd i.push
  | .mmdvmIoReadable, h, _, i, s => s.mmdvmIoReadable setup h i
  | .pollProtoMmdvm, h, fd, i, s => s.pollProtoMmdvm setup h fd i.push
  | .slotTimer, _, _, i, s => some { s with
      ts := (Dmrlib.slotTimer setup.toRepeaterConfig i.now s.repeater).ts }
  | _, _, _, _, s => some s

/-- The bridge is a program on the loop. -/
def program : IoProgram BridgeCallback Nat BridgeInput Noisebridge where
  io := io
  setIo s io := { s with io }
  io_setIo _ _ := rfl
  setIo_io _ := rfl
  work := work setup

/-- The bridge after `init_repeater`, with nothing received yet. -/
def start (now : Timeval) (homebrew : Nat → DmrHomebrew) (mmdvm : Nat → DmrMmdvm) :
    Noisebridge where
  io := setup.initRepeater now
  ts _ := ⟨0, 0, .idle, 0, ⟨0, 0⟩⟩
  stack := []
  homebrew := homebrew
  mmdvm := mmdvm
  port _ := []
  rxq _ := []
  heap := .empty
  pushed := []

end Noisebridge

/-- What the loop of the bridge does: it calls the readers of a descriptor, or the timers that
are due. Callbacks are called in turn; the `k`-th one finds `input k`. -/
inductive BridgeEvent where
  | readable (fd : Nat) (input : Nat → BridgeInput)
  | timers (now : Timeval) (input : Nat → BridgeInput)

def Noisebridge.step (setup : BridgeSetup) (s : Noisebridge) : BridgeEvent → Option Noisebridge
  | .readable fd input => (program setup).readable fd input s
  | .timers now input => (program setup).timers now input s

end Dmrlib
