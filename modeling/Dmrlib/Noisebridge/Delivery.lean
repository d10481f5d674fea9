import Dmrlib.Noisebridge.Receiving
import Dmrlib.Protocol.HomebrewDmrd

/-!
# Delivery of packets from Homebrew clients

Between dispatches all queues are empty (`Idle`): a dispatch that puts a packet in the queue of a
client takes it out again, since the reader is called before the poll. So what is pushed with a
client as its source is what the client received, in this order (`homebrew_delivers`).

- `Idle`: all queues are empty and all readers are registered.
- `Idle.step`: a dispatch leads from one such state to another.
- `step_pushedFrom`: what one dispatch pushes with a given client as its source.
- `homebrew_delivers`: what a run pushes.
-/

namespace Dmrlib

open Lua Run

/-- The packet that a reader queues, if there is memory for all it needs. -/
def CallbackInput.packet (c : Common) (i : CallbackInput) : Option DmrParsedPacket :=
  if i.allocated = true ∧ i.env.received = true ∧ i.queued = true then
    i.recv.bind (dmrdPacket c i.env)
  else none

theorem CallbackInput.GivesBack.packet {c : Common} {i : CallbackInput} (h : i.GivesBack) :
    i.packet c = none := by
  unfold CallbackInput.packet
  split
  · next hmem => exact ((CallbackInput.givesBack_iff hmem.1 hmem.2.1 c).mp h).2
  · rfl

theorem packet_of_short {c : Common} {i : CallbackInput} (h : shortRead i.recv = true) :
    i.packet c = none := by
  unfold CallbackInput.packet
  split
  · exact dmrdPacket_of_short h
  · rfl

namespace Noisebridge

variable {setup : BridgeSetup}

/-- The bridge between two dispatches. -/
structure Idle (setup : BridgeSetup) (s : Noisebridge) : Prop where
  registered : s.Registered setup
  rxq : ∀ h, s.rxq h = []

theorem rxq_enqueue {s : Noisebridge} {h : Nat} (hs : s.rxq h = []) (q : Queued) :
    (s.enqueue h q).rxq h = [q] := by
  show Function.update s.rxq h (s.rxq h ++ [q]) h = [q]
  rw [Function.update_self, hs]
  rfl

theorem idle_start (now : Timeval) (homebrew : Nat → DmrHomebrew) (mmdvm : Nat → DmrMmdvm) :
    (start setup now homebrew mmdvm).Idle setup :=
  ⟨registered_start now homebrew mmdvm, fun _ => rfl⟩

/-- The queue of one protocol is drained, and the others are empty. -/
theorem Idle.drain {s s₁ s' : Noisebridge} (hs : s.Idle setup) {h src : Nat} {proto : Proto}
    {push : Nat → PushInput} (hdrain : s₁.drain setup h src proto (s₁.rxq h) push = some s')
    (hio : s₁.io = s.io) (hrxq : ∀ h', h' ≠ h → s₁.rxq h' = s.rxq h') : s'.Idle setup := by
  obtain ⟨packets, hkept, -⟩ := drain_spec rfl hdrain
  refine ⟨hkept.registered ?_, fun h' => ?_⟩
  · obtain ⟨⟨hentry, htimers⟩, -⟩ := hs
    rw [← hio] at hentry htimers
    exact ⟨hentry, htimers⟩
  · rw [hkept.rxq]
    by_cases hh : h' = h
    · rw [hh]
      exact Function.update_self ..
    · show Function.update s₁.rxq h [] h' = []
      rw [Function.update_of_ne hh, hrxq h' hh, hs.rxq]

/-! ## One dispatch -/

/-- A dispatch on the socket of a client, taken apart. -/
theorem readable_homebrew {s : Noisebridge} (hs : s.Registered setup) {proto : Proto} {h : Nat}
    (hproto : setup.protos[h]? = some proto) (htype : proto.type = DMR_PROTOCOL_HOMEBREW)
    (input : Nat → BridgeInput) :
    s.step setup (.readable (setup.fd h) input) =
      (s.homebrewIoReadable setup h (input 0).toCallbackInput).bind fun s =>
        s.drain setup h h proto (s.rxq h) (input 1).push := by
  rw [readable_proto hs hproto, BridgeSetup.readerOf, if_pos htype, BridgeSetup.pollOf,
    if_pos htype]
  refine Option.bind_congr fun s₁ _ => ?_
  exact (pollProto_eq hproto _ _).1

/-- A dispatch on the line of a modem, taken apart. -/
theorem readable_mmdvm {s : Noisebridge} (hs : s.Registered setup) {proto : Proto} {h : Nat}
    (hproto : setup.protos[h]? = some proto) (htype : proto.type ≠ DMR_PROTOCOL_HOMEBREW)
    (input : Nat → BridgeInput) :
    s.step setup (.readable (setup.fd h) input) =
      (s.mmdvmIoReadable setup h (input 0)).bind fun s =>
        s.drain setup h h proto (s.rxq h) (input 1).push := by
  rw [readable_proto hs hproto, BridgeSetup.readerOf, if_neg htype, BridgeSetup.pollOf,
    if_neg htype]
  refine Option.bind_congr fun s₁ _ => ?_
  exact (pollProto_eq hproto _ _).2

/-- What a dispatch on the socket of a client does to the record and to the heap. -/
theorem homebrew_dispatch {s s' : Noisebridge} (hs : s.Idle setup) {proto : Proto} {h : Nat}
    (hproto : setup.protos[h]? = some proto) (htype : proto.type = DMR_PROTOCOL_HOMEBREW)
    {input : Nat → BridgeInput} (hstep : s.step setup (.readable (setup.fd h) input) = some s') :
    s'.Idle setup ∧
      s'.pushed = s.pushed ++ ((input 0).packet setup.common).toList.map (Prod.mk h) ∧
      ((input 0).GivesBack ∧ s'.heap = s.heap ∨
        ¬ (input 0).GivesBack ∧ s.heap.live.card < s'.heap.live.card) := by
  rw [readable_homebrew hs.registered hproto htype] at hstep
  obtain ⟨s₁, hread, hdrain⟩ := Option.bind_eq_some_iff.mp hstep
  obtain ⟨homebrew, hback⟩ | ⟨homebrew, hback, hshort⟩ |
    ⟨homebrew, heap, q, hback, hpacket, hheap, hget, hcard⟩ := homebrewIoReadable_spec hread
  · -- the queue is empty, so the poll does nothing
    refine ⟨hs.drain hdrain rfl fun _ _ => rfl, ?_⟩
    rw [hs.rxq h] at hdrain
    cases hdrain
    exact ⟨by rw [hback.packet]; exact (List.append_nil _).symm, .inl ⟨hback, rfl⟩⟩
  · refine ⟨hs.drain hdrain rfl fun _ _ => rfl, ?_⟩
    rw [hs.rxq h] at hdrain
    cases hdrain
    refine ⟨by rw [packet_of_short hshort]; exact (List.append_nil _).symm, .inr ⟨hback, ?_⟩⟩
    show s.heap.live.card < (s.heap.alloc setup.allocator .raw).2.live.card
    rw [Heap.card_alloc]
    exact Nat.lt_succ_self _
  · have hmem : (input 0).packet setup.common =
        if (input 0).queued then some q.parsed else none := by
      obtain ⟨halloc, hreceived⟩ := CallbackInput.hasMemory_of_not_givesBack hback
      rw [CallbackInput.packet, hpacket, halloc, hreceived]
      simp
    cases hqueued : (input 0).queued with
    | true =>
      rw [hqueued, if_pos rfl] at hdrain hmem
      have hqueue : ({ s with homebrew, heap }.enqueue h q).rxq h = [q] :=
        rxq_enqueue (s := { s with homebrew, heap }) (hs.rxq h) q
      obtain ⟨packets, hkept, hparsed⟩ := drain_spec rfl hdrain
      rw [hqueue] at hparsed
      have hparsed : packets = [q.parsed] := by
        refine hparsed fun q' hq' => ?_
        obtain rfl := List.mem_singleton.mp hq'
        exact packet?_eq_some_iff.mpr hget
      refine ⟨hs.drain hdrain rfl fun h' hh => Function.update_of_ne hh _ _, ?_,
        .inr ⟨hback, ?_⟩⟩
      · rw [hkept.pushed, hparsed, hmem]
        rfl
      · have hle := hkept.heap.card_le
        change heap.live.card ≤ s'.heap.live.card at hle
        omega
    | false =>
      rw [hqueued, if_neg Bool.false_ne_true] at hdrain hmem
      refine ⟨hs.drain hdrain rfl fun _ _ => rfl, ?_⟩
      rw [hs.rxq h] at hdrain
      cases hdrain
      refine ⟨by rw [hmem]; exact (List.append_nil _).symm, .inr ⟨hback, ?_⟩⟩
      show s.heap.live.card < heap.live.card
      omega

/-- A dispatch on the line of a modem that gets to its end has queued nothing. -/
theorem mmdvm_dispatch {s s' : Noisebridge} (hs : s.Idle setup) {proto : Proto} {h : Nat}
    (hproto : setup.protos[h]? = some proto) (htype : proto.type ≠ DMR_PROTOCOL_HOMEBREW)
    {input : Nat → BridgeInput} (hstep : s.step setup (.readable (setup.fd h) input) = some s') :
    s'.Idle setup ∧ s'.pushed = s.pushed ∧ s'.heap = s.heap := by
  rw [readable_mmdvm hs.registered hproto htype] at hstep
  obtain ⟨s₁, hread, hdrain⟩ := Option.bind_eq_some_iff.mp hstep
  obtain ⟨-, mmdvm, port, q, hread', hdangling⟩ | ⟨-, hidle⟩ :=
    @mmdvmIoReadable_spec setup h (input 0) s
  · -- the poll follows the reference
    cases hread.symm.trans hread'
    have hqueue : ({ s with mmdvm, port }.enqueue h q).rxq h = [q] :=
      rxq_enqueue (s := { s with mmdvm, port }) (hs.rxq h) q
    rw [hqueue] at hdrain
    obtain ⟨s₂, hpush, -⟩ := Option.bind_eq_some_iff.mp hdrain
    obtain ⟨packet, hpacket, -⟩ := pushProto_spec hpush
    have hget := packet?_eq_some_iff.mp hpacket
    change s.heap.get? q.ref = _ at hget
    rw [hdangling] at hget
    cases hget
  · obtain ⟨mmdvm, port, rfl⟩ := hidle s₁ hread
    refine ⟨hs.drain hdrain rfl fun _ _ => rfl, ?_⟩
    rw [hs.rxq h] at hdrain
    cases hdrain
    exact ⟨rfl, rfl⟩

/-- Which protocol a descriptor belongs to, if it belongs to one. -/
theorem fd_cases (setup : BridgeSetup) (fd : Nat) :
    (∃ h proto, setup.protos[h]? = some proto ∧ setup.fd h = fd) ∨
      ∀ h < setup.protos.length, setup.fd h ≠ fd := by
  by_cases hfd : ∃ h < setup.protos.length, setup.fd h = fd
  · obtain ⟨h, hlt, hfd⟩ := hfd
    exact .inl ⟨h, setup.protos[h], List.getElem?_eq_getElem hlt, hfd⟩
  · exact .inr fun h hlt hh => hfd ⟨h, hlt, hh⟩

/-- Every event leaves the queues empty. -/
theorem Idle.step {s s' : Noisebridge} (hs : s.Idle setup) {e : BridgeEvent}
    (hstep : s.step setup e = some s') : s'.Idle setup := by
  cases e with
  | timers now input =>
    obtain ⟨hregistered, hrxq, -⟩ := timers_spec hs.registered hstep
    exact ⟨hregistered, fun h => by rw [hrxq]; exact hs.rxq h⟩
  | readable fd input =>
    obtain ⟨h, proto, hproto, rfl⟩ | hnone := fd_cases setup fd
    · by_cases htype : proto.type = DMR_PROTOCOL_HOMEBREW
      · exact (homebrew_dispatch hs hproto htype hstep).1
      · exact (mmdvm_dispatch hs hproto htype hstep).1
    · rw [readable_other hs.registered hnone] at hstep
      cases hstep
      exact hs

end Noisebridge

/-! ## Runs -/

/-- The packet of the datagram that a dispatch receives on socket `h`, if it receives one that is
53 bytes long and begins with a D. -/
def BridgeEvent.frame (setup : BridgeSetup) (h : Nat) : BridgeEvent → Option DmrParsedPacket
  | .readable fd input =>
    if fd = setup.fd h then (input 0).recv.bind (dmrdPacket setup.common (input 0).env) else none
  | .timers .. => none

/-- Dispatches on socket `h` find memory for the reader's pointer and buffer, for the packet, and
for its place in the queue. -/
def BridgeEvent.HasMemory (setup : BridgeSetup) (h : Nat) : BridgeEvent → Prop
  | .readable fd input => fd = setup.fd h → (input 0).allocated = true ∧
      (input 0).env.received = true ∧ (input 0).env.allocated = true ∧ (input 0).queued = true
  | .timers .. => True

namespace Noisebridge

variable {setup : BridgeSetup}

/-- The packets that were pushed with protocol `h` as their source. -/
def pushedFrom (s : Noisebridge) (h : Nat) : List DmrParsedPacket :=
  s.pushed.filterMap fun p => if p.1 = h then some p.2 else none

theorem step_pushedFrom {s s' : Noisebridge} (hs : s.Idle setup) {proto : Proto} {h : Nat}
    (hproto : setup.protos[h]? = some proto) (htype : proto.type = DMR_PROTOCOL_HOMEBREW)
    {e : BridgeEvent} (hmem : e.HasMemory setup h) (hstep : s.step setup e = some s') :
    s'.pushedFrom h = s.pushedFrom h ++ (e.frame setup h).toList := by
  obtain ⟨hlt, -⟩ := List.getElem?_eq_some_iff.mp hproto
  cases e with
  | timers now input =>
    obtain ⟨-, -, hpushed, -⟩ := timers_spec hs.registered hstep
    rw [pushedFrom, hpushed]
    exact (List.append_nil _).symm
  | readable fd input =>
    -- what another protocol does leaves the record of this one alone
    have hother : fd ≠ setup.fd h → s'.pushedFrom h = s.pushedFrom h →
        s'.pushedFrom h = s.pushedFrom h ++
          (BridgeEvent.frame setup h (.readable fd input)).toList := by
      intro hne hsame
      rw [hsame, BridgeEvent.frame, if_neg hne]
      exact (List.append_nil _).symm
    obtain ⟨h', proto', hproto', rfl⟩ | hnone := fd_cases setup fd
    · obtain ⟨hlt', -⟩ := List.getElem?_eq_some_iff.mp hproto'
      by_cases hh : h' = h
      · subst hh
        cases hproto.symm.trans hproto'
        obtain ⟨-, hpushed, -⟩ := homebrew_dispatch hs hproto htype hstep
        obtain ⟨halloc, hreceived, -, hqueued⟩ := hmem rfl
        have hpacket : (input 0).packet setup.common =
            (BridgeEvent.readable (setup.fd h') input).frame setup h' := by
          rw [CallbackInput.packet, if_pos ⟨halloc, hreceived, hqueued⟩, BridgeEvent.frame,
            if_pos rfl]
        rw [pushedFrom, hpushed, hpacket, List.filterMap_append]
        cases (BridgeEvent.readable (setup.fd h') input).frame setup h' with
        | none => rfl
        | some packet => simp [pushedFrom]
      · have hne : setup.fd h' ≠ setup.fd h := fun hfd =>
          hh (setup.fd_inj _ hlt' _ hlt hfd)
        refine hother hne ?_
        by_cases htype' : proto'.type = DMR_PROTOCOL_HOMEBREW
        · obtain ⟨-, hpushed, -⟩ := homebrew_dispatch hs hproto' htype' hstep
          rw [pushedFrom, hpushed, List.filterMap_append]
          cases (input 0).packet setup.common with
          | none => exact List.append_nil _
          | some packet => simp [pushedFrom, hh]
        · obtain ⟨-, hpushed, -⟩ := mmdvm_dispatch hs hproto' htype' hstep
          rw [pushedFrom, hpushed, pushedFrom]
    · refine hother (fun hfd => hnone h hlt hfd.symm) ?_
      rw [readable_other hs.registered hnone] at hstep
      cases hstep
      rfl

theorem after_pushedFrom {proto : Proto} {h : Nat} (hproto : setup.protos[h]? = some proto)
    (htype : proto.type = DMR_PROTOCOL_HOMEBREW) {events : List BridgeEvent} {s s' : Noisebridge}
    (hs : s.Idle setup) (hmem : ∀ e ∈ events, e.HasMemory setup h)
    (hrun : after (step setup) s events = some s') :
    s'.Idle setup ∧
      s'.pushedFrom h = s.pushedFrom h ++ events.filterMap (BridgeEvent.frame setup h) := by
  induction events generalizing s with
  | nil =>
    cases hrun
    exact ⟨hs, (List.append_nil _).symm⟩
  | cons e events ih =>
    obtain ⟨he, hmem⟩ := List.forall_mem_cons.mp hmem
    obtain ⟨s₁, hstep, hrun⟩ := Option.bind_eq_some_iff.mp hrun
    obtain ⟨hidle, hpushed⟩ := ih (hs.step hstep) hmem hrun
    refine ⟨hidle, ?_⟩
    rw [hpushed, step_pushedFrom hs hproto htype he hstep, List.append_assoc, List.filterMap_cons]
    cases e.frame setup h <;> rfl

/-- **Delivery.** After any run of dispatches, with memory for what socket `h` receives, the queue
of its client is empty, and what was pushed with the client as the source are the DMRD frames that
were received, each once and in order. Every dispatch on the socket calls the reader and then the
poll. -/
theorem homebrew_delivers {proto : Proto} {h : Nat} (hproto : setup.protos[h]? = some proto)
    (htype : proto.type = DMR_PROTOCOL_HOMEBREW) (now : Timeval) (homebrew : Nat → DmrHomebrew)
    (mmdvm : Nat → DmrMmdvm) {events : List BridgeEvent}
    (hmem : ∀ e ∈ events, e.HasMemory setup h) {s : Noisebridge}
    (hrun : after (step setup) (start setup now homebrew mmdvm) events = some s) :
    s.rxq h = [] ∧ s.pushedFrom h = events.filterMap (BridgeEvent.frame setup h) ∧
      ∀ input, s.step setup (.readable (setup.fd h) input) =
        (s.homebrewIoReadable setup h (input 0).toCallbackInput).bind fun s =>
          s.pollProtoHomebrew setup h (setup.fd h) (input 1).push := by
  obtain ⟨hidle, hpushed⟩ :=
    after_pushedFrom hproto htype (idle_start now homebrew mmdvm) hmem hrun
  refine ⟨hidle.rxq h, hpushed, fun input => ?_⟩
  rw [readable_proto hidle.registered hproto, BridgeSetup.readerOf, if_pos htype,
    BridgeSetup.pollOf, if_pos htype]
  rfl

/-! ## A small bridge -/

/-- A bridge of these protocols, on the descriptors from 5 on. -/
def smallSetup (protos : List Proto) (htype : ∀ proto ∈ protos,
    proto.type = DMR_PROTOCOL_HOMEBREW ∨ proto.type = DMR_PROTOCOL_MMDVM) : BridgeSetup where
  timeout := 180
  protos := protos
  fd := fun h => h + 5
  model := fun _ => .g4klx
  conv := ⟨fun _ => none, fun _ => none, fun _ => "", fun _ => ""⟩
  common := ⟨id, fun _ => .replicate 32 0, fun bytes => readUint bytes.toList,
    fun bytes => readUint bytes.toList, fun _ _ => [], [], [], []⟩
  allocator := .above
  type_eq := htype
  fd_inj := fun _ _ _ _ hfd => Nat.add_right_cancel hfd

/-- Two clients. -/
def pairSetup : BridgeSetup :=
  smallSetup [⟨"master", DMR_PROTOCOL_HOMEBREW⟩, ⟨"peer", DMR_PROTOCOL_HOMEBREW⟩] (by decide)

/-- Its clients and modems have not done anything yet. -/
def smallStart (setup : BridgeSetup) : Noisebridge :=
  start setup ⟨0, 0⟩ (fun _ => .new ⟨none, 2042214, 4385, 4310, 25, 1, 0, 0, 0, none, none, none,
    none, none⟩) fun _ => .new

/-- What a callback finds that receives this, with memory for everything, a script that returns
nothing, and sockets that send. -/
def smallInput (recv : Option (List UInt8)) (arrived : List SerialRead) : BridgeInput where
  env := .sending (fun _ => ⟨0, 0⟩) true
  allocated := true
  queued := true
  recv := recv
  value := 0
  serial := ⟨fun _ => 0, true⟩
  arrived := arrived
  push := fun _ =>
    ⟨⟨true, fun _ => true, fun _ _ => .ok .nil⟩, fun _ => .sending (fun _ => ⟨0, 0⟩) true⟩
  now := fun _ => ⟨0, 0⟩

/-- The first of two clients receives a frame. -/
def frameEvent : BridgeEvent :=
  .readable 5 fun _ => smallInput (some (DMRD ++ List.replicate 49 1)) []

/-- The frame is relayed to the second one. -/
theorem homebrew_delivers_pair :
    ∃ s, after (step pairSetup) (smallStart pairSetup) [frameEvent] = some s ∧ s.rxq 0 = [] ∧
      (s.pushedFrom 0).length = 1 := by
  have hsome : (after (step pairSetup) (smallStart pairSetup) [frameEvent]).isSome = true := by
    decide +kernel
  obtain ⟨s, hs⟩ := Option.isSome_iff_exists.mp hsome
  have hmem : ∀ e ∈ [frameEvent], e.HasMemory pairSetup 0 := by
    intro e he
    obtain rfl := List.mem_singleton.mp he
    exact fun _ => ⟨rfl, rfl, rfl, rfl⟩
  obtain ⟨hrxq, hpushed, -⟩ := @homebrew_delivers pairSetup _ 0 rfl rfl _ _ _ _ hmem s hs
  refine ⟨s, hs, hrxq, ?_⟩
  rw [hpushed]
  decide +kernel

end Noisebridge

end Dmrlib
