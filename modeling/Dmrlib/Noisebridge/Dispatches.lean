import Dmrlib.Noisebridge.Bridge

/-!
# Dispatches of the bridge

What one dispatch does. `readers_of_proto`: the list of readers has two entries for the
descriptor of a protocol, its reader in front of the poll, since each registration goes to the
head of the list. `readable_proto`: a dispatch calls these two, in this order. `drain_spec`: a poll
takes everything out of its queue and pushes it.

Nothing that a packet sets off frees an object that was there before (`Kept`).

- `Registered`: the readers are those that `init_repeater` has registered.
- `Kept`: what the work of relaying leaves alone.
- `readers_of_proto`, `readable_proto`: the dispatch of a protocol's descriptor.
- `pushProto_refines`: to slots, verdicts and stack, pushing does what `Dmrlib.pushProto` does.
- `drain_spec`: a poll with a queue of any length.
- `timers_spec`: a dispatch of the timers pushes nothing.
-/

namespace Dmrlib

open Lua Run

/-! ## The list of readers

Each protocol has registered two readers, the poll first; new entries go to the front.
-/

/-- A call that deregisters nothing. -/
def IoOp.Registers {κ υ : Type} : IoOp κ υ → Prop
  | .delRead .. | .delWrite .. | .delError .. | .delTimer .. => False
  | _ => True

/-- What a call puts on the list of readers. -/
def IoOp.reader {κ υ : Type} : IoOp κ υ → Option (DmrIoEntry κ υ)
  | .regRead fd cb userdata once true => some ⟨fd, cb, userdata, once⟩
  | _ => none

/-- The readers, first to last. -/
def DmrIoRegistry.readers {κ υ : Type} (io : DmrIoRegistry κ υ) : List (DmrIoEntry κ υ) :=
  (io.entry .read).cells.map Prod.snd

theorem readers_run {κ υ : Type} [DecidableEq κ] {op : IoOp κ υ} (hop : op.Registers)
    (io : DmrIoRegistry κ υ) : (op.run io).readers = op.reader.toList ++ io.readers := by
  cases op with
  | delRead | delWrite | delError | delTimer => exact hop.elim
  | regRead fd cb userdata once allocated => cases allocated <;> rfl
  | regSignal sig cb userdata once allocated => cases allocated <;> rfl
  | regWrite fd cb userdata once allocated => cases allocated <;> rfl
  | regError fd cb userdata once allocated => cases allocated <;> rfl
  | regTimer timeout cb userdata once allocated => cases allocated <;> rfl

/-- Readers stand on the list last registered first. -/
theorem readers_foldl {κ υ : Type} [DecidableEq κ] {ops : List (IoOp κ υ)}
    (hops : ∀ op ∈ ops, op.Registers) (io : DmrIoRegistry κ υ) :
    (ops.foldl IoOp.run io).readers = (ops.filterMap IoOp.reader).reverse ++ io.readers := by
  induction ops generalizing io with
  | nil => rfl
  | cons op ops ih =>
    obtain ⟨hop, hops⟩ := List.forall_mem_cons.mp hops
    rw [List.foldl_cons, ih hops, readers_run hop, List.filterMap_cons]
    cases op.reader with
    | none => rfl
    | some e => simp

/-- Timers are no readers. -/
theorem entry_slotTimerOps (config : RepeaterConfig) (allocated : Bool) (old new : SlotState)
    (io : DmrIoRegistry BridgeCallback Nat) :
    ((slotTimerOps config allocated old new).foldl IoOp.run io).entry = io.entry := by
  unfold slotTimerOps
  split
  · cases allocated <;> rfl
  · split
    · show (io.dmrIoDelTimer .slotTimer).2.entry = io.entry
      unfold DmrIoRegistry.dmrIoDelTimer
      split <;> rfl
    · rfl

/-- The timers of the loop are those of the slots and of the clients. -/
def BridgeTimers (io : DmrIoRegistry BridgeCallback Nat) : Prop :=
  ∀ c ∈ io.timer.cells, c.2.cb = .slotTimer ∨ c.2.cb = .homebrewIo .pingTimer

theorem BridgeTimers.delTimer {io : DmrIoRegistry BridgeCallback Nat} (h : BridgeTimers io)
    (cb : BridgeCallback) : BridgeTimers (io.dmrIoDelTimer cb).2 := by
  unfold DmrIoRegistry.dmrIoDelTimer
  split
  · exact fun c hc => h c (NodeList.mem_remove.mp hc).1
  · exact h

theorem BridgeTimers.regTimer {io : DmrIoRegistry BridgeCallback Nat} (h : BridgeTimers io)
    {cb : BridgeCallback} (hcb : cb = .slotTimer ∨ cb = .homebrewIo .pingTimer)
    (timeout : Timeval) (userdata : Nat) (once allocated : Bool) :
    BridgeTimers (io.dmrIoRegTimer timeout cb userdata once allocated).2 := by
  unfold DmrIoRegistry.dmrIoRegTimer
  split
  · intro c hc
    obtain rfl | hc := List.mem_cons.mp hc
    · exact hcb
    · exact h c hc
  · exact h

theorem BridgeTimers.slotTimerOps {io : DmrIoRegistry BridgeCallback Nat} (h : BridgeTimers io)
    (config : RepeaterConfig) (allocated : Bool) (old new : SlotState) :
    BridgeTimers ((Dmrlib.slotTimerOps config allocated old new).foldl IoOp.run io) := by
  unfold Dmrlib.slotTimerOps
  split
  · exact h.regTimer (.inl rfl) _ _ _ _
  · split
    · exact h.delTimer _
    · exact h

/-- One element of a list without repetitions decides, where the others contribute nothing. -/
theorem flatMap_eq_of_mem {α β : Type} {l : List α} {g : α → List β} {a : α} (hnodup : l.Nodup)
    (ha : a ∈ l) (hg : ∀ b ∈ l, b ≠ a → g b = []) : l.flatMap g = g a := by
  induction l with
  | nil => cases ha
  | cons b l ih =>
    rw [List.nodup_cons] at hnodup
    rw [List.flatMap_cons]
    obtain rfl | ha := List.mem_cons.mp ha
    · have hrest : l.flatMap g = [] := by
        refine List.flatMap_eq_nil_iff.mpr fun c hc => hg c (List.mem_cons_of_mem _ hc) ?_
        rintro rfl
        exact hnodup.1 hc
      rw [hrest, List.append_nil]
    · have hne : b ≠ a := by
        rintro rfl
        exact hnodup.1 ha
      rw [hg b List.mem_cons_self hne, List.nil_append,
        ih hnodup.2 ha fun c hc => hg c (List.mem_cons_of_mem _ hc)]

/-- A loop whose rounds change nothing changes nothing. -/
theorem foldlM_eq_some {α σ : Type} {l : List α} {f : σ → α → Option σ}
    (hf : ∀ a ∈ l, ∀ s, f s a = some s) (s : σ) : l.foldlM f s = some s := by
  induction l with
  | nil => rfl
  | cons a l ih =>
    rw [List.foldlM_cons, hf a List.mem_cons_self]
    exact ih fun b hb => hf b (List.mem_cons_of_mem _ hb)

/-- One element of a list without repetitions decides what a loop does, where the rounds of the
others change nothing. -/
theorem foldlM_eq_of_mem {α σ : Type} {l : List α} {f : σ → α → Option σ} {a : α}
    (hnodup : l.Nodup) (ha : a ∈ l) (hf : ∀ b ∈ l, b ≠ a → ∀ s, f s b = some s) (s : σ) :
    l.foldlM f s = f s a := by
  -- the elements before `a` and behind it leave the state alone
  induction l generalizing s with
  | nil => cases ha
  | cons b l ih =>
    rw [List.nodup_cons] at hnodup
    rw [List.foldlM_cons]
    obtain rfl | ha := List.mem_cons.mp ha
    · have hrest : ∀ s', l.foldlM f s' = some s' := by
        refine fun s' => foldlM_eq_some (fun c hc => hf c (List.mem_cons_of_mem _ hc) ?_) s'
        rintro rfl
        exact hnodup.1 hc
      show (f s a).bind (fun s' => l.foldlM f s') = f s a
      rw [funext hrest]
      exact Option.bind_fun_some _
    · have hne : b ≠ a := by
        rintro rfl
        exact hnodup.1 ha
      rw [hf b List.mem_cons_self hne]
      exact ih hnodup.2 ha (fun c hc => hf c (List.mem_cons_of_mem _ hc)) s

namespace BridgeSetup

variable {setup : BridgeSetup}

theorem nodup_zipIdx {α : Type} (l : List α) : l.zipIdx.Nodup :=
  (List.nodup_zipIdx_map_snd l).of_map Prod.snd

/-- Protocols are known by their descriptors. -/
theorem proto_of_fd {h h' : Nat} {proto proto' : Proto} (hproto : setup.protos[h]? = some proto)
    (hproto' : setup.protos[h']? = some proto') (hfd : setup.fd h = setup.fd h') :
    h = h' ∧ proto = proto' := by
  obtain ⟨hlt, -⟩ := List.getElem?_eq_some_iff.mp hproto
  obtain ⟨hlt', -⟩ := List.getElem?_eq_some_iff.mp hproto'
  obtain rfl : h = h' := setup.fd_inj _ hlt _ hlt' hfd
  exact ⟨rfl, Option.some.inj (hproto.symm.trans hproto')⟩

theorem eq_of_fd {p p' : Proto × Nat} (hp : p ∈ setup.protos.zipIdx)
    (hp' : p' ∈ setup.protos.zipIdx) (hfd : setup.fd p.2 = setup.fd p'.2) : p = p' := by
  rw [List.mem_zipIdx_iff_getElem?] at hp hp'
  obtain ⟨hidx, hproto⟩ := proto_of_fd hp hp' hfd
  exact Prod.ext hproto hidx

/-- The callbacks of a protocol that read: the poll, and its own reader. -/
def pollOf (proto : Proto) : BridgeCallback :=
  if proto.type = DMR_PROTOCOL_HOMEBREW then .pollProtoHomebrew else .pollProtoMmdvm

def readerOf (proto : Proto) : BridgeCallback :=
  if proto.type = DMR_PROTOCOL_HOMEBREW then .homebrewIo .readable else .mmdvmIoReadable

theorem initProto_registers (p : Proto × Nat) : ∀ op ∈ setup.initProto p, op.Registers := by
  obtain ⟨proto, i⟩ := p
  rw [initProto]
  split
  · simp [initProtoHomebrew, homebrewIoRegister, IoOp.map, IoOp.Registers]
  · simp [initProtoMmdvm, IoOp.Registers]

theorem reader_initProto (p : Proto × Nat) :
    (setup.initProto p).filterMap IoOp.reader =
      [⟨setup.fd p.2, pollOf p.1, p.2, false⟩, ⟨setup.fd p.2, readerOf p.1, p.2, false⟩] := by
  unfold initProto pollOf readerOf
  by_cases htype : p.1.type = DMR_PROTOCOL_HOMEBREW
  · simp only [if_pos htype]
    rfl
  · simp only [if_neg htype]
    rfl

theorem readers_initRepeater (now : Timeval) :
    (setup.initRepeater now).readers =
      (setup.protos.zipIdx.flatMap fun p =>
        [(⟨setup.fd p.2, pollOf p.1, p.2, false⟩ : DmrIoEntry BridgeCallback Nat),
          ⟨setup.fd p.2, readerOf p.1, p.2, false⟩]).reverse := by
  have hregisters : ∀ op ∈ (.regSignal 2 .stopRepeater 0 true true ::
      setup.protos.zipIdx.flatMap setup.initProto : List (IoOp BridgeCallback Nat)),
      op.Registers := by
    intro op hop
    obtain rfl | hop := List.mem_cons.mp hop
    · trivial
    · obtain ⟨p, -, hop⟩ := List.mem_flatMap.mp hop
      exact initProto_registers p op hop
  unfold initRepeater
  rw [readers_foldl hregisters, List.filterMap_cons, List.filterMap_flatMap]
  simp only [reader_initProto]
  exact List.append_nil _

theorem bridgeTimers_initRepeater (now : Timeval) : BridgeTimers (setup.initRepeater now) := by
  refine List.foldlRecOn (motive := BridgeTimers) _ _ (fun c hc => nomatch hc)
    fun io hio op hop => ?_
  obtain rfl | hop := List.mem_cons.mp hop
  · exact hio
  · obtain ⟨⟨proto, i⟩, -, hop⟩ := List.mem_flatMap.mp hop
    rw [initProto] at hop
    split at hop
    · simp only [initProtoHomebrew, homebrewIoRegister, List.map_cons, List.map_nil, IoOp.map,
        List.mem_cons, List.not_mem_nil, or_false] at hop
      obtain rfl | rfl | rfl | rfl := hop
      · exact hio
      · exact hio.regTimer (.inr rfl) _ _ _ _
      · exact hio
      · exact hio
    · simp only [initProtoMmdvm, List.mem_cons, List.not_mem_nil, or_false] at hop
      obtain rfl | rfl | rfl := hop <;> exact hio

/-- The reader of a protocol stands in front of its poll, and no one else listens to its
descriptor. -/
theorem readers_of_proto {proto : Proto} {h : Nat} (hproto : setup.protos[h]? = some proto)
    (now : Timeval) :
    (setup.initRepeater now).readers.filter (fun e => e.fd = setup.fd h) =
      [⟨setup.fd h, readerOf proto, h, false⟩, ⟨setup.fd h, pollOf proto, h, false⟩] := by
  have hmem : (proto, h) ∈ setup.protos.zipIdx := List.mem_zipIdx_iff_getElem?.mpr hproto
  rw [readers_initRepeater, List.filter_reverse, List.filter_flatMap,
    flatMap_eq_of_mem (nodup_zipIdx _) hmem]
  · simp
  · intro p hp hne
    have hfd : setup.fd p.2 ≠ setup.fd h := fun hfd => hne (eq_of_fd hp hmem hfd)
    simp [hfd]

/-- Other descriptors have no readers, and no reader is a one-shot. -/
theorem mem_readers {now : Timeval} {e : DmrIoEntry BridgeCallback Nat}
    (he : e ∈ (setup.initRepeater now).readers) :
    e.once = false ∧ ∃ h proto, setup.protos[h]? = some proto ∧ e.fd = setup.fd h := by
  rw [readers_initRepeater, List.mem_reverse, List.mem_flatMap] at he
  obtain ⟨p, hp, he⟩ := he
  rw [List.mem_zipIdx_iff_getElem?] at hp
  simp only [List.mem_cons, List.not_mem_nil, or_false] at he
  obtain rfl | rfl := he
  · exact ⟨rfl, p.2, p.1, hp, rfl⟩
  · exact ⟨rfl, p.2, p.1, hp, rfl⟩

end BridgeSetup

/-! ## What a push leaves alone

Slots, stack and timers may change, and objects are added. The readers, the queues and what was on
the heap stay.
-/

/-- Sending borrows its buffer. -/
theorem dmrHomebrewSendOnHeap_eq (A : Allocator) (env : HomebrewEnv) (homebrew : DmrHomebrew)
    (parsed : DmrParsedPacket) (heap : Heap Object) :
    dmrHomebrewSendOnHeap A env homebrew parsed heap =
      (dmrHomebrewSend env homebrew parsed).map fun r => (r, heap) := by
  unfold dmrHomebrewSendOnHeap
  simp only [Heap.free_alloc]
  cases dmrHomebrewSend env homebrew parsed <;> cases env.allocated <;> rfl

namespace Noisebridge

variable {setup : BridgeSetup}

/-- The readers and the timers of the bridge are those that it registered. -/
structure Registered (setup : BridgeSetup) (s : Noisebridge) : Prop where
  entry : ∃ now, s.io.entry .read = (setup.initRepeater now).entry .read
  timers : BridgeTimers s.io

/-- From `s` on nothing was freed, and the readers, the queues and the record stayed. -/
structure Kept (s s' : Noisebridge) : Prop where
  entry : s'.io.entry = s.io.entry
  timers : BridgeTimers s.io → BridgeTimers s'.io
  rxq : s'.rxq = s.rxq
  pushed : s'.pushed = s.pushed
  heap : s.heap.Extends s'.heap

theorem Kept.refl (s : Noisebridge) : Kept s s := ⟨rfl, id, rfl, rfl, .refl _⟩

theorem Kept.trans {s s' s'' : Noisebridge} (h₁ : Kept s s') (h₂ : Kept s' s'') : Kept s s'' :=
  ⟨h₂.entry.trans h₁.entry, h₂.timers ∘ h₁.timers, h₂.rxq.trans h₁.rxq,
    h₂.pushed.trans h₁.pushed, h₁.heap.trans h₂.heap⟩

theorem Kept.registered {s s' : Noisebridge} (h : Kept s s') (hs : s.Registered setup) :
    s'.Registered setup := by
  obtain ⟨⟨now, hentry⟩, htimers⟩ := hs
  exact ⟨⟨now, (congrFun h.entry _).trans hentry⟩, h.timers htimers⟩

theorem packet?_eq_some_iff {s : Noisebridge} {ref : Nat} {packet : DmrParsedPacket} :
    s.packet? ref = some packet ↔ s.heap.get? ref = some (.parsed packet) := by
  unfold packet?
  constructor
  · intro h
    split at h
    · next hget =>
      cases h
      exact hget
    · cases h
  · intro h
    rw [h]

theorem Kept.packet? {s s' : Noisebridge} (h : Kept s s') {ref : Nat} {packet : DmrParsedPacket}
    (hpacket : s.packet? ref = some packet) : s'.packet? ref = some packet := by
  rw [packet?_eq_some_iff] at hpacket ⊢
  exact h.heap _ _ hpacket

/-- A send touches no object but the clone, which is not one of `heap`. -/
theorem send_spec {env : PushInput} {policy : RoutePolicy} {dst : Proto} {i cloned : Nat}
    {s s' : Noisebridge} {heap : Heap Object} (hfresh : heap.get? cloned = none)
    (hext : heap.Extends s.heap) (h : s.send setup env policy dst i cloned = some s') :
    ∃ heap', s' = { s with heap := heap' } ∧ heap.Extends heap' := by
  unfold send at h
  simp only [dmrHomebrewSendOnHeap_eq, bind, pure] at h
  split at h
  · cases h
    exact ⟨s.heap, rfl, hext⟩
  split at h
  · simp only [Option.bind_eq_some_iff, Option.map_eq_some_iff] at h
    obtain ⟨packet, -, _, ⟨r, -, rfl⟩, hs'⟩ := h
    cases hs'
    exact ⟨s.heap, rfl, hext⟩
  split at h
  · obtain ⟨packet, -, hs'⟩ := Option.bind_eq_some_iff.mp h
    cases hs'
    exact ⟨_, rfl, hext.set hfresh _⟩
  · cases h
    exact ⟨s.heap, rfl, hext⟩

/-- One destination: `relay` is what `Dmrlib.relay` says, and it keeps what there is. -/
theorem relay_spec {env : PushInput} {src : Nat} {srcProto : Proto} {parsed : Nat}
    {packet : DmrParsedPacket} {dsts : List (Proto × Nat)} {s s' : Noisebridge} {ret : Int}
    (hpacket : s.packet? parsed = some packet)
    (h : s.relay setup env src srcProto parsed dsts = some (ret, s')) :
    Kept s s' ∧ s'.ts = s.ts ∧ s'.io = s.io ∧
      (Dmrlib.relay setup.conv env.toPushEnv src srcProto packet dsts s.stack).ret = some ret ∧
      (Dmrlib.relay setup.conv env.toPushEnv src srcProto packet dsts s.stack).stack =
        s'.stack := by
  induction dsts generalizing s with
  | nil =>
    cases h
    exact ⟨.refl _, rfl, rfl, rfl, rfl⟩
  | cons d rest ih =>
    obtain ⟨dst, i⟩ := d
    rw [relay] at h
    rw [Dmrlib.relay]
    split at h
    · next hsrc =>
      rw [if_pos hsrc]
      exact ih hpacket h
    · next hsrc =>
      rw [if_neg hsrc]
      split at h
      · next hcloned =>
        rw [if_pos hcloned]
        simp only [bind, Option.bind_eq_some_iff, hpacket, Option.some.injEq] at h
        obtain ⟨_, rfl, outcome, houtcome, s₂, hs₂, h⟩ := h
        rw [houtcome]
        -- the clone is a new object, and so is what is written to it
        have hfresh := Heap.get?_alloc_fresh setup.allocator s.heap (.parsed packet)
        have hext := (Heap.extends_alloc setup.allocator s.heap (.parsed packet)).set hfresh
          (.parsed outcome.parsed)
        obtain ⟨heap, rfl, hheap⟩ := send_spec hfresh hext hs₂
        have hkept : Kept s { s with stack := outcome.stack, heap } := ⟨rfl, id, rfl, rfl, hheap⟩
        obtain ⟨hkept', hts, hio, hret, hstack⟩ := ih (hkept.packet? hpacket) h
        exact ⟨hkept.trans hkept', hts, hio, hret, hstack⟩
      · next hcloned =>
        rw [if_neg hcloned]
        cases h
        exact ⟨.refl _, rfl, rfl, rfl, rfl⟩

/-! ## A push is what `Dmrlib.pushProto` says -/

theorem repeaterIo_delTimer (io : DmrIoRegistry BridgeCallback Nat) :
    (io.dmrIoDelTimer .slotTimer).2.repeaterIo = (dmrIoDelTimer io.repeaterIo .slotTimer).2 := by
  have hcells : (io.dmrIoDelTimer .slotTimer).2.timer.cells =
      io.timer.cells.eraseP fun c => decide (c.2.cb = .slotTimer) := by
    unfold DmrIoRegistry.dmrIoDelTimer
    cases hfind : io.timer.find? fun t => decide (t.cb = .slotTimer) with
    | none => exact (NodeList.eraseP_of_find?_none hfind).symm
    | some a => exact (NodeList.eraseP_of_find?_some hfind).symm
  have hwallclock : (io.dmrIoDelTimer .slotTimer).2.wallclock = io.wallclock := by
    unfold DmrIoRegistry.dmrIoDelTimer
    split <;> rfl
  unfold DmrIoRegistry.repeaterIo dmrIoDelTimer
  rw [hcells, hwallclock, List.eraseP_filterMap]
  -- a timer of the slots is one on either side
  refine congrArg (fun p => DmrIo.mk _ (List.filterMap _ (List.eraseP p _))) (funext fun c => ?_)
  obtain ⟨a, ⟨timeout, wallclock, cb, once⟩, userdata⟩ := c
  cases cb with
  | homebrewIo cb => cases cb <;> rfl
  | _ => rfl

/-- A slot that takes up a call. -/
theorem repeaterIo_takeUp {config : RepeaterConfig} {allocated : Bool} {t : Fin 2}
    {state : SlotState} {parsed : DmrParsedPacket} {ts : Fin 2 → RepeaterSlot}
    {io : DmrIoRegistry BridgeCallback Nat} (hidle : (ts t).state = .idle)
    (hstate : state ≠ .idle) :
    ((slotTimerOps config allocated (ts t).state
      (((newIoTimer config allocated (takeUp t state parsed ⟨ts, io.repeaterIo⟩)).setState t
        state).ts t).state).foldl IoOp.run io).repeaterIo =
      ((newIoTimer config allocated (takeUp t state parsed ⟨ts, io.repeaterIo⟩)).setState t
        state).io := by
  have hnew : (((newIoTimer config allocated (takeUp t state parsed ⟨ts, io.repeaterIo⟩)).setState t
      state).ts t).state = state := by simp [Repeater.setState]
  rw [hnew, slotTimerOps, if_pos ⟨hidle, hstate⟩]
  cases allocated <;> rfl

/-- A slot whose call ends. -/
theorem repeaterIo_endCall {config : RepeaterConfig} {allocated : Bool} {t : Fin 2}
    {ts : Fin 2 → RepeaterSlot} {io : DmrIoRegistry BridgeCallback Nat}
    (hlive : (ts t).state ≠ .idle) :
    ((slotTimerOps config allocated (ts t).state
      ((endCall t true ⟨ts, io.repeaterIo⟩).ts t).state).foldl IoOp.run io).repeaterIo =
      (endCall t true ⟨ts, io.repeaterIo⟩).io := by
  have hends : ((endCall t true ⟨ts, io.repeaterIo⟩).ts t).state = .idle := by
    simp [endCall, Repeater.setState]
  rw [hends, slotTimerOps, if_neg fun hx => hlive hx.1, if_pos ⟨hlive, rfl⟩]
  exact repeaterIo_delTimer io

/-- A push does the same to the timers of the loop as to those of `Repeater`. -/
theorem repeaterIo_slotTimerOps {config : RepeaterConfig} {allocated : Bool} {t : Fin 2}
    {parsed : DmrParsedPacket} {ts : Fin 2 → RepeaterSlot}
    {io : DmrIoRegistry BridgeCallback Nat} {r : Repeater}
    (h : pushSlot config allocated t parsed ⟨ts, io.repeaterIo⟩ = some r) :
    ((slotTimerOps config allocated (ts t).state (r.ts t).state).foldl IoOp.run io).repeaterIo =
      r.io := by
  unfold pushSlot at h
  split at h
  -- a slot that was idle takes up a call, or stays idle
  · next hidle =>
    split at h
    · cases h
      rw [newVoiceCall_takeUp]
      exact repeaterIo_takeUp hidle (by decide)
    · split at h
      · cases h
        rw [newDataCall_takeUp]
        exact repeaterIo_takeUp hidle (by decide)
      · cases h
        rw [slotTimerOps, if_neg fun hx => hx.2 hx.1, if_neg fun hx => hx.1 hx.2]
        rfl
  -- one that was in a call stays in it, or ends it
  all_goals
    next hstate =>
      split at h
      · cases h
      · split at h
        · cases h
          refine repeaterIo_endCall ?_
          rw [show (ts t).state = _ from hstate]
          decide
        · cases h
          rw [slotTimerOps, if_neg fun hx => hx.2 hx.1, if_neg fun hx => hx.1 hx.2]
          rfl

/-- **Pushing.** The slots, their timers, the verdicts of the script and its stack are those of
`Dmrlib.pushProto`. -/
theorem pushProto_refines {env : PushInput} {src : Fin setup.protos.length} {parsed : Nat}
    {s s' : Noisebridge} (h : s.pushProto setup env src setup.protos[src] parsed = some s') :
    ∃ packet t, s.packet? parsed = some packet ∧ slotOf packet.ts = some t ∧
      (Dmrlib.pushProto setup.toRepeaterConfig setup.conv env.toPushEnv src t packet
        ⟨s.repeater, s.stack⟩).1 = s'.repeater ∧
      (Dmrlib.pushProto setup.toRepeaterConfig setup.conv env.toPushEnv src t packet
        ⟨s.repeater, s.stack⟩).2.ret.isSome = true ∧
      (Dmrlib.pushProto setup.toRepeaterConfig setup.conv env.toPushEnv src t packet
        ⟨s.repeater, s.stack⟩).2.stack = s'.stack := by
  unfold pushProto at h
  simp only [bind, Option.bind_eq_some_iff] at h
  obtain ⟨packet, hpacket, t, ht, h⟩ := h
  refine ⟨packet, t, hpacket, ht, ?_⟩
  unfold Dmrlib.pushProto
  -- the packet is refused, or it moves the slot and is relayed
  split at h
  · next hpush =>
    cases h
    have hpush : pushSlot setup.toRepeaterConfig env.timerAllocated t packet s.repeater = none :=
      hpush
    rw [hpush]
    exact ⟨rfl, rfl, rfl⟩
  · next r hpush =>
    have hpush : pushSlot setup.toRepeaterConfig env.timerAllocated t packet s.repeater = some r :=
      hpush
    obtain ⟨⟨ret, s₁⟩, hrelay, hs'⟩ := Option.bind_eq_some_iff.mp h
    cases hs'
    obtain ⟨-, hts, hio, hret, hstack⟩ := relay_spec (by exact hpacket) hrelay
    rw [hpush]
    refine ⟨?_, by rw [hret]; rfl, hstack⟩
    show r = s₁.repeater
    rw [repeater, hts, hio, repeaterIo_slotTimerOps hpush]

/-- What a push keeps. -/
theorem pushProto_spec {env : PushInput} {src : Nat} {srcProto : Proto} {parsed : Nat}
    {s s' : Noisebridge} (h : s.pushProto setup env src srcProto parsed = some s') :
    ∃ packet, s.packet? parsed = some packet ∧
      Kept { s with pushed := s.pushed ++ [(src, packet)] } s' := by
  unfold pushProto at h
  simp only [bind, Option.bind_eq_some_iff] at h
  obtain ⟨packet, hpacket, t, ht, h⟩ := h
  refine ⟨packet, hpacket, ?_⟩
  split at h
  · cases h
    exact .refl _
  · next r hpush =>
    obtain ⟨⟨ret, s₁⟩, hrelay, hs'⟩ := Option.bind_eq_some_iff.mp h
    cases hs'
    have hkept := (relay_spec (by exact hpacket) hrelay).1
    exact ⟨hkept.entry.trans (entry_slotTimerOps _ _ _ _ _),
      fun htimers => hkept.timers (htimers.slotTimerOps _ _ _ _), hkept.rxq, hkept.pushed,
      hkept.heap⟩

/-- A queued packet is where the reader stored it. -/
def Alive (s : Noisebridge) (q : Queued) : Prop := s.packet? q.ref = some q.parsed

/-- What a poll keeps: it takes everything out of its queue and pushes it. -/
theorem drain_spec {h src : Nat} {srcProto : Proto} {queue : List Queued}
    {push : Nat → PushInput} {s s' : Noisebridge} (hqueue : s.rxq h = queue)
    (hdrain : s.drain setup h src srcProto queue push = some s') :
    ∃ packets, Kept { s with
        rxq := Function.update s.rxq h []
        pushed := s.pushed ++ packets.map (Prod.mk src) } s' ∧
      ((∀ q ∈ queue, s.Alive q) → packets = queue.map Queued.parsed) := by
  -- the queue is taken from the front, and what is pushed is recorded in this order
  induction queue generalizing push s with
  | nil =>
    cases hdrain
    refine ⟨[], ?_, fun _ => rfl⟩
    rw [List.map_nil, List.append_nil, ← hqueue, Function.update_eq_self]
    exact .refl _
  | cons q rest ih =>
    obtain ⟨s₁, hpush, hdrain⟩ := Option.bind_eq_some_iff.mp hdrain
    obtain ⟨packet, hpacket, hkept⟩ := pushProto_spec hpush
    have hrest : s₁.rxq h = rest := by
      rw [hkept.rxq]
      exact Function.update_self ..
    obtain ⟨packets, hkept', hparsed⟩ := ih hrest hdrain
    refine ⟨packet :: packets, ⟨?_, ?_, ?_, ?_, ?_⟩, fun halive => ?_⟩
    · exact hkept'.entry.trans hkept.entry
    · exact fun htimers => hkept'.timers (hkept.timers htimers)
    · rw [hkept'.rxq, hkept.rxq]
      exact Function.update_idem ..
    · rw [hkept'.pushed, hkept.pushed]
      exact List.append_assoc ..
    · exact hkept.heap.trans hkept'.heap
    -- a packet that is alive is the one that was queued
    · obtain ⟨hq, hrest⟩ := List.forall_mem_cons.mp halive
      have hpacket' : packet = q.parsed := Option.some.inj (hpacket.symm.trans hq)
      rw [hpacket', hparsed fun q' hq' => hkept.packet? (hrest q' hq')]
      rfl

/-! ## A dispatch

The reader of a protocol and then its poll, each with its own input.
-/

/-- The polls of both kinds. -/
theorem pollProto_eq {proto : Proto} {h : Nat} (hproto : setup.protos[h]? = some proto)
    (push : Nat → PushInput) (s : Noisebridge) :
    s.pollProtoHomebrew setup h (setup.fd h) push =
        s.drain setup h h proto (s.rxq h) push ∧
      s.pollProtoMmdvm setup h (setup.fd h) push =
        s.drain setup h h proto (s.rxq h) push := by
  have hmem : (proto, h) ∈ setup.protos.zipIdx := List.mem_zipIdx_iff_getElem?.mpr hproto
  constructor
  · rw [pollProtoHomebrew, if_neg (not_not.mpr rfl),
      foldlM_eq_of_mem (BridgeSetup.nodup_zipIdx _) hmem, if_pos rfl]
    intro p hp hne s
    rw [if_neg fun hfd => hne (BridgeSetup.eq_of_fd hp hmem hfd)]
  · have hfind : setup.protos.zipIdx.find? (fun p => setup.fd p.2 = setup.fd h) =
        some (proto, h) := by
      cases hfind : setup.protos.zipIdx.find? (fun p => setup.fd p.2 = setup.fd h) with
      | none => simpa using List.find?_eq_none.mp hfind _ hmem
      | some p =>
        have hfd : setup.fd p.2 = setup.fd h := by simpa using List.find?_some hfind
        rw [BridgeSetup.eq_of_fd (List.mem_of_find?_eq_some hfind) hmem hfd]
    rw [pollProtoMmdvm, if_neg (not_not.mpr rfl), hfind]

theorem homebrewIoReadable_entry {h : Nat} {i : CallbackInput} {s s' : Noisebridge}
    (hs' : s.homebrewIoReadable setup h i = some s') : s'.io.entry = s.io.entry := by
  unfold homebrewIoReadable at hs'
  split at hs'
  · cases hs'
    rfl
  · obtain ⟨⟨r, parsed, heap⟩, -, hs'⟩ := Option.bind_eq_some_iff.mp hs'
    dsimp only at hs'
    split at hs'
    · cases hs'
      cases i.queued <;> rfl
    · cases hs'
      rfl

theorem mmdvmIoReadable_entry {h : Nat} {i : BridgeInput} {s s' : Noisebridge}
    (hs' : s.mmdvmIoReadable setup h i = some s') : s'.io.entry = s.io.entry := by
  unfold mmdvmIoReadable at hs'
  split at hs'
  · cases hs'
    rfl
  · obtain ⟨r, -, hs'⟩ := Option.bind_eq_some_iff.mp hs'
    dsimp only at hs'
    split at hs'
    · obtain ⟨heap, -, hs'⟩ := Option.bind_eq_some_iff.mp hs'
      cases hs'
      cases i.queued <;> rfl
    · cases hs'
      rfl

theorem pollProtoHomebrew_entry {h fd : Nat} {push : Nat → PushInput} {s s' : Noisebridge}
    (hs' : s.pollProtoHomebrew setup h fd push = some s') : s'.io.entry = s.io.entry := by
  unfold pollProtoHomebrew at hs'
  split at hs'
  · cases hs'
    rfl
  · generalize setup.protos.zipIdx = protos at hs'
    induction protos generalizing s with
    | nil =>
      cases hs'
      rfl
    | cons p protos ih =>
      rw [List.foldlM_cons] at hs'
      obtain ⟨s₁, hs₁, hs'⟩ := Option.bind_eq_some_iff.mp hs'
      refine (ih hs').trans ?_
      split at hs₁
      · obtain ⟨packets, hkept, -⟩ := drain_spec rfl hs₁
        exact hkept.entry
      · cases hs₁
        rfl

theorem pollProtoMmdvm_entry {h fd : Nat} {push : Nat → PushInput} {s s' : Noisebridge}
    (hs' : s.pollProtoMmdvm setup h fd push = some s') : s'.io.entry = s.io.entry := by
  unfold pollProtoMmdvm at hs'
  split at hs'
  · cases hs'
    rfl
  · split at hs'
    · cases hs'
      rfl
    · obtain ⟨packets, hkept, -⟩ := drain_spec rfl hs'
      exact hkept.entry

/-- No callback registers or deregisters a reader. -/
theorem program_keepsReaders (setup : BridgeSetup) : (program setup).KeepsReaders := by
  intro cb h fd i s s' hs'
  refine congrFun (?_ : s'.io.entry = s.io.entry) .read
  change s.work setup cb h fd i = some s' at hs'
  unfold work at hs'
  split at hs'
  · exact homebrewIoReadable_entry hs'
  · obtain ⟨r, -, hs'⟩ := Option.bind_eq_some_iff.mp hs'
    cases hs'
    rfl
  · exact pollProtoHomebrew_entry hs'
  · exact mmdvmIoReadable_entry hs'
  · exact pollProtoMmdvm_entry hs'
  · cases hs'
    rfl
  · cases hs'
    rfl

/-- A dispatch is a sequence of calls. -/
theorem readable_calls {s : Noisebridge} (hs : s.Registered setup) (fd : Nat)
    (input : Nat → BridgeInput) :
    ∃ now, s.step setup (.readable fd input) = (program setup).calls fd
      ((setup.initRepeater now).readers.filter fun e => e.fd = fd) input s := by
  obtain ⟨⟨now, hentry⟩, -⟩ := hs
  have hreaders : s.io.readers = (setup.initRepeater now).readers :=
    congrArg (fun l => l.cells.map Prod.snd) hentry
  have honce : ∀ c ∈ (s.io.entry .read).cells, c.2.once = false := by
    intro c hc
    have hmem : c.2 ∈ s.io.readers := List.mem_map_of_mem hc
    rw [hreaders] at hmem
    exact (BridgeSetup.mem_readers hmem).1
  refine ⟨now, ?_⟩
  rw [← hreaders]
  exact IoProgram.readable_eq (program_keepsReaders setup) fd input honce

/-- A dispatch calls the reader of the protocol, and then the poll. -/
theorem readable_proto {s : Noisebridge} (hs : s.Registered setup) {proto : Proto} {h : Nat}
    (hproto : setup.protos[h]? = some proto) (input : Nat → BridgeInput) :
    s.step setup (.readable (setup.fd h) input) =
      (s.work setup (BridgeSetup.readerOf proto) h (setup.fd h) (input 0)).bind fun s =>
        s.work setup (BridgeSetup.pollOf proto) h (setup.fd h) (input 1) := by
  obtain ⟨now, hcalls⟩ := readable_calls hs (setup.fd h) input
  rw [hcalls, BridgeSetup.readers_of_proto hproto now]
  show Option.bind _ (fun s' => Option.bind _ some) = _
  refine Option.bind_congr fun s' _ => ?_
  exact Option.bind_fun_some _

/-- No one listens to other descriptors. -/
theorem readable_other {s : Noisebridge} (hs : s.Registered setup) {fd : Nat}
    (hfd : ∀ h < setup.protos.length, setup.fd h ≠ fd) (input : Nat → BridgeInput) :
    s.step setup (.readable fd input) = some s := by
  obtain ⟨now, hcalls⟩ := readable_calls hs fd input
  have hnone : (setup.initRepeater now).readers.filter (fun e => e.fd = fd) = [] := by
    rw [List.filter_eq_nil_iff]
    intro e he
    obtain ⟨-, h, proto, hproto, hefd⟩ := BridgeSetup.mem_readers he
    obtain ⟨hlt, -⟩ := List.getElem?_eq_some_iff.mp hproto
    rw [hefd]
    simpa using hfd h hlt
  rw [hcalls, hnone]
  rfl

/-- A dispatch of timers moves slots and clients, and nothing that has to do with packets. -/
theorem timers_spec {s s' : Noisebridge} (hs : s.Registered setup) {now : Timeval}
    {input : Nat → BridgeInput} (h : s.step setup (.timers now input) = some s') :
    s'.Registered setup ∧ s'.rxq = s.rxq ∧ s'.pushed = s.pushed ∧ s'.heap = s.heap := by
  refine IoProgram.timers_inv (p := program setup)
    (I := fun t => t.Registered setup ∧ t.rxq = s.rxq ∧ t.pushed = s.pushed ∧ t.heap = s.heap)
    ?_ ?_ ⟨hs, rfl, rfl, rfl⟩ h
  · rintro t ⟨htimers, hrest⟩ c hc fd i t' ht'
    change t.work setup c.2.cb c.2.userdata fd i = some t' at ht'
    obtain hcb | hcb := htimers.timers c hc
    · rw [hcb] at ht'
      cases ht'
      exact ⟨⟨htimers.entry, htimers.timers⟩, hrest⟩
    · rw [hcb] at ht'
      obtain ⟨r, -, ht'⟩ := Option.bind_eq_some_iff.mp ht'
      cases ht'
      exact ⟨⟨htimers.entry, htimers.timers⟩, hrest⟩
  · rintro t io' ⟨htimers, hrest⟩ hentry hfrom
    refine ⟨⟨?_, fun c hc => ?_⟩, hrest⟩
    · obtain ⟨now, hread⟩ := htimers.entry
      exact ⟨now, (congrFun hentry _).trans hread⟩
    · obtain ⟨c', hc', hcb⟩ := hfrom c hc
      rw [hcb]
      exact htimers.timers c' hc'

theorem registered_start (now : Timeval) (homebrew : Nat → DmrHomebrew) (mmdvm : Nat → DmrMmdvm) :
    (start setup now homebrew mmdvm).Registered setup :=
  ⟨⟨now, rfl⟩, BridgeSetup.bridgeTimers_initRepeater now⟩

end Noisebridge

end Dmrlib
