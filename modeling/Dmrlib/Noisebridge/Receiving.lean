import Dmrlib.Noisebridge.Dispatches
import Dmrlib.Protocol.ParsedOut

/-!
# What the readers of the bridge leave behind

`homebrewIoReadable_spec` and `mmdvmIoReadable_spec` say what a reader puts in its queue, and
what is on the heap after it.

- `ReadOutcome`: nothing, a buffer that was left behind, or a packet in the queue.
- `CallbackInput.GivesBack`: the inputs of the reader that lead to the first.
- `DataFrame`, `QueuesFrame`: the bytes of a modem that make its reader queue a packet.
- `homebrewIoReadable_refines`: the reader on the heap does what `Dmrlib.Protocol.HomebrewIo` has
  it do.
-/

namespace Dmrlib

/-! ## What is parsed -/

/-- What is too short is no frame. -/
theorem dmrdPacket_of_short {c : Common} {env : HomebrewEnv} {recv : Option (List UInt8)}
    (hshort : shortRead recv = true) : recv.bind (dmrdPacket c env) = none := by
  cases recv with
  | none => rfl
  | some datagram =>
    rw [shortRead, decide_eq_true_eq] at hshort
    rw [Option.bind_some, dmrdPacket_eq_none_iff]
    rintro ⟨hlen, -⟩
    omega

/-- On the heap is what `dmr_homebrew_read` parsed. -/
theorem dmrHomebrewReadOnHeap_eq (A : Allocator) (c : Common) {env : HomebrewEnv}
    (hout : env.parsedOut = true) (homebrew : DmrHomebrew) (recv : Option (List UInt8))
    (heap : Heap Object) :
    (dmrHomebrewReadOnHeap A c env homebrew recv heap).map
        (fun x => (x.1, x.2.1.map Queued.parsed)) =
      (dmrHomebrewRead c env homebrew recv).map fun r => (r, r.parsed.join) := by
  unfold dmrHomebrewReadOnHeap
  cases hr : dmrHomebrewRead c env homebrew recv with
  | none => rfl
  | some r =>
    rw [Option.bind_eq_bind, Option.bind_some]
    dsimp only
    -- no buffer, a datagram that is too short to be parsed, and one that is parsed
    cases hreceived : env.received with
    | false =>
      have hnone : r.parsed = none := by
        have hnew : dmrRawNew env.received 53 = none := by
          rw [hreceived]
          rfl
        simp only [dmrHomebrewRead, hnew, Option.some.injEq] at hr
        rw [← hr]
      rw [if_pos rfl, Option.map_some, hnone]
      rfl
    | true =>
      rw [if_neg (by decide)]
      split
      · next hshort =>
        rw [Option.map_some, (parsed_dmrHomebrewRead hreceived hout hr).1,
          dmrdPacket_of_short hshort]
        rfl
      · split
        · next parsed hsome =>
          -- the buffer is freed, and the packet is allocated after that
          obtain ⟨heap', hfree, -⟩ :=
            Heap.exists_free_alloc_alloc A heap .raw (.parsed parsed)
          rw [hfree, Option.map_some, hsome]
          rfl
        · next hno =>
          have hnone : r.parsed.join = none := by
            cases hparsed : r.parsed with
            | none => rfl
            | some inner =>
              cases inner with
              | none => rfl
              | some parsed => exact absurd hparsed (hno parsed)
          rw [Heap.free_alloc, Option.map_some, hnone]
          rfl

/-- **Reading.** The client and its queue are those of `Dmrlib.homebrewIoReadable`. -/
theorem homebrewIoReadable_refines (setup : BridgeSetup) (h : Nat) (i : CallbackInput)
    (s : Noisebridge) :
    (s.homebrewIoReadable setup h i).map
        (fun s' => (s'.homebrew h, (s'.rxq h).map Queued.parsed)) =
      (homebrewIoReadable setup.common i (s.homebrew h) ((s.rxq h).map Queued.parsed)).map
        Prod.snd := by
  unfold Noisebridge.homebrewIoReadable homebrewIoReadable
  by_cases halloc : i.allocated = false
  · rw [if_pos halloc, if_pos halloc]
    rfl
  rw [if_neg halloc, if_neg halloc]
  have hread := dmrHomebrewReadOnHeap_eq setup.allocator setup.common
    (show ({ i.env with parsedOut := true } : HomebrewEnv).parsedOut = true from rfl)
    (s.homebrew h) i.recv s.heap
  cases hr : dmrHomebrewRead setup.common { i.env with parsedOut := true } (s.homebrew h)
      i.recv with
  | none =>
    rw [hr, Option.map_none, Option.map_eq_none_iff] at hread
    rw [hread]
    rfl
  | some r =>
    rw [hr, Option.map_some] at hread
    obtain ⟨⟨r', parsed, heap⟩, hheap, heq⟩ := Option.map_eq_some_iff.mp hread
    obtain ⟨rfl, hparsed⟩ := Prod.ext_iff.mp heq
    dsimp only at hparsed
    rw [hheap, Option.bind_eq_bind, Option.bind_some, Option.bind_eq_bind, Option.bind_some]
    dsimp only
    cases parsed with
    | none =>
      -- nothing is queued on either side
      split
      · next hsome => cases hsome
      · split
        · next hsome =>
          rw [hsome] at hparsed
          cases hparsed
        · simp
    | some q =>
      have hsome : r'.parsed = some (some q.parsed) := Option.join_eq_some_iff.mp hparsed.symm
      rw [hsome]
      by_cases hret : r'.ret = 0
      · rw [hret]
        cases i.queued <;> simp [Noisebridge.enqueue]
      · split
        · next hzero _ => exact absurd hzero hret
        · split
          · next hzero _ => exact absurd hzero hret
          · simp

/-! ## What is left on the heap -/

/-- What `dmr_homebrew_read` leaves: it had no memory for the buffer, or did not free it, or freed
it, or freed it behind the packet that it parsed. -/
theorem dmrHomebrewReadOnHeap_spec {A : Allocator} {c : Common} {env : HomebrewEnv}
    {homebrew : DmrHomebrew} {recv : Option (List UInt8)} {heap heap' : Heap Object}
    {r : HomebrewResult} {parsed : Option Queued} (hout : env.parsedOut = true)
    (h : dmrHomebrewReadOnHeap A c env homebrew recv heap = some (r, parsed, heap')) :
    (env.received = false ∧ parsed = none ∧ heap' = heap) ∨
    (env.received = true ∧ shortRead recv = true ∧ parsed = none ∧
      heap' = (heap.alloc A .raw).2) ∨
    (env.received = true ∧ shortRead recv = false ∧ recv.bind (dmrdPacket c env) = none ∧
      parsed = none ∧ heap' = heap) ∨
    env.received = true ∧ ∃ q, parsed = some q ∧ r.ret = 0 ∧
      recv.bind (dmrdPacket c env) = some q.parsed ∧ heap.Extends heap' ∧
      heap'.get? q.ref = some (.parsed q.parsed) ∧ heap'.live.card = heap.live.card + 1 := by
  obtain ⟨r', hr', h⟩ := Option.bind_eq_some_iff.mp h
  dsimp only at h
  split at h
  · next hreceived =>
    cases h
    exact .inl ⟨hreceived, rfl, rfl⟩
  next hreceived =>
  have hreceived : env.received = true := by simpa using hreceived
  obtain ⟨hparsed, hret⟩ := parsed_dmrHomebrewRead hreceived hout hr'
  -- on a short datagram the reader returns at once, and the buffer stays behind
  split at h
  · next hshort =>
    cases h
    exact .inr (.inl ⟨hreceived, hshort, rfl, rfl⟩)
  next hshort =>
  have hshort : shortRead recv = false := by simpa using hshort
  split at h
  · next packet hsome =>
    obtain ⟨heap₁, hfree, hheap, hget, hcard⟩ :=
      Heap.exists_free_alloc_alloc A heap .raw (.parsed packet)
    rw [hfree] at h
    cases h
    rw [hsome] at hparsed hret
    exact .inr (.inr (.inr ⟨hreceived, _, rfl, hret rfl, hparsed.symm, hheap, hget, hcard⟩))
  -- nothing was parsed: the buffer goes, and nothing else has come
  · next hnone =>
    rw [Heap.free_alloc] at h
    cases h
    refine .inr (.inr (.inl ⟨hreceived, hshort, ?_, rfl, rfl⟩))
    rw [← hparsed]
    cases hr : r.parsed with
    | none => rfl
    | some inner =>
      cases inner with
      | none => rfl
      | some packet => exact absurd hr (hnone packet)

/-- A reader that gives back what it takes: there is no memory to start with, or the datagram is
long enough and no frame, or a frame that there is no memory to parse. -/
def CallbackInput.GivesBack (i : CallbackInput) : Prop :=
  i.allocated = false ∨ i.env.received = false ∨
    ∃ datagram, i.recv = some datagram ∧ 14 ≤ datagram.length ∧
      ¬ (datagram.length = 53 ∧ datagram.getD 0 0 = 0x44 ∧ i.env.allocated = true)

theorem CallbackInput.givesBack_iff {i : CallbackInput} (halloc : i.allocated = true)
    (hreceived : i.env.received = true) (c : Common) :
    i.GivesBack ↔ shortRead i.recv = false ∧ i.recv.bind (dmrdPacket c i.env) = none := by
  rw [CallbackInput.GivesBack, halloc, hreceived]
  cases i.recv with
  | none => simp [shortRead]
  | some datagram =>
    rw [shortRead, decide_eq_false_iff_not, not_lt, Option.bind_some, dmrdPacket_eq_none_iff]
    simp

theorem CallbackInput.hasMemory_of_not_givesBack {i : CallbackInput} (h : ¬ i.GivesBack) :
    i.allocated = true ∧ i.env.received = true := by
  constructor
  · cases halloc : i.allocated with
    | true => rfl
    | false => exact absurd (.inl halloc) h
  · cases hreceived : i.env.received with
    | true => rfl
    | false => exact absurd (.inr (.inl hreceived)) h

namespace Noisebridge

variable {setup : BridgeSetup}

/-- What `homebrew_io_readable` leaves: nothing, a buffer, or a packet in its queue. -/
inductive ReadOutcome (setup : BridgeSetup) (h : Nat) (i : CallbackInput) (s : Noisebridge) :
    Noisebridge → Prop where
  | nothing (homebrew : Nat → DmrHomebrew) (hback : i.GivesBack) :
    ReadOutcome setup h i s { s with homebrew }
  | buffer (homebrew : Nat → DmrHomebrew) (hback : ¬ i.GivesBack)
    (hshort : shortRead i.recv = true) :
    ReadOutcome setup h i s
      { s with homebrew, heap := (s.heap.alloc setup.allocator .raw).2 }
  | packet (homebrew : Nat → DmrHomebrew) (heap : Heap Object) (q : Queued)
    (hback : ¬ i.GivesBack)
    (hpacket : i.recv.bind (dmrdPacket setup.common i.env) = some q.parsed)
    (hheap : s.heap.Extends heap) (hget : heap.get? q.ref = some (.parsed q.parsed))
    (hcard : heap.live.card = s.heap.live.card + 1) :
    ReadOutcome setup h i s
      (if i.queued then { s with homebrew, heap }.enqueue h q else { s with homebrew, heap })

theorem homebrewIoReadable_spec {h : Nat} {i : CallbackInput} {s s' : Noisebridge}
    (hs' : s.homebrewIoReadable setup h i = some s') : ReadOutcome setup h i s s' := by
  unfold homebrewIoReadable at hs'
  split at hs'
  · next halloc =>
    cases hs'
    exact .nothing s.homebrew (.inl halloc)
  next halloc =>
  have halloc : i.allocated = true := by simpa using halloc
  obtain ⟨⟨r, parsed, heap⟩, hread, hs'⟩ := Option.bind_eq_some_iff.mp hs'
  dsimp only at hs'
  -- without a packet the queue stays as it is
  have hqueue : parsed = none →
      s' = { s with homebrew := Function.update s.homebrew h r.homebrew, heap } := by
    rintro rfl
    simpa [eq_comm] using hs'
  obtain ⟨hreceived, hnone, rfl⟩ | ⟨hreceived, hshort, hnone, rfl⟩ |
    ⟨hreceived, hshort, hpacket, hnone, rfl⟩ |
    ⟨hreceived, q, rfl, hret, hpacket, hheap, hget, hcard⟩ := dmrHomebrewReadOnHeap_spec rfl hread
  · rw [hqueue hnone]
    exact .nothing _ (.inr (.inl hreceived))
  · rw [hqueue hnone]
    refine .buffer _ (fun hback => ?_) hshort
    have hlong := ((CallbackInput.givesBack_iff halloc hreceived setup.common).mp hback).1
    exact absurd (hshort.symm.trans hlong) (by decide)
  · rw [hqueue hnone]
    exact .nothing _ ((CallbackInput.givesBack_iff halloc hreceived setup.common).mpr
      ⟨hshort, hpacket⟩)
  · rw [hret] at hs'
    cases hs'
    refine .packet _ _ q (fun hback => ?_) hpacket hheap hget hcard
    have hno := ((CallbackInput.givesBack_iff halloc hreceived setup.common).mp hback).2
    exact absurd (hpacket.symm.trans hno) (Option.some_ne_none _)

end Noisebridge

/-! ## The modem -/

/-- Once the line has been read, the modem's buffer begins with a complete frame of DMR data. -/
def DataFrame (past : Nat → UInt8) (mmdvm : DmrMmdvm) (port : List SerialRead) : Prop :=
  ∃ ret mmdvm' port', collect past mmdvm port = some (ret, mmdvm', port') ∧ 0 < ret ∧
    3 ≤ mmdvm'.pos ∧ (frameLength mmdvm'.frame).toNat ≤ mmdvm'.pos ∧
    frameStart mmdvm'.frame = DMR_MMDVM_FRAME_START ∧
    (frameCommand mmdvm'.frame = DMR_MMDVM_DMR_DATA1 ∨
      frameCommand mmdvm'.frame = DMR_MMDVM_DMR_DATA2)

theorem dataFrame_iff {past : Nat → UInt8} {mmdvm mmdvm' : DmrMmdvm} {port port' : List SerialRead}
    {ret : Int} (hcollect : collect past mmdvm port = some (ret, mmdvm', port')) :
    DataFrame past mmdvm port ↔ 0 < ret ∧ 3 ≤ mmdvm'.pos ∧
      (frameLength mmdvm'.frame).toNat ≤ mmdvm'.pos ∧
      frameStart mmdvm'.frame = DMR_MMDVM_FRAME_START ∧
      (frameCommand mmdvm'.frame = DMR_MMDVM_DMR_DATA1 ∨
        frameCommand mmdvm'.frame = DMR_MMDVM_DMR_DATA2) := by
  constructor
  · rintro ⟨ret₁, mmdvm₁, port₁, hsome, hrest⟩
    rw [hcollect] at hsome
    cases hsome
    exact hrest
  · exact fun hrest => ⟨ret, mmdvm', port', hcollect, hrest⟩

instance (past : Nat → UInt8) (mmdvm : DmrMmdvm) (port : List SerialRead) :
    Decidable (DataFrame past mmdvm port) :=
  match h : collect past mmdvm port with
  | none => .isFalse fun ⟨_, _, _, hsome, _⟩ => nomatch h.symm.trans hsome
  | some (_, _, _) => decidable_of_iff _ (dataFrame_iff h).symm

/-- The reader returns a packet exactly when a frame of data is complete, if there is memory for
it. -/
theorem parsed_dmrMmdvmRead (env : ReadEnv) (mmdvm : DmrMmdvm) (port : List SerialRead) :
    (DataFrame env.past mmdvm port ∧ env.allocated = true ∧
        ∃ r parsed, dmrMmdvmRead env mmdvm port = some r ∧ r.ret = 0 ∧ r.parsed = some parsed) ∨
      (¬ (DataFrame env.past mmdvm port ∧ env.allocated = true) ∧
        ∀ r, dmrMmdvmRead env mmdvm port = some r → r.parsed = none) := by
  unfold dmrMmdvmRead
  cases hcollect : collect env.past mmdvm port with
  | none =>
    refine .inr ⟨?_, fun r hr => by cases hr⟩
    rintro ⟨⟨ret, mmdvm', port', hsome, -⟩, -⟩
    rw [hcollect] at hsome
    cases hsome
  | some result =>
    obtain ⟨ret, mmdvm', port'⟩ := result
    rw [dataFrame_iff hcollect, Option.bind_eq_bind, Option.bind_some]
    dsimp only
    -- each way out of the reader contradicts one of the conditions on a data frame
    split
    · next hret =>
      refine .inr ⟨fun hall => absurd hall.1.1 (not_lt.mpr hret), fun r hr => ?_⟩
      cases hr
      rfl
    next hret =>
    split
    · next hpos =>
      refine .inr ⟨fun hall => absurd hall.1.2.1 (not_le.mpr hpos), fun r hr => ?_⟩
      cases hr
      rfl
    next hpos =>
    split
    · next hlen =>
      refine .inr ⟨fun hall => absurd hall.1.2.2.1 (not_le.mpr hlen), fun r hr => ?_⟩
      cases hr
      rfl
    next hlen =>
    obtain ⟨hstart, hdata, halloc, parsed, hparse⟩ | ⟨hno, hnone⟩ :=
      parsed_dmrMmdvmParseFrame env.allocated mmdvm' mmdvm'.frame
    · rw [hparse]
      exact .inl ⟨⟨not_le.mp hret, not_lt.mp hpos, not_lt.mp hlen, hstart, hdata⟩, halloc, _,
        parsed, rfl, rfl, rfl⟩
    · refine .inr ⟨fun hall => hno ⟨hall.1.2.2.2.1, hall.1.2.2.2.2, hall.2⟩, fun r hr => ?_⟩
      obtain ⟨⟨ret₁, mmdvm₁, parsed₁⟩, hparse, hr⟩ := Option.bind_eq_some_iff.mp hr
      cases hr
      exact hnone _ hparse

namespace Noisebridge

variable {setup : BridgeSetup}

/-- The dispatch completes a frame of data, and there is memory to parse and to queue it. -/
def QueuesFrame (s : Noisebridge) (h : Nat) (i : BridgeInput) : Prop :=
  i.allocated = true ∧ i.serial.allocated = true ∧ i.queued = true ∧
    DataFrame i.serial.past (s.mmdvm h) (s.port h ++ i.arrived)

/-- What `mmdvm_io_readable` leaves: nothing, or a reference to what it has freed. -/
theorem mmdvmIoReadable_spec (h : Nat) (i : BridgeInput) (s : Noisebridge) :
    (s.QueuesFrame h i ∧ ∃ mmdvm port q,
        s.mmdvmIoReadable setup h i = some ({ s with mmdvm, port }.enqueue h q) ∧
          s.heap.get? q.ref = none) ∨
      (¬ s.QueuesFrame h i ∧ ∀ s', s.mmdvmIoReadable setup h i = some s' →
        ∃ mmdvm port, s' = { s with mmdvm, port }) := by
  unfold mmdvmIoReadable QueuesFrame
  cases halloc : i.allocated with
  | false =>
    refine .inr ⟨fun hall => absurd hall.1 (by decide), fun s' hs' => ?_⟩
    cases hs'
    exact ⟨s.mmdvm, s.port, rfl⟩
  | true =>
    rw [if_neg (by decide)]
    obtain ⟨hframe, hmem, r, parsed, hread, hret, hparsed⟩ | ⟨hno, hnone⟩ :=
      parsed_dmrMmdvmRead i.serial (s.mmdvm h) (s.port h ++ i.arrived)
    · rw [hread, Option.bind_eq_bind, Option.bind_some]
      dsimp only
      rw [hret, hparsed]
      -- the packet is freed after it was queued, so its reference leads to nothing
      cases hqueued : i.queued with
      | true =>
        refine .inl ⟨⟨rfl, hmem, rfl, hframe⟩, Function.update s.mmdvm h r.mmdvm,
          Function.update s.port h r.port,
          ⟨(s.heap.alloc setup.allocator (.parsed parsed)).1, parsed⟩, ?_,
          Heap.get?_alloc_fresh _ _ (.parsed parsed)⟩
        show (Heap.free (s.heap.alloc setup.allocator (.parsed parsed)).2 _).bind _ = _
        rw [Heap.free_alloc]
        rfl
      | false =>
        refine .inr ⟨fun hall => absurd hall.2.2.1 (by decide), fun s' hs' => ?_⟩
        change (Heap.free (s.heap.alloc setup.allocator (.parsed parsed)).2 _).bind _ = _ at hs'
        rw [Heap.free_alloc] at hs'
        cases hs'
        exact ⟨_, _, rfl⟩
    -- without a frame the callback leaves the queue and the heap alone
    · refine .inr ⟨fun hall => hno ⟨hall.2.2.2, hall.2.1⟩, fun s' hs' => ?_⟩
      obtain ⟨r, hread, hs'⟩ := Option.bind_eq_some_iff.mp hs'
      have hs₁ : s' = { s with
          mmdvm := Function.update s.mmdvm h r.mmdvm
          port := Function.update s.port h r.port } := by
        simpa [hnone r hread, eq_comm] using hs'
      exact ⟨_, _, hs₁⟩

end Noisebridge

end Dmrlib
