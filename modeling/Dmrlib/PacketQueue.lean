import Dmrlib.PacketTypes
import Dmrlib.Protocol.Homebrew
import Dmrlib.Queue

/-!
# Queues of packets (`src/dmr/packetq.c`)

An entry of the queue points to a packet that was allocated elsewhere: by the caller that adds it,
or by `dmr_packetq_add_packet` for a copy of a burst. What is taken from the queue is the caller's
to keep, to add again or to free; only `dmr_packetq_shift_packet` and `dmr_packetq_flush` free
packets themselves. Where `dmr_packetq_add_packet` has no memory for an entry, its copy is lost.

The bridge is modelled with a list for the queue (`Dmrlib.Noisebridge.Bridge`). Here it is shown
over runs of calls that the entries in memory do what the list does, and what becomes of the
memory.

- `add`, `addPacket`, `shift`, `shiftPacket`, `flush`, `foreachWith`: the functions, over a tail
  queue of entries and a heap of packets.
- `Usage`, `step`, `run`: calls by callers that hold packets of their own.
- `Waiting`: the same calls on lists.
- `Mirrors`: how the two correspond; which entries and packets are in memory is part of it.
- `packetq_refines`: the correspondence over every run.
-/

namespace Dmrlib

/-- `dmr_packetq`, where `head` has the entries with what their `parsed` points at, and the packets
in memory. -/
structure DmrPacketq where
  head : DmrTailq Nat
  packets : Heap DmrParsedPacket

/-- Which allocations succeed. -/
structure PacketqMemory where
  parsed : Bool
  entry : Bool

namespace DmrPacketq

/-- `dmr_packetq_new`, where the allocation succeeds. -/
def new : DmrPacketq := ⟨.init, Heap.empty⟩

/-- `dmr_packetq_add` -/
def add (A : Allocator) (mem : PacketqMemory) (q : DmrPacketq) (parsed : Option Nat) :
    Option (Int × DmrPacketq) :=
  match parsed with
  | none => some (-1, q)
  | some parsed =>
    if mem.entry then do
      let e := q.head.heap.alloc A ⟨parsed, ⟨none, none⟩⟩
      let head ← { q.head with heap := e.2 }.insertTail e.1
      return (0, { q with head })
    else
      some (-1, q)

/-- `dmr_packetq_add_packet`. Without an entry, the copy stays where it is, and nothing points
at it. -/
def addPacket (A B : Allocator) (mem : PacketqMemory) (q : DmrPacketq) (packet : DmrPacket) :
    Option (Int × DmrPacketq) :=
  if mem.parsed then
    let parsed := q.packets.alloc B { DmrParsedPacket.zero with packet }
    add A mem { q with packets := parsed.2 } (some parsed.1)
  else
    some (-1, q)

/-- `dmr_packetq_shift`: what it returns and stores to `parsed_out`. -/
def shift (q : DmrPacketq) : Option (Int × Option Nat × DmrPacketq) :=
  match q.head.tqhFirst with
  | none => some (-1, none, q)
  | some e => do
    let head ← q.head.remove e
    let entry ← head.heap.get? e
    let heap ← head.heap.free e
    return (0, some entry.val, { q with head := { head with heap } })

/-- `dmr_packetq_shift_packet` -/
def shiftPacket (q : DmrPacketq) : Option (Int × Option DmrPacket × DmrPacketq) := do
  let (ret, parsed, q) ← q.shift
  match parsed with
  | none => return (ret, none, q)
  | some ref =>
    let parsed ← q.packets.get? ref
    let packets ← q.packets.free ref
    return (0, some parsed.packet, { q with packets })

/-- The loop of `dmr_packetq_flush`. -/
def flushFrom (q : DmrPacketq) : (fuel : Nat) → (entry : Option Nat) → Option DmrPacketq
  | _, none => some q
  | 0, some _ => none
  | fuel + 1, some entry => do
    let e ← q.head.heap.get? entry
    let next := e.field.tqeNext
    let head ← q.head.remove entry
    let e ← head.heap.get? entry
    let packets ← q.packets.free e.val
    let heap ← head.heap.free entry
    flushFrom ⟨{ head with heap }, packets⟩ fuel next

/-- `dmr_packetq_flush` -/
def flush (q : DmrPacketq) : Option (Int × DmrPacketq) := do
  let q ← q.flushFrom q.head.fuel q.head.tqhFirst
  return (0, q)

/-- What the loops of `dmr_packetq_foreach` and `dmr_packetq_foreach_packet` share: the callback
has `arg` of each packet, until it does not return 0. -/
def foreachWith {β : Type} (arg : DmrParsedPacket → β) (q : DmrPacketq) (cb : β → Int) :
    Option (Int × List β) :=
  if q.head.tqhFirst.isNone then
    some (0, [])
  else do
    let (seen, ret) ← q.head.foreachSafe (fun ref => do
      let parsed ← q.packets.get? ref
      let ret := cb (arg parsed)
      return (arg parsed, if ret ≠ 0 then some ret else none)) q.head.fuel q.head.tqhFirst
    return (ret.getD 0, seen)

/-- `dmr_packetq_foreach` -/
def foreach (q : DmrPacketq) (cb : DmrParsedPacket → Int) : Option (Int × List DmrParsedPacket) :=
  q.foreachWith (fun parsed => parsed) cb

/-- `dmr_packetq_foreach_packet` -/
def foreachPacket (q : DmrPacketq) (cb : DmrPacket → Int) : Option (Int × List DmrPacket) :=
  q.foreachWith (fun parsed => parsed.packet) cb

/-! ## Calls -/

/-- The queue, and the packets that its callers have: those that they have allocated, and those
that they were given. -/
structure Usage where
  q : DmrPacketq
  held : List Nat

/-- A call of a function of the queue, or of the allocator. Of the callers' packets the `i`-th is
meant; where there are not as many, it is `NULL`. -/
inductive Call where
  /-- `talloc_zero`, and what the caller puts into the packet -/
  | alloc (parsed : DmrParsedPacket)
  /-- `TALLOC_FREE` -/
  | free (i : Nat)
  | add (mem : PacketqMemory) (i : Nat)
  | addPacket (mem : PacketqMemory) (packet : DmrPacket)
  | shift
  | shiftPacket
  | flush
  | foreach (cb : DmrParsedPacket → Int)
  | foreachPacket (cb : DmrPacket → Int)

/-- What a call returns, and the packets and the bursts that its caller or its callback sees. -/
structure Reply where
  ret : Int
  parsed : List DmrParsedPacket := []
  packets : List DmrPacket := []

def step (A B : Allocator) (u : Usage) : Call → Option (Reply × Usage)
  | .alloc parsed =>
    let ref := u.q.packets.alloc B parsed
    some (⟨0, [], []⟩, ⟨{ u.q with packets := ref.2 }, ref.1 :: u.held⟩)
  | .free i =>
    match u.held[i]? with
    | none => some (⟨0, [], []⟩, u)
    | some ref => do
      let packets ← u.q.packets.free ref
      return (⟨0, [], []⟩, ⟨{ u.q with packets }, u.held.eraseIdx i⟩)
  | .add mem i => do
    let (ret, q) ← u.q.add A mem u.held[i]?
    return (⟨ret, [], []⟩, ⟨q, if ret = 0 then u.held.eraseIdx i else u.held⟩)
  | .addPacket mem packet => do
    let (ret, q) ← u.q.addPacket A B mem packet
    return (⟨ret, [], []⟩, { u with q })
  | .shift => do
    let (ret, ref, q) ← u.q.shift
    match ref with
    | none => return (⟨ret, [], []⟩, { u with q })
    | some ref =>
      let parsed ← q.packets.get? ref
      return (⟨ret, [parsed], []⟩, ⟨q, ref :: u.held⟩)
  | .shiftPacket => do
    let (ret, packet, q) ← u.q.shiftPacket
    return (⟨ret, [], packet.toList⟩, { u with q })
  | .flush => do
    let (ret, q) ← u.q.flush
    return (⟨ret, [], []⟩, { u with q })
  | .foreach cb => do
    let (ret, seen) ← u.q.foreach cb
    return (⟨ret, seen, []⟩, u)
  | .foreachPacket cb => do
    let (ret, seen) ← u.q.foreachPacket cb
    return (⟨ret, [], seen⟩, u)

def run (A B : Allocator) : Usage → List Call → Option (List Reply × Usage)
  | u, [] => some ([], u)
  | u, call :: calls => do
    let (reply, u) ← step A B u call
    let (replies, u) ← run A B u calls
    return (reply :: replies, u)

/-! ## The list

What the calls do when nothing is said of memory: a list of packets, those that the caller has,
and a count of those that nobody has any more.
-/

/-- The packets that wait, those that the callers have, and how many copies are lost. -/
structure Waiting where
  parsed : List DmrParsedPacket
  held : List DmrParsedPacket
  lost : Nat

/-- The packets up to the first one that the callback does not return 0 for. -/
def visit {β : Type} (cb : β → Int) : List β → Int × List β
  | [] => (0, [])
  | p :: ps => if cb p ≠ 0 then (cb p, [p]) else ((visit cb ps).1, p :: (visit cb ps).2)

def Waiting.step (w : Waiting) : Call → Reply × Waiting
  | .alloc parsed => (⟨0, [], []⟩, { w with held := parsed :: w.held })
  | .free i => (⟨0, [], []⟩, { w with held := w.held.eraseIdx i })
  | .add mem i =>
    match w.held[i]? with
    | none => (⟨-1, [], []⟩, w)
    | some p =>
      if mem.entry then
        (⟨0, [], []⟩, { w with parsed := w.parsed ++ [p], held := w.held.eraseIdx i })
      else
        (⟨-1, [], []⟩, w)
  | .addPacket mem packet =>
    if !mem.parsed then (⟨-1, [], []⟩, w)
    else if mem.entry then
      (⟨0, [], []⟩, { w with parsed := w.parsed ++ [{ DmrParsedPacket.zero with packet }] })
    else (⟨-1, [], []⟩, { w with lost := w.lost + 1 })
  | .shift =>
    match w.parsed with
    | [] => (⟨-1, [], []⟩, w)
    | p :: ps => (⟨0, [p], []⟩, { w with parsed := ps, held := p :: w.held })
  | .shiftPacket =>
    match w.parsed with
    | [] => (⟨-1, [], []⟩, w)
    | p :: ps => (⟨0, [], [p.packet]⟩, { w with parsed := ps })
  | .flush => (⟨0, [], []⟩, { w with parsed := [] })
  | .foreach cb => (⟨(visit cb w.parsed).1, (visit cb w.parsed).2, []⟩, w)
  | .foreachPacket cb =>
    (⟨(visit cb (w.parsed.map (·.packet))).1, [], (visit cb (w.parsed.map (·.packet))).2⟩, w)

def Waiting.run : Waiting → List Call → List Reply × Waiting
  | w, [] => ([], w)
  | w, call :: calls =>
    let (reply, w) := w.step call
    let (replies, w) := w.run calls
    (reply :: replies, w)

/-! ## The entries and the list

The entries of the queue refer to packets on the heap. Each packet that is alive is queued, or the
caller's, or leaked, and no two of these are the same.
-/

/-- The queue has the packets that wait, in order: `xs` are its entries, with where the packets
are. The callers have theirs, and `lost` are the copies that nothing points at. There are no other
entries and no other packets in memory, and none of them is in two of these places. -/
structure Mirrors (u : Usage) (w : Waiting) (xs : List (ℕ × ℕ)) (lost : List ℕ) : Prop where
  represents : u.q.head.Represents xs
  entries : u.q.head.heap.InUse (xs.map Prod.fst)
  packets : u.q.packets.InUse (xs.map Prod.snd ++ (u.held ++ lost))
  parsed : (xs.map Prod.snd).map u.q.packets.get? = w.parsed.map some
  held : u.held.map u.q.packets.get? = w.held.map some
  lost : lost.length = w.lost

theorem mirrors_new : Mirrors ⟨new, []⟩ ⟨[], [], 0⟩ [] [] :=
  ⟨DmrTailq.represents_init, Heap.inUse_empty, Heap.inUse_empty, rfl, rfl, rfl⟩

variable {u : Usage} {ps held : List DmrParsedPacket} {n : ℕ} {xs : List (ℕ × ℕ)} {lost : List ℕ}

/-- One more packet in memory, which is the first of the callers'. -/
theorem Mirrors.alloc (h : Mirrors u ⟨ps, held, n⟩ xs lost) (B : Allocator)
    (p : DmrParsedPacket) :
    Mirrors ⟨{ u.q with packets := (u.q.packets.alloc B p).2 }, (u.q.packets.alloc B p).1 :: u.held⟩
      ⟨ps, p :: held, n⟩ xs lost := by
  have hsame : ∀ r ∈ xs.map Prod.snd ++ (u.held ++ lost),
      (u.q.packets.alloc B p).2.get? r = u.q.packets.get? r := by
    intro r hr
    obtain ⟨v, hv⟩ := h.packets.exists_get hr
    rw [hv]
    exact Heap.extends_alloc B u.q.packets p r v hv
  refine ⟨h.represents, h.entries, (h.packets.alloc B p).perm List.perm_middle.symm, ?_, ?_,
    h.lost⟩
  · exact Heap.map_get?_congr h.parsed fun r hr => hsame r (List.mem_append_left _ hr)
  · rw [List.map_cons, List.map_cons]
    refine congrArg₂ List.cons (Heap.get?_alloc_self B u.q.packets p) ?_
    exact Heap.map_get?_congr h.held fun r hr =>
      hsame r (List.mem_append_right _ (List.mem_append_left _ hr))

section Moves

variable {q : DmrPacketq} {ref : ℕ} {refs refs' : List ℕ} {p : DmrParsedPacket}
  {held' : List DmrParsedPacket}

/-- A packet of the callers' is freed. -/
theorem Mirrors.exists_free (h : Mirrors ⟨q, refs⟩ ⟨ps, held, n⟩ xs lost)
    (hperm : refs.Perm (ref :: refs')) (hheld : refs'.map q.packets.get? = held'.map some) :
    ∃ packets, q.packets.free ref = some packets ∧
      Mirrors ⟨{ q with packets }, refs'⟩ ⟨ps, held', n⟩ xs lost := by
  have huse : q.packets.InUse (ref :: (xs.map Prod.snd ++ (refs' ++ lost))) :=
    h.packets.perm (((hperm.append_right lost).append_left _).trans List.perm_middle)
  obtain ⟨packets, hfree, huse', hsame⟩ := huse.exists_free
  refine ⟨packets, hfree, h.represents, h.entries, huse', ?_, ?_, h.lost⟩
  · exact Heap.map_get?_congr h.parsed fun r hr => hsame r (List.mem_append_left _ hr)
  · exact Heap.map_get?_congr hheld fun r hr =>
      hsame r (List.mem_append_right _ (List.mem_append_left _ hr))

/-- A packet of the callers' is added: it goes from them to the queue. -/
theorem Mirrors.exists_add (h : Mirrors ⟨q, refs⟩ ⟨ps, held, n⟩ xs lost)
    (hperm : refs.Perm (ref :: refs')) (hheld : refs'.map q.packets.get? = held'.map some)
    (hget : q.packets.get? ref = some p) (A : Allocator) {mem : PacketqMemory}
    (hmem : mem.entry = true) :
    ∃ q' xs', q.add A mem (some ref) = some (0, q') ∧
      Mirrors ⟨q', refs'⟩ ⟨ps ++ [p], held', n⟩ xs' lost := by
  have hext := h.represents.extends (Heap.extends_alloc A q.head.heap ⟨ref, ⟨none, none⟩⟩)
  have huse := h.entries.alloc A ⟨ref, ⟨none, none⟩⟩
  have hfresh := (List.nodup_cons.mp huse.nodup).1
  obtain ⟨head, hinsert, hrep, hun⟩ := hext.exists_insertTail
    (Heap.get?_alloc_self A q.head.heap _) hfresh
  refine ⟨{ q with head }, _, ?_, hrep, ?_, ?_, ?_, hheld, h.lost⟩
  · rw [add, if_pos hmem]
    show (DmrTailq.insertTail _ _).bind _ = _
    rw [hinsert]
    rfl
  · rw [List.map_append]
    exact Heap.InUse.perm ⟨huse.nodup, hun.1.trans huse.live⟩ (List.perm_append_singleton _ _).symm
  · rw [List.map_append, List.append_assoc]
    exact h.packets.perm ((hperm.append_right lost).append_left _)
  · rw [List.map_append, List.map_append, List.map_append, h.parsed]
    exact congrArg _ (congrArg (· :: []) hget)

/-- A packet of the callers' is lost. -/
theorem Mirrors.lose (h : Mirrors ⟨q, ref :: refs⟩ ⟨ps, p :: held, n⟩ xs lost) :
    Mirrors ⟨q, refs⟩ ⟨ps, held, n + 1⟩ xs (ref :: lost) where
  represents := h.represents
  entries := h.entries
  packets := h.packets.perm (List.perm_middle.symm.append_left _)
  parsed := h.parsed
  held := (List.cons.inj h.held).2
  lost := congrArg (· + 1) h.lost

/-- The first entry is taken out and freed, and its packet is the first of the callers'. -/
theorem Mirrors.exists_remove (h : Mirrors ⟨q, refs⟩ ⟨p :: ps, held, n⟩ xs lost) :
    ∃ x field xs' head heap, xs = x :: xs' ∧ q.head.tqhFirst = some x.1 ∧
      q.head.heap.get? x.1 = some ⟨x.2, field⟩ ∧
      field.tqeNext = DmrTailq.firstOr xs' none ∧ q.head.remove x.1 = some head ∧
      head.heap.get? x.1 = some ⟨x.2, field⟩ ∧ head.heap.free x.1 = some heap ∧
      q.packets.get? x.2 = some p ∧
      Mirrors ⟨{ q with head := { head with heap } }, x.2 :: refs⟩ ⟨ps, p :: held, n⟩ xs' lost := by
  cases xs with
  | nil => exact nomatch h.parsed
  | cons x xs' =>
    obtain ⟨hp, hps⟩ := List.cons.inj h.parsed
    obtain ⟨hx, -⟩ := h.represents.linked
    have hfst := (List.nodup_cons.mp h.represents.nodup).1
    obtain ⟨head, hremove, hrep, hun⟩ :=
      DmrTailq.Represents.exists_remove [] h.represents
    have hx' := (hun.2 x.1 hfst).trans hx
    have huse : head.heap.InUse (x.1 :: xs'.map Prod.fst) :=
      ⟨h.entries.nodup, hun.1.trans h.entries.live⟩
    obtain ⟨heap, hfree, huse', hsame⟩ := huse.exists_free
    refine ⟨x, _, xs', head, heap, rfl, h.represents.first, hx, rfl, hremove, hx', hfree, hp,
      hrep.congr hsame, huse', h.packets.perm List.perm_middle.symm, hps, ?_, h.lost⟩
    exact congrArg₂ List.cons hp h.held

/-- A queue that has nothing hands out nothing. -/
theorem Mirrors.shift_nil (h : Mirrors ⟨q, refs⟩ ⟨[], held, n⟩ xs lost) :
    q.shift = some (-1, none, q) := by
  obtain rfl : xs = [] := List.map_eq_nil_iff.mp (List.map_eq_nil_iff.mp h.parsed)
  rw [shift, h.represents.first]
  rfl

/-- Else the first packet goes to the caller. -/
theorem Mirrors.exists_shift (h : Mirrors ⟨q, refs⟩ ⟨p :: ps, held, n⟩ xs lost) :
    ∃ ref q' xs', q.shift = some (0, some ref, q') ∧ q'.packets.get? ref = some p ∧
      Mirrors ⟨q', ref :: refs⟩ ⟨ps, p :: held, n⟩ xs' lost := by
  obtain ⟨x, field, xs', head, heap, rfl, hfirst, -, -, hremove, hx, hfree, hp, h'⟩ :=
    h.exists_remove
  refine ⟨x.2, { q with head := { head with heap } }, xs', ?_, hp, h'⟩
  rw [shift]
  simp only [hfirst, hremove, hx, hfree, Option.bind_eq_bind, Option.bind_some, Option.pure_def]

/-- One packet after the other is freed, with its entry. -/
theorem Mirrors.exists_flushFrom (h : Mirrors ⟨q, refs⟩ ⟨ps, held, n⟩ xs lost) {fuel : ℕ}
    (hfuel : ps.length ≤ fuel) :
    ∃ q', q.flushFrom fuel (DmrTailq.firstOr xs none) = some q' ∧
      Mirrors ⟨q', refs⟩ ⟨[], held, n⟩ [] lost := by
  induction ps generalizing q xs fuel with
  | nil =>
    obtain rfl : xs = [] := List.map_eq_nil_iff.mp (List.map_eq_nil_iff.mp h.parsed)
    exact ⟨q, by cases fuel <;> rfl, h⟩
  | cons p ps ih =>
    obtain ⟨fuel, rfl⟩ : ∃ n, fuel = n + 1 := ⟨fuel - 1, by simp at hfuel; omega⟩
    obtain ⟨x, field, xs', head, heap, rfl, -, hx, hnext, hremove, hx', hfree, hp, h'⟩ :=
      h.exists_remove
    obtain ⟨packets, hpackets, h''⟩ := h'.exists_free (.refl _) (List.cons.inj h'.held).2
    rw [List.length_cons] at hfuel
    have hlength : ps.length ≤ fuel := by omega
    obtain ⟨q', hflush, hq'⟩ := ih h'' hlength
    refine ⟨q', ?_, hq'⟩
    have hpackets' : q.packets.free x.2 = some packets := hpackets
    show q.flushFrom (fuel + 1) (some x.1) = _
    rw [flushFrom, hx]
    simp only [Option.bind_eq_bind, Option.bind_some, hremove, hx', hpackets', hfree, hnext]
    exact hflush

end Moves

/-! ## Loops

A loop over the queue calls back for each packet in turn, until a callback returns something else
than 0.
-/

theorem forSafe_eq {β : Type} (arg : DmrParsedPacket → β) (cb : β → Int) {refs : List ℕ}
    {packets : Heap DmrParsedPacket} (h : (refs.map packets.get?) = ps.map some) :
    ∃ ret, DmrTailq.forSafe (fun ref => do
        let parsed ← packets.get? ref
        let ret := cb (arg parsed)
        return (arg parsed, if ret ≠ 0 then some ret else none)) refs =
      some ((visit cb (ps.map arg)).2, ret) ∧ ret.getD 0 = (visit cb (ps.map arg)).1 := by
  induction ps generalizing refs with
  | nil =>
    obtain rfl : refs = [] := List.map_eq_nil_iff.mp h
    exact ⟨none, rfl, rfl⟩
  | cons p ps ih =>
    cases refs with
    | nil => cases h
    | cons ref refs =>
      obtain ⟨hp, hps⟩ := List.cons.inj h
      obtain ⟨ret, hrest, hret⟩ := ih hps
      rw [DmrTailq.forSafe, hp, List.map_cons, visit]
      -- the walk goes on after a 0, and ends with any other value
      by_cases hcb : cb (arg p) = 0
      · refine ⟨ret, ?_, ?_⟩
        · simp only [hcb, ne_eq, not_true, if_false, Option.bind_eq_bind, Option.bind_some,
            Option.pure_def, Option.isSome_none, Bool.false_eq_true] at hrest ⊢
          rw [hrest]
          rfl
        · rw [if_neg (not_not.mpr hcb), hret]
      · refine ⟨some (cb (arg p)), ?_, ?_⟩
        · simp [hcb]
        · rw [if_pos hcb]
          rfl

theorem Mirrors.foreachWith_eq {β : Type} (h : Mirrors u ⟨ps, held, n⟩ xs lost)
    (arg : DmrParsedPacket → β) (cb : β → Int) :
    u.q.foreachWith arg cb = some (visit cb (ps.map arg)) := by
  have hfirst := h.represents.first
  rw [foreachWith]
  cases xs with
  | nil =>
    obtain rfl : ps = [] := List.map_eq_nil_iff.mp h.parsed.symm
    rw [if_pos (by rw [hfirst]; rfl)]
    rfl
  | cons x xs =>
    have hloop := DmrTailq.Represents.foreachSafe_eq [] h.represents (fun ref => do
      let parsed ← u.q.packets.get? ref
      let ret := cb (arg parsed)
      return (arg parsed, if ret ≠ 0 then some ret else none)) h.represents.length_le
    obtain ⟨ret, hseen, hret⟩ := forSafe_eq arg cb h.parsed
    rw [if_neg (by rw [hfirst]; exact Bool.false_ne_true), hfirst]
    refine (congrArg (Option.bind · _) (hloop.trans hseen)).trans ?_
    show some (ret.getD 0, _) = _
    rw [hret]

/-! ## Calls and runs -/

/-- A copy is added, or lost. -/
theorem Mirrors.exists_addPacket {w : Waiting} (h : Mirrors u w xs lost) (A B : Allocator)
    (mem : PacketqMemory) (packet : DmrPacket) :
    ∃ q' xs' lost',
      u.q.addPacket A B mem packet = some ((w.step (.addPacket mem packet)).1.ret, q') ∧
      Mirrors ⟨q', u.held⟩ (w.step (.addPacket mem packet)).2 xs' lost' := by
  obtain ⟨ps, held, n⟩ := w
  rw [addPacket, Waiting.step]
  cases mem.parsed with
  | false => exact ⟨u.q, xs, lost, rfl, h⟩
  | true =>
    have halloc := h.alloc B { DmrParsedPacket.zero with packet }
    cases hmem : mem.entry with
    | false =>
      refine ⟨_, xs, _, ?_, halloc.lose⟩
      rw [if_pos rfl, add, hmem]
      rfl
    | true =>
      obtain ⟨q', xs', hadd, h'⟩ := halloc.exists_add (.refl _) (List.cons.inj halloc.held).2
        (Heap.get?_alloc_self B u.q.packets _) A hmem
      exact ⟨q', xs', lost, hadd, h'⟩

theorem Mirrors.exists_step {w : Waiting} (h : Mirrors u w xs lost) (A B : Allocator)
    (call : Call) :
    ∃ u' xs' lost', step A B u call = some ((w.step call).1, u') ∧
      Mirrors u' (w.step call).2 xs' lost' := by
  obtain ⟨ps, held, n⟩ := w
  cases call with
  | alloc parsed => exact ⟨_, xs, lost, rfl, h.alloc B parsed⟩
  | free i =>
    rw [step, Waiting.step]
    -- the caller has a packet of this number, or there is none
    obtain ⟨hnone, -, herase⟩ | ⟨ref, p, href, -, -, hperm, hheld⟩ := Heap.held_cases h.held i
    · rw [hnone]
      refine ⟨u, xs, lost, rfl, ?_⟩
      show Mirrors u ⟨ps, held.eraseIdx i, n⟩ xs lost
      rwa [herase]
    · obtain ⟨packets, hfree, h'⟩ := h.exists_free hperm hheld
      refine ⟨_, xs, lost, ?_, h'⟩
      simp only [href, hfree, Option.bind_eq_bind, Option.bind_some, Option.pure_def]
  | add mem i =>
    rw [step, Waiting.step]
    obtain ⟨hnone, hnone', -⟩ | ⟨ref, p, href, hp, hget, hperm, hheld⟩ := Heap.held_cases h.held i
    · simp only [hnone, hnone']
      exact ⟨u, xs, lost, rfl, h⟩
    · simp only [href, hp]
      -- without memory for an entry the packet stays with the caller
      cases hmem : mem.entry with
      | false =>
        refine ⟨u, xs, lost, ?_, h⟩
        rw [add, hmem]
        rfl
      | true =>
        obtain ⟨q', xs', hadd, h'⟩ := h.exists_add hperm hheld hget A hmem
        refine ⟨_, xs', lost, ?_, h'⟩
        rw [hadd]
        rfl
  | addPacket mem packet =>
    obtain ⟨q', xs', lost', hadd, h'⟩ := h.exists_addPacket A B mem packet
    refine ⟨_, xs', lost', ?_, h'⟩
    rw [step, hadd, Waiting.step]
    cases mem.parsed <;> cases mem.entry <;> rfl
  | shift =>
    cases ps with
    | nil =>
      refine ⟨u, xs, lost, ?_, h⟩
      rw [step, h.shift_nil]
      rfl
    | cons p ps =>
      obtain ⟨ref, q', xs', hshift, hp, h'⟩ := h.exists_shift
      refine ⟨_, xs', lost, ?_, h'⟩
      simp only [step, hshift, hp, Option.bind_eq_bind, Option.bind_some, Option.pure_def]
      rfl
  | shiftPacket =>
    cases ps with
    | nil =>
      refine ⟨u, xs, lost, ?_, h⟩
      rw [step, shiftPacket, h.shift_nil]
      rfl
    | cons p ps =>
      obtain ⟨ref, q', xs', hshift, hp, h'⟩ := h.exists_shift
      -- `dmr_packetq_shift_packet` frees what was queued, and returns a copy
      obtain ⟨packets, hfree, h''⟩ := h'.exists_free (.refl _) (List.cons.inj h'.held).2
      refine ⟨_, xs', lost, ?_, h''⟩
      simp only [step, shiftPacket, hshift, hp, hfree, Option.bind_eq_bind, Option.bind_some,
        Option.pure_def]
      rfl
  | flush =>
    have hlength : ps.length ≤ u.q.head.fuel := by
      have hxs := congrArg List.length h.parsed
      rw [List.length_map, List.length_map, List.length_map] at hxs
      exact hxs ▸ h.represents.length_le
    obtain ⟨q', hflush, h'⟩ := h.exists_flushFrom hlength
    refine ⟨_, [], lost, ?_, h'⟩
    rw [step, flush, h.represents.first, hflush]
    rfl
  | foreach cb =>
    refine ⟨u, xs, lost, ?_, h⟩
    rw [step, foreach, h.foreachWith_eq, Waiting.step, List.map_id']
    rfl
  | foreachPacket cb =>
    refine ⟨u, xs, lost, ?_, h⟩
    rw [step, foreachPacket, h.foreachWith_eq, Waiting.step]
    rfl

theorem Mirrors.exists_run {w : Waiting} (h : Mirrors u w xs lost) (A B : Allocator)
    (calls : List Call) :
    ∃ u' xs' lost', run A B u calls = some ((w.run calls).1, u') ∧
      Mirrors u' (w.run calls).2 xs' lost' := by
  induction calls generalizing u w xs lost with
  | nil => exact ⟨u, xs, lost, rfl, h⟩
  | cons call calls ih =>
    obtain ⟨u₁, xs₁, lost₁, hstep, h₁⟩ := h.exists_step A B call
    obtain ⟨u₂, xs₂, lost₂, hrun, h₂⟩ := ih h₁
    refine ⟨u₂, xs₂, lost₂, ?_, h₂⟩
    simp only [run, hstep, hrun, Option.bind_eq_bind, Option.bind_some]
    rfl

/-- **The queue does what a list does.** In every order of calls, whichever references the
allocators hand out and whichever allocations fail, no call follows a pointer to nothing or to
what was freed, nothing is freed twice and every loop comes to an end, and the calls return what
they return for a list of packets, first in first out. Afterwards the entries in memory are those
that link the packets of the list, and the packets in memory are these, those that the callers
have, and the copies for which `dmr_packetq_add_packet` had no entry. -/
theorem packetq_refines (A B : Allocator) (calls : List Call) :
    ∃ u xs lost, run A B ⟨new, []⟩ calls = some ((Waiting.run ⟨[], [], 0⟩ calls).1, u) ∧
      Mirrors u (Waiting.run ⟨[], [], 0⟩ calls).2 xs lost :=
  mirrors_new.exists_run A B calls

end DmrPacketq

end Dmrlib
