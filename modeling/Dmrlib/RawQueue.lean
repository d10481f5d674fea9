import Dmrlib.Queue
import Dmrlib.Raw

/-!
# Queues of raw buffers (`src/dmr/raw.c`)

The buffers themselves are the elements of the queue: adding one writes its links, and taking it
out leaves it with the caller, who may keep it, put it back at the front or free it. With a limit
other than 0 the queue refuses what would go beyond it; the size is counted each time. A buffer
that is refused stays with who tried to add it, but `dmr_rawq_addb` has made its copy itself, and
when that is refused nobody has it.

- `add`, `addb`, `unshift`, `shift`, `elems`, `size`, `empty`: the functions, over a tail queue
  whose heap has the buffers.
- `Usage`, `step`, `run`: calls by callers that hold buffers of their own.
- `Waiting`: the same calls on lists.
- `Mirrors`: how the two correspond; which buffers are in memory is part of it.
- `rawq_refines`: the correspondence over every run.
-/

namespace Dmrlib

/-- `dmr_rawq`: `head` with the heap that the buffers are in. -/
structure DmrRawq where
  head : DmrTailq DmrRaw
  limit : Nat

namespace DmrRawq

/-- `dmr_rawq_new`, where the allocation succeeds. -/
def new (limit : Nat) : DmrRawq := ⟨.init, limit⟩

/-- What the loops of `dmr_rawq_each` and `dmr_rawq_size` come to. -/
def elems (rawq : DmrRawq) : Option (List DmrRaw) :=
  (rawq.head.foreachSafe (γ := Empty) (fun raw => some (raw, none)) rawq.head.fuel
    rawq.head.tqhFirst).map (·.1)

/-- `dmr_rawq_empty` -/
def empty (rawq : DmrRawq) : Bool := rawq.head.tqhFirst.isNone

/-- `dmr_rawq_size` -/
def size (rawq : DmrRawq) : Option Nat := rawq.elems.map List.length

/-- `rawq->limit == 0 || dmr_rawq_size(rawq) < rawq->limit` -/
def hasRoom (rawq : DmrRawq) : Option Bool :=
  if rawq.limit = 0 then some true else rawq.size.map (· < rawq.limit)

/-- What `dmr_rawq_add` and `dmr_rawq_unshift` share. -/
def addWith (insert : DmrTailq DmrRaw → Nat → Option (DmrTailq DmrRaw)) (rawq : DmrRawq)
    (raw : Option Nat) : Option (Int × DmrRawq) :=
  match raw with
  | none => some (-1, rawq)
  | some raw => do
    if ← rawq.hasRoom then
      let head ← insert rawq.head raw
      return (0, { rawq with head })
    else
      return (-1, rawq)

/-- `dmr_rawq_add` -/
def add (rawq : DmrRawq) (raw : Option Nat) : Option (Int × DmrRawq) :=
  rawq.addWith DmrTailq.insertTail raw

/-- `dmr_rawq_unshift` -/
def unshift (rawq : DmrRawq) (raw : Option Nat) : Option (Int × DmrRawq) :=
  rawq.addWith DmrTailq.insertHead raw

/-- A buffer on the heap. -/
def alloc (A : Allocator) (rawq : DmrRawq) (raw : DmrRaw) : Nat × DmrRawq :=
  let ref := rawq.head.heap.alloc A ⟨raw, ⟨none, none⟩⟩
  (ref.1, { rawq with head := { rawq.head with heap := ref.2 } })

/-- `dmr_raw_free` -/
def free (rawq : DmrRawq) (raw : Nat) : Option DmrRawq := do
  let heap ← rawq.head.heap.free raw
  return { rawq with head := { rawq.head with heap } }

/-- What the buffer at `raw` holds. -/
def raw? (rawq : DmrRawq) (raw : Nat) : Option DmrRaw := (rawq.head.heap.get? raw).map (·.val)

theorem raw?_congr {rawq rawq' : DmrRawq} {raw : Nat}
    (h : rawq'.head.heap.get? raw = rawq.head.heap.get? raw) : rawq'.raw? raw = rawq.raw? raw := by
  rw [raw?, raw?, h]

/-- `dmr_rawq_addb`. A copy that is not added stays where it is, and nothing points at it. -/
def addb (A : Allocator) (allocated : Bool) (rawq : DmrRawq) (buf : List UInt8) :
    Option (Int × DmrRawq) :=
  match dmrRawNew allocated buf.length with
  | none => some (-1, rawq)
  | some raw =>
    let ref := alloc A rawq ⟨raw.put buf, buf.length⟩
    ref.2.add ref.1

/-- `dmr_rawq_shift` -/
def shift (rawq : DmrRawq) : Option (Option Nat × DmrRawq) :=
  match rawq.head.tqhFirst with
  | none => some (none, rawq)
  | some raw => do
    let head ← rawq.head.remove raw
    return (some raw, { rawq with head })

/-! ## Calls -/

/-- The queue, and the buffers that its callers have: those that they have allocated, and those
that they were given. -/
structure Usage where
  rawq : DmrRawq
  held : List Nat

/-- A call. Of the callers' buffers the `i`-th is meant; where there are not as many, it is
`NULL`. -/
inductive Call where
  /-- `dmr_raw_new`, and what the caller puts into the buffer -/
  | alloc (raw : DmrRaw)
  /-- `dmr_raw_free` -/
  | free (i : Nat)
  | add (i : Nat)
  | addb (allocated : Bool) (buf : List UInt8)
  | unshift (i : Nat)
  | shift
  | each
  | size
  | empty

/-- What a call returns: a number, and the buffers that its caller or its callback sees. -/
structure Reply where
  ret : Int
  raws : List DmrRaw

def step (A : Allocator) (u : Usage) : Call → Option (Reply × Usage)
  | .alloc raw =>
    let ref := alloc A u.rawq raw
    some (⟨0, []⟩, ⟨ref.2, ref.1 :: u.held⟩)
  | .free i =>
    match u.held[i]? with
    | none => some (⟨0, []⟩, u)
    | some raw => do
      let rawq ← u.rawq.free raw
      return (⟨0, []⟩, ⟨rawq, u.held.eraseIdx i⟩)
  | .add i => do
    let (ret, rawq) ← u.rawq.add u.held[i]?
    return (⟨ret, []⟩, ⟨rawq, if ret = 0 then u.held.eraseIdx i else u.held⟩)
  | .addb allocated buf => do
    let (ret, rawq) ← u.rawq.addb A allocated buf
    return (⟨ret, []⟩, { u with rawq })
  | .unshift i => do
    let (ret, rawq) ← u.rawq.unshift u.held[i]?
    return (⟨ret, []⟩, ⟨rawq, if ret = 0 then u.held.eraseIdx i else u.held⟩)
  | .shift => do
    let (ref, rawq) ← u.rawq.shift
    match ref with
    | none => return (⟨0, []⟩, { u with rawq })
    | some ref =>
      let raw ← rawq.raw? ref
      return (⟨0, [raw]⟩, ⟨rawq, ref :: u.held⟩)
  | .each => do
    let raws ← u.rawq.elems
    return (⟨0, raws⟩, u)
  | .size => do
    let size ← u.rawq.size
    return (⟨size, []⟩, u)
  | .empty => some (⟨if u.rawq.empty then 1 else 0, []⟩, u)

def run (A : Allocator) : Usage → List Call → Option (List Reply × Usage)
  | u, [] => some ([], u)
  | u, call :: calls => do
    let (reply, u) ← step A u call
    let (replies, u) ← run A u calls
    return (reply :: replies, u)

/-! ## The list

What the calls do when nothing is said of memory: a list of buffers, those that the caller has, and
a count of those that nobody has any more.
-/

/-- The buffers that wait, those that the callers have, and how many copies are lost. -/
structure Waiting where
  raws : List DmrRaw
  held : List DmrRaw
  lost : Nat

/-- The buffer that `dmr_rawq_addb` makes of `buf`. -/
def copyOf (buf : List UInt8) : DmrRaw :=
  ⟨buf ++ List.replicate (roundUp buf.length - buf.length) 0, buf.length⟩

/-- One more buffer may wait. -/
def Waiting.HasRoom (limit : Nat) (w : Waiting) : Prop := limit = 0 ∨ w.raws.length < limit

instance (limit : Nat) (w : Waiting) : Decidable (w.HasRoom limit) :=
  inferInstanceAs (Decidable (_ ∨ _))

/-- The caller's `i`-th buffer goes to where `insert` puts it, or stays. -/
def Waiting.addWith (insert : DmrRaw → List DmrRaw → List DmrRaw) (limit : Nat) (w : Waiting)
    (i : Nat) : Reply × Waiting :=
  match w.held[i]? with
  | none => (⟨-1, []⟩, w)
  | some raw =>
    if w.HasRoom limit then
      (⟨0, []⟩, { w with raws := insert raw w.raws, held := w.held.eraseIdx i })
    else
      (⟨-1, []⟩, w)

def Waiting.step (limit : Nat) (w : Waiting) : Call → Reply × Waiting
  | .alloc raw => (⟨0, []⟩, { w with held := raw :: w.held })
  | .free i => (⟨0, []⟩, { w with held := w.held.eraseIdx i })
  | .add i => w.addWith (fun raw raws => raws ++ [raw]) limit i
  | .addb allocated buf =>
    if !allocated then (⟨-1, []⟩, w)
    else if w.HasRoom limit then (⟨0, []⟩, { w with raws := w.raws ++ [copyOf buf] })
    else (⟨-1, []⟩, { w with lost := w.lost + 1 })
  | .unshift i => w.addWith (fun raw raws => raw :: raws) limit i
  | .shift =>
    match w.raws with
    | [] => (⟨0, []⟩, w)
    | raw :: raws => (⟨0, [raw]⟩, { w with raws, held := raw :: w.held })
  | .each => (⟨0, w.raws⟩, w)
  | .size => (⟨w.raws.length, []⟩, w)
  | .empty => (⟨if w.raws.isEmpty then 1 else 0, []⟩, w)

def Waiting.run (limit : Nat) : Waiting → List Call → List Reply × Waiting
  | w, [] => ([], w)
  | w, call :: calls =>
    let (reply, w) := w.step limit call
    let (replies, w) := w.run limit calls
    (reply :: replies, w)

/-! ## The buffers and the list

The buffers of the queue are its elements. Each buffer that is alive is linked, or the caller's,
or leaked.
-/

/-- The queue has the buffers that wait, in order and not too many: `xs` are where they are and
what they hold. The callers have theirs, and `lost` are the copies that nothing points at. There
are no other buffers in memory, and none of them is in two of these places. -/
structure Mirrors (limit : ℕ) (u : Usage) (w : Waiting) (xs : List (ℕ × DmrRaw))
    (lost : List ℕ) : Prop where
  represents : u.rawq.head.Represents xs
  inUse : u.rawq.head.heap.InUse (xs.map Prod.fst ++ (u.held ++ lost))
  raws : xs.map Prod.snd = w.raws
  held : u.held.map u.rawq.raw? = w.held.map some
  lost : lost.length = w.lost
  limited : u.rawq.limit = limit
  room : limit ≠ 0 → w.raws.length ≤ limit

theorem mirrors_new (limit : ℕ) : Mirrors limit ⟨new limit, []⟩ ⟨[], [], 0⟩ [] [] :=
  ⟨DmrTailq.represents_init, Heap.inUse_empty, rfl, rfl, rfl, rfl, fun _ => Nat.zero_le _⟩

variable {limit : ℕ} {u : Usage} {w : Waiting} {raws held : List DmrRaw} {n : ℕ}
  {xs : List (ℕ × DmrRaw)} {lost : List ℕ}

/-! ## Loops -/

theorem forSafe_eq (raws : List DmrRaw) :
    DmrTailq.forSafe (γ := Empty) (fun raw => some (raw, none)) raws = some (raws, none) := by
  induction raws with
  | nil => rfl
  | cons raw raws ih =>
    simp only [DmrTailq.forSafe, ih, Option.bind_eq_bind, Option.bind_some]
    rfl

theorem Mirrors.elems_eq (h : Mirrors limit u w xs lost) : u.rawq.elems = some w.raws := by
  have hloop := DmrTailq.Represents.foreachSafe_eq (γ := Empty) [] h.represents
    (fun raw => some (raw, none)) h.represents.length_le
  rw [elems, h.represents.first, hloop, h.raws, forSafe_eq]
  rfl

theorem Mirrors.hasRoom_eq (h : Mirrors limit u w xs lost) :
    u.rawq.hasRoom = some (decide (w.HasRoom limit)) := by
  rw [hasRoom, size, h.elems_eq, h.limited]
  by_cases hlimit : limit = 0
  · simp [hlimit, Waiting.HasRoom]
  · simp [hlimit, Waiting.HasRoom]

/-! ## Where the buffers go

What each call does to the three lists of references.
-/

/-- One more buffer in memory, which is the first of the callers'. -/
theorem Mirrors.alloc (h : Mirrors limit u ⟨raws, held, n⟩ xs lost) (A : Allocator)
    (raw : DmrRaw) :
    Mirrors limit ⟨(alloc A u.rawq raw).2, (alloc A u.rawq raw).1 :: u.held⟩
      ⟨raws, raw :: held, n⟩ xs lost := by
  have hext := Heap.extends_alloc A u.rawq.head.heap ⟨raw, ⟨none, none⟩⟩
  refine ⟨h.represents.extends hext, (h.inUse.alloc A _).perm List.perm_middle.symm, h.raws, ?_,
    h.lost, h.limited, h.room⟩
  rw [List.map_cons, List.map_cons]
  refine congrArg₂ List.cons ?_ ?_
  · exact congrArg (Option.map (·.val)) (Heap.get?_alloc_self A u.rawq.head.heap _)
  · refine Heap.map_get?_congr h.held fun r hr => ?_
    obtain ⟨e, he⟩ := h.inUse.exists_get (List.mem_append_right _ (List.mem_append_left _ hr))
    exact raw?_congr ((hext r e he).trans he.symm)

section Moves

variable {rawq : DmrRawq} {ref : ℕ} {refs refs' : List ℕ} {raw : DmrRaw} {held' : List DmrRaw}

/-- A buffer of the callers' is freed. -/
theorem Mirrors.exists_free (h : Mirrors limit ⟨rawq, refs⟩ ⟨raws, held, n⟩ xs lost)
    (hperm : refs.Perm (ref :: refs')) (hheld : refs'.map rawq.raw? = held'.map some) :
    ∃ rawq', rawq.free ref = some rawq' ∧
      Mirrors limit ⟨rawq', refs'⟩ ⟨raws, held', n⟩ xs lost := by
  have huse : rawq.head.heap.InUse (ref :: (xs.map Prod.fst ++ (refs' ++ lost))) :=
    h.inUse.perm (((hperm.append_right lost).append_left _).trans List.perm_middle)
  obtain ⟨heap, hfree, huse', hsame⟩ := huse.exists_free
  refine ⟨{ rawq with head := { rawq.head with heap } }, ?_, ?_, huse', h.raws, ?_, h.lost,
    h.limited, h.room⟩
  · rw [free, hfree]
    rfl
  · exact h.represents.congr fun r hr => hsame r (List.mem_append_left _ hr)
  · refine Heap.map_get?_congr hheld fun r hr => ?_
    exact raw?_congr (hsame r (List.mem_append_right _ (List.mem_append_left _ hr)))

/-- A buffer of the callers' goes to the queue, where `insert` puts it. -/
theorem Mirrors.exists_addWith (h : Mirrors limit ⟨rawq, refs⟩ ⟨raws, held, n⟩ xs lost)
    (hperm : refs.Perm (ref :: refs')) (hheld : refs'.map rawq.raw? = held'.map some)
    (hroom : Waiting.HasRoom limit ⟨raws, held, n⟩)
    {insert : DmrTailq DmrRaw → Nat → Option (DmrTailq DmrRaw)} {head : DmrTailq DmrRaw}
    {xs' : List (ℕ × DmrRaw)} (hinsert : insert rawq.head ref = some head)
    (hrep : head.Represents xs') (hun : rawq.head.Unchanged head (ref :: xs.map Prod.fst))
    (hxs' : xs'.Perm ((ref, raw) :: xs)) :
    ∃ rawq', rawq.addWith insert (some ref) = some (0, rawq') ∧
      Mirrors limit ⟨rawq', refs'⟩ ⟨xs'.map Prod.snd, held', n⟩ xs' lost := by
  -- the buffer changes hands: it leaves the caller's and joins the queue
  have huse : rawq.head.heap.InUse (xs'.map Prod.fst ++ (refs' ++ lost)) := by
    refine h.inUse.perm ?_
    calc xs.map Prod.fst ++ (refs ++ lost)
        |>.Perm (xs.map Prod.fst ++ (ref :: refs' ++ lost)) :=
          (hperm.append_right lost).append_left _
      _ |>.Perm (((ref, raw) :: xs).map Prod.fst ++ (refs' ++ lost)) := List.perm_middle
      _ |>.Perm (xs'.map Prod.fst ++ (refs' ++ lost)) :=
          (hxs'.symm.map Prod.fst).append_right _
  -- the others that the caller has are not linked, so nothing was stored to them
  have hsame : ∀ r ∈ refs', head.heap.get? r = rawq.head.heap.get? r := by
    intro r hr
    refine hun.2 r fun hmem => ?_
    have hmem' : r ∈ xs'.map Prod.fst := (hxs'.map Prod.fst).mem_iff.mpr hmem
    exact List.disjoint_of_nodup_append huse.nodup hmem' (List.mem_append_left _ hr)
  refine ⟨{ rawq with head }, ?_, hrep, ⟨huse.nodup, hun.1.trans huse.live⟩, rfl, ?_, h.lost,
    h.limited, fun hlimit => ?_⟩
  · have hroom' : rawq.hasRoom = some true := h.hasRoom_eq.trans (by rw [decide_eq_true hroom])
    simp only [addWith, hroom', hinsert, Option.bind_eq_bind, Option.bind_some, if_true]
    rfl
  · exact Heap.map_get?_congr hheld fun r hr => raw?_congr (hsame r hr)
  · have hlt : raws.length < limit := hroom.resolve_left hlimit
    have hlength : (xs.map Prod.snd).length = raws.length := congrArg List.length h.raws
    rw [List.length_map] at hlength
    show (xs'.map Prod.snd).length ≤ limit
    rw [List.length_map, hxs'.length_eq, List.length_cons, hlength]
    exact hlt

/-- What the callers have is in memory, and not in the queue. -/
theorem Mirrors.exists_get (h : Mirrors limit ⟨rawq, refs⟩ ⟨raws, held, n⟩ xs lost)
    (hperm : refs.Perm (ref :: refs')) (hget : rawq.raw? ref = some raw) :
    ∃ field, rawq.head.heap.get? ref = some ⟨raw, field⟩ ∧ ref ∉ xs.map Prod.fst := by
  obtain ⟨e, he, rfl⟩ := Option.map_eq_some_iff.mp hget
  refine ⟨e.field, he, fun hmem => ?_⟩
  have href : ref ∈ refs := hperm.mem_iff.mpr List.mem_cons_self
  exact List.disjoint_of_nodup_append h.inUse.nodup hmem (List.mem_append_left _ href)

theorem Mirrors.exists_add (h : Mirrors limit ⟨rawq, refs⟩ ⟨raws, held, n⟩ xs lost)
    (hperm : refs.Perm (ref :: refs')) (hheld : refs'.map rawq.raw? = held'.map some)
    (hroom : Waiting.HasRoom limit ⟨raws, held, n⟩) (hget : rawq.raw? ref = some raw) :
    ∃ rawq' xs', rawq.add (some ref) = some (0, rawq') ∧
      Mirrors limit ⟨rawq', refs'⟩ ⟨raws ++ [raw], held', n⟩ xs' lost := by
  obtain ⟨field, he, hnew⟩ := h.exists_get hperm hget
  obtain ⟨head, hinsert, hrep, hun⟩ := h.represents.exists_insertTail he hnew
  obtain ⟨rawq', hadd, h'⟩ := h.exists_addWith hperm hheld hroom hinsert hrep hun
    (List.perm_append_singleton _ _)
  rw [List.map_append, h.raws] at h'
  exact ⟨rawq', _, hadd, h'⟩

theorem Mirrors.exists_unshift (h : Mirrors limit ⟨rawq, refs⟩ ⟨raws, held, n⟩ xs lost)
    (hperm : refs.Perm (ref :: refs')) (hheld : refs'.map rawq.raw? = held'.map some)
    (hroom : Waiting.HasRoom limit ⟨raws, held, n⟩) (hget : rawq.raw? ref = some raw) :
    ∃ rawq' xs', rawq.unshift (some ref) = some (0, rawq') ∧
      Mirrors limit ⟨rawq', refs'⟩ ⟨raw :: raws, held', n⟩ xs' lost := by
  obtain ⟨field, he, hnew⟩ := h.exists_get hperm hget
  obtain ⟨head, hinsert, hrep, hun⟩ := h.represents.exists_insertHead he hnew
  obtain ⟨rawq', hadd, h'⟩ := h.exists_addWith hperm hheld hroom hinsert hrep hun (.refl _)
  rw [List.map_cons, h.raws] at h'
  exact ⟨rawq', _, hadd, h'⟩

/-- A queue that has nothing hands out `NULL`. -/
theorem Mirrors.shift_nil (h : Mirrors limit ⟨rawq, refs⟩ ⟨[], held, n⟩ xs lost) :
    rawq.shift = some (none, rawq) := by
  obtain rfl : xs = [] := List.map_eq_nil_iff.mp h.raws
  rw [shift, h.represents.first]
  rfl

/-- Else the first buffer leaves the queue and is the caller's. -/
theorem Mirrors.exists_shift (h : Mirrors limit ⟨rawq, refs⟩ ⟨raw :: raws, held, n⟩ xs lost) :
    ∃ ref rawq' xs', rawq.shift = some (some ref, rawq') ∧ rawq'.raw? ref = some raw ∧
      Mirrors limit ⟨rawq', ref :: refs⟩ ⟨raws, raw :: held, n⟩ xs' lost := by
  cases xs with
  | nil => exact nomatch h.raws
  | cons x xs =>
    obtain ⟨rfl, hraws⟩ := List.cons.inj h.raws
    obtain ⟨head, hremove, hrep, hun⟩ := DmrTailq.Represents.exists_remove [] h.represents
    have hx := (hun.2 x.1 (List.nodup_cons.mp h.represents.nodup).1).trans h.represents.linked.1
    have hget : raw? { rawq with head } x.1 = some x.2 := by
      rw [raw?, hx]
      rfl
    refine ⟨x.1, { rawq with head }, xs, ?_, hget, hrep, ?_, hraws, ?_, h.lost, h.limited,
      fun hlimit => ?_⟩
    · rw [shift, h.represents.first]
      show (rawq.head.remove x.1).bind _ = _
      rw [hremove]
      rfl
    · exact Heap.InUse.perm ⟨h.inUse.nodup, hun.1.trans h.inUse.live⟩ List.perm_middle.symm
    · refine congrArg₂ List.cons hget (Heap.map_get?_congr h.held fun r hr => ?_)
      refine raw?_congr (hun.2 r fun hmem => ?_)
      exact List.disjoint_of_nodup_append h.inUse.nodup (List.mem_cons_of_mem _ hmem)
        (List.mem_append_left _ hr)
    · exact (Nat.le_succ _).trans (h.room hlimit)

/-- A full queue takes no buffer. -/
theorem Mirrors.addWith_of_full (h : Mirrors limit ⟨rawq, refs⟩ w xs lost)
    (hroom : ¬ w.HasRoom limit)
    (insert : DmrTailq DmrRaw → Nat → Option (DmrTailq DmrRaw)) :
    rawq.addWith insert (some ref) = some (-1, rawq) := by
  have hroom' : rawq.hasRoom = some false := h.hasRoom_eq.trans (by rw [decide_eq_false hroom])
  simp only [addWith, hroom', Option.bind_eq_bind, Option.bind_some, Bool.false_eq_true, if_false]
  rfl

/-- A buffer of the callers' is lost. -/
theorem Mirrors.lose (h : Mirrors limit ⟨rawq, ref :: refs⟩ ⟨raws, raw :: held, n⟩ xs lost) :
    Mirrors limit ⟨rawq, refs⟩ ⟨raws, held, n + 1⟩ xs (ref :: lost) where
  represents := h.represents
  inUse := h.inUse.perm (List.perm_middle.symm.append_left _)
  raws := h.raws
  held := (List.cons.inj h.held).2
  lost := congrArg (· + 1) h.lost
  limited := h.limited
  room := h.room

end Moves

/-! ## Calls and runs -/

/-- What the cases of `dmr_rawq_add` and `dmr_rawq_unshift` share: there is no such buffer, or
there is no room, or the buffer is inserted. -/
theorem Mirrors.exists_step_addWith (h : Mirrors limit u w xs lost) (i : ℕ)
    (insert : DmrTailq DmrRaw → Nat → Option (DmrTailq DmrRaw))
    (insert' : DmrRaw → List DmrRaw → List DmrRaw)
    (hinsert : ∀ ref raw, w.HasRoom limit → u.rawq.raw? ref = some raw →
      u.held.Perm (ref :: u.held.eraseIdx i) →
      (u.held.eraseIdx i).map u.rawq.raw? = (w.held.eraseIdx i).map some →
      ∃ rawq' xs', u.rawq.addWith insert (some ref) = some (0, rawq') ∧
        Mirrors limit ⟨rawq', u.held.eraseIdx i⟩ ⟨insert' raw w.raws, w.held.eraseIdx i, w.lost⟩
          xs' lost) :
    ∃ rawq' xs', u.rawq.addWith insert u.held[i]? =
        some ((w.addWith insert' limit i).1.ret, rawq') ∧
      (w.addWith insert' limit i).1.raws = [] ∧
      Mirrors limit
        ⟨rawq', if (w.addWith insert' limit i).1.ret = 0 then u.held.eraseIdx i else u.held⟩
        (w.addWith insert' limit i).2 xs' lost := by
  rw [Waiting.addWith]
  obtain ⟨hnone, hnone', -⟩ | ⟨ref, raw, href, hraw, hget, hperm, hheld⟩ :=
    Heap.held_cases h.held i
  · rw [hnone, hnone']
    exact ⟨u.rawq, xs, rfl, rfl, h⟩
  · rw [href, hraw]
    by_cases hroom : w.HasRoom limit
    · obtain ⟨rawq', xs', hadd, h'⟩ := hinsert ref raw hroom hget hperm hheld
      simp only [if_pos hroom]
      exact ⟨rawq', xs', hadd, trivial, h'⟩
    · simp only [if_neg hroom]
      exact ⟨u.rawq, xs, h.addWith_of_full hroom insert, trivial, h⟩

theorem reply_eq {reply : Reply} (h : reply.raws = []) : ⟨reply.ret, []⟩ = reply := by
  rw [← h]

/-- A copy is added, or lost. -/
theorem Mirrors.exists_addb (h : Mirrors limit u w xs lost) (A : Allocator) (allocated : Bool)
    (buf : List UInt8) :
    ∃ rawq' xs' lost', u.rawq.addb A allocated buf =
        some ((w.step limit (.addb allocated buf)).1.ret, rawq') ∧
      (w.step limit (.addb allocated buf)).1.raws = [] ∧
      Mirrors limit ⟨rawq', u.held⟩ (w.step limit (.addb allocated buf)).2 xs' lost' := by
  obtain ⟨raws, held, n⟩ := w
  rw [addb, Waiting.step]
  cases allocated with
  | false => exact ⟨u.rawq, xs, lost, rfl, rfl, h⟩
  | true =>
    have hcopy : (⟨(DmrRaw.mk (List.replicate (roundUp buf.length) 0) 0).put buf, buf.length⟩ :
        DmrRaw) = copyOf buf := by
      simp [DmrRaw.put, copyOf]
    have halloc := h.alloc A (copyOf buf)
    simp only [dmrRawNew, if_true, hcopy, Bool.not_true, Bool.false_eq_true, if_false]
    by_cases hroom : Waiting.HasRoom limit ⟨raws, held, n⟩
    · have hget := (List.cons.inj halloc.held).1
      obtain ⟨rawq', xs', hadd, h'⟩ := halloc.exists_add (.refl _) (List.cons.inj halloc.held).2
        hroom hget
      rw [if_pos hroom]
      exact ⟨rawq', xs', lost, hadd, rfl, h'⟩
    · rw [if_neg hroom]
      exact ⟨_, xs, _, halloc.addWith_of_full hroom _, rfl, halloc.lose⟩

theorem Mirrors.exists_step (h : Mirrors limit u w xs lost) (A : Allocator) (call : Call) :
    ∃ u' xs' lost', step A u call = some ((w.step limit call).1, u') ∧
      Mirrors limit u' (w.step limit call).2 xs' lost' := by
  obtain ⟨raws, held, n⟩ := w
  cases call with
  | alloc raw => exact ⟨_, xs, lost, rfl, h.alloc A raw⟩
  | free i =>
    rw [step, Waiting.step]
    -- the caller has a buffer of this number, or there is none
    obtain ⟨hnone, -, herase⟩ | ⟨ref, raw, href, -, -, hperm, hheld⟩ := Heap.held_cases h.held i
    · rw [hnone]
      refine ⟨u, xs, lost, rfl, ?_⟩
      show Mirrors limit u ⟨raws, held.eraseIdx i, n⟩ xs lost
      rwa [herase]
    · obtain ⟨rawq', hfree, h'⟩ := h.exists_free hperm hheld
      refine ⟨_, xs, lost, ?_, h'⟩
      simp only [href, hfree, Option.bind_eq_bind, Option.bind_some, Option.pure_def]
  | add i =>
    obtain ⟨rawq', xs', hadd, hreply, h'⟩ := h.exists_step_addWith i DmrTailq.insertTail
      (fun raw raws => raws ++ [raw])
      fun ref raw hroom hget hperm hheld => h.exists_add hperm hheld hroom hget
    refine ⟨_, xs', lost, ?_, h'⟩
    rw [step, add, hadd, Option.bind_eq_bind, Option.bind_some]
    exact congrArg (fun reply => some (reply, _)) (reply_eq hreply)
  | addb allocated buf =>
    obtain ⟨rawq', xs', lost', hadd, hreply, h'⟩ := h.exists_addb A allocated buf
    refine ⟨_, xs', lost', ?_, h'⟩
    rw [step, hadd, Option.bind_eq_bind, Option.bind_some]
    exact congrArg (fun reply => some (reply, _)) (reply_eq hreply)
  | unshift i =>
    obtain ⟨rawq', xs', hadd, hreply, h'⟩ := h.exists_step_addWith i DmrTailq.insertHead
      (fun raw raws => raw :: raws)
      fun ref raw hroom hget hperm hheld => h.exists_unshift hperm hheld hroom hget
    refine ⟨_, xs', lost, ?_, h'⟩
    rw [step, unshift, hadd, Option.bind_eq_bind, Option.bind_some]
    exact congrArg (fun reply => some (reply, _)) (reply_eq hreply)
  | shift =>
    cases raws with
    | nil =>
      refine ⟨u, xs, lost, ?_, h⟩
      rw [step, h.shift_nil]
      rfl
    | cons raw raws =>
      obtain ⟨ref, rawq', xs', hshift, hraw, h'⟩ := h.exists_shift
      refine ⟨_, xs', lost, ?_, h'⟩
      simp only [step, hshift, hraw, Option.bind_eq_bind, Option.bind_some, Option.pure_def]
      rfl
  | each =>
    refine ⟨u, xs, lost, ?_, h⟩
    rw [step, h.elems_eq]
    rfl
  | size =>
    refine ⟨u, xs, lost, ?_, h⟩
    rw [step, size, h.elems_eq]
    rfl
  | empty =>
    refine ⟨u, xs, lost, ?_, h⟩
    rw [step, empty, h.represents.first, Waiting.step, ← h.raws]
    cases xs <;> rfl

theorem Mirrors.exists_run (h : Mirrors limit u w xs lost) (A : Allocator) (calls : List Call) :
    ∃ u' xs' lost', run A u calls = some ((w.run limit calls).1, u') ∧
      Mirrors limit u' (w.run limit calls).2 xs' lost' := by
  induction calls generalizing u w xs lost with
  | nil => exact ⟨u, xs, lost, rfl, h⟩
  | cons call calls ih =>
    obtain ⟨u₁, xs₁, lost₁, hstep, h₁⟩ := h.exists_step A call
    obtain ⟨u₂, xs₂, lost₂, hrun, h₂⟩ := ih h₁
    refine ⟨u₂, xs₂, lost₂, ?_, h₂⟩
    simp only [run, hstep, hrun, Option.bind_eq_bind, Option.bind_some]
    rfl

/-- **A list with a limit.** In every order of calls, whichever references the allocator hands out
and whichever allocations fail, no call follows a pointer to nothing or to what was freed, nothing
is freed twice and every loop comes to an end; the calls return what they return for a list that
refuses to grow beyond the limit, and there are never more buffers in the queue than the limit
says, if it is not 0. Afterwards the buffers in memory are those in the queue, those that the
callers have, and the copies that `dmr_rawq_addb` made for a queue that was full. -/
theorem rawq_refines (A : Allocator) (limit : ℕ) (calls : List Call) :
    ∃ u xs lost,
      run A ⟨new limit, []⟩ calls = some ((Waiting.run limit ⟨[], [], 0⟩ calls).1, u) ∧
      Mirrors limit u (Waiting.run limit ⟨[], [], 0⟩ calls).2 xs lost :=
  (mirrors_new limit).exists_run A calls

end DmrRawq

end Dmrlib
