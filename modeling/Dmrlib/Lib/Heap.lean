import Mathlib

/-!
# Objects by reference

A heap holds finitely many objects, each known by its reference. An allocator hands out
any reference that is not in use, so also one that was in use before: nothing about a
reference shows that its object was freed and another one took its place. Freeing what is
not allocated is an error.

- `Heap.alloc`, `Heap.free`, `Heap.set`: what can be done to the objects.
- `Heap.Extends`: how a heap changes where nothing is freed. An object that is allocated and
  freed again leaves the heap as it was (`free_alloc`).
- `Heap.InUse`: which objects there are, as a list of references in any order. It grows with
  `alloc` and shrinks with `free`; where a reference goes from one owner to another it is
  permuted (`InUse.perm`).
- `Heap.map_get?_congr`, `Heap.held_cases`: what one owner's references hold.
-/

/-- Objects by reference, and the references in use. -/
structure Heap (α : Type*) where
  get? : ℕ → Option α
  live : Finset ℕ
  mem_live : ∀ r, r ∈ live ↔ (get? r).isSome = true

/-- How references are chosen. -/
structure Allocator where
  next : Finset ℕ → ℕ
  next_notMem : ∀ live, next live ∉ live

/-- The allocator that hands out the reference above all that are in use. -/
def Allocator.above : Allocator where
  next live := live.sup id + 1
  next_notMem live hmem := by
    have hle : live.sup id + 1 ≤ live.sup id := Finset.le_sup (f := id) hmem
    exact Nat.not_succ_le_self _ hle

namespace Heap

variable {α : Type*}

def empty : Heap α := ⟨fun _ => none, ∅, fun r => by simp⟩

/-- A new object: its reference, and the heap with it. -/
def alloc (A : Allocator) (h : Heap α) (v : α) : ℕ × Heap α :=
  (A.next h.live,
    { get? := Function.update h.get? (A.next h.live) (some v)
      live := insert (A.next h.live) h.live
      mem_live r := by
        by_cases hr : r = A.next h.live
        · simp [hr]
        · simp [hr, h.mem_live] })

/-- The heap without the object at `r`. -/
def free (h : Heap α) (r : ℕ) : Option (Heap α) :=
  if r ∈ h.live then
    some
      { get? := Function.update h.get? r none
        live := h.live.erase r
        mem_live r' := by
          by_cases hr : r' = r
          · simp [hr]
          · simp [hr, h.mem_live] }
  else none

/-- A store to the object at `r`, if there is one. -/
def set (h : Heap α) (r : ℕ) (v : α) : Heap α where
  get? := if r ∈ h.live then Function.update h.get? r (some v) else h.get?
  live := h.live
  mem_live r' := by
    split
    · next hlive =>
      by_cases hr : r' = r
      · simp [hr, hlive]
      · simp [hr, h.mem_live]
    · exact h.mem_live r'

theorem get?_set {h : Heap α} {r : ℕ} {w : α} (hr : h.get? r = some w) (v : α) :
    (h.set r v).get? = Function.update h.get? r (some v) :=
  if_pos ((h.mem_live r).mpr (by rw [hr]; rfl))

/-- A heap is determined by its objects. -/
theorem ext_get? {h h' : Heap α} (heq : h.get? = h'.get?) : h = h' := by
  obtain ⟨get, live, hlive⟩ := h
  obtain ⟨get', live', hlive'⟩ := h'
  obtain rfl : get = get' := heq
  obtain rfl : live = live' := by
    ext r
    rw [hlive, hlive']
  rfl

theorem notMem_live {h : Heap α} {r : ℕ} : r ∉ h.live ↔ h.get? r = none := by
  rw [h.mem_live, Bool.not_eq_true, Option.isSome_eq_false_iff, Option.isNone_iff_eq_none]

theorem exists_free {h : Heap α} {r : ℕ} (hr : r ∈ h.live) :
    ∃ h', h.free r = some h' ∧ h'.get? = Function.update h.get? r none ∧
      h'.live = h.live.erase r := by
  rw [free, if_pos hr]
  exact ⟨_, rfl, rfl, rfl⟩

section Alloc

variable (A : Allocator) (h : Heap α) (v : α)

theorem get?_alloc_self : (h.alloc A v).2.get? (h.alloc A v).1 = some v :=
  Function.update_self ..

/-- A new reference was not in use. -/
theorem get?_alloc_fresh : h.get? (h.alloc A v).1 = none :=
  notMem_live.mp (A.next_notMem h.live)

theorem card_alloc : (h.alloc A v).2.live.card = h.live.card + 1 :=
  Finset.card_insert_of_notMem (A.next_notMem h.live)

theorem free_alloc : (h.alloc A v).2.free (h.alloc A v).1 = some h := by
  have hlive : (h.alloc A v).1 ∈ (h.alloc A v).2.live := Finset.mem_insert_self _ _
  rw [free, if_pos hlive, Option.some.injEq]
  refine ext_get? ?_
  show Function.update (Function.update h.get? (A.next h.live) (some v)) (A.next h.live) none =
    h.get?
  rw [Function.update_idem, ← get?_alloc_fresh A h v]
  exact Function.update_eq_self _ _

end Alloc

/-! ## Growing -/

/-- Everything in `h` is still there in `h'`, and unchanged. -/
def Extends (h h' : Heap α) : Prop := ∀ r v, h.get? r = some v → h'.get? r = some v

theorem Extends.refl (h : Heap α) : h.Extends h := fun _ _ hv => hv

theorem Extends.trans {h h' h'' : Heap α} (h₁ : h.Extends h') (h₂ : h'.Extends h'') :
    h.Extends h'' := fun r v hv => h₂ r v (h₁ r v hv)

theorem Extends.card_le {h h' : Heap α} (hext : h.Extends h') : h.live.card ≤ h'.live.card := by
  refine Finset.card_le_card fun r hr => ?_
  obtain ⟨v, hv⟩ := Option.isSome_iff_exists.mp ((h.mem_live r).mp hr)
  rw [h'.mem_live, hext r v hv]
  rfl

theorem extends_alloc (A : Allocator) (h : Heap α) (v : α) : h.Extends (h.alloc A v).2 := by
  intro r w hw
  have hne : r ≠ (h.alloc A v).1 := by
    rintro rfl
    rw [get?_alloc_fresh] at hw
    cases hw
  exact (Function.update_of_ne hne _ _).trans hw

/-- A store to an object that is new does not touch the old ones. -/
theorem Extends.set {h h' : Heap α} (hext : h.Extends h') {r : ℕ} (hr : h.get? r = none) (v : α) :
    h.Extends (h'.set r v) := by
  intro r' w hw
  have hne : r' ≠ r := by
    rintro rfl
    rw [hr] at hw
    cases hw
  unfold Heap.set
  split
  · exact (Function.update_of_ne hne _ _).trans (hext r' w hw)
  · exact hext r' w hw

/-- Freeing what is new does not touch the old ones. -/
theorem Extends.free {h h' h'' : Heap α} (hext : h.Extends h') {r : ℕ} (hr : h.get? r = none)
    (hget : h''.get? = Function.update h'.get? r none) : h.Extends h'' := by
  intro r' w hw
  have hne : r' ≠ r := by
    rintro rfl
    rw [hr] at hw
    cases hw
  rw [hget]
  exact (Function.update_of_ne hne _ _).trans (hext r' w hw)

/-- Of two new objects, the first one can be freed, and the second one stays. -/
theorem exists_free_alloc_alloc (A : Allocator) (h : Heap α) (v w : α) :
    ∃ h', ((h.alloc A v).2.alloc A w).2.free (h.alloc A v).1 = some h' ∧ h.Extends h' ∧
      h'.get? ((h.alloc A v).2.alloc A w).1 = some w ∧ h'.live.card = h.live.card + 1 := by
  have hmem : (h.alloc A v).1 ∈ ((h.alloc A v).2.alloc A w).2.live :=
    Finset.mem_insert_of_mem (Finset.mem_insert_self _ _)
  obtain ⟨h', hfree, hget, hlive⟩ := exists_free hmem
  refine ⟨h', hfree, ?_, ?_, ?_⟩
  · refine Extends.free ?_ (get?_alloc_fresh A h v) hget
    exact (extends_alloc A h v).trans (extends_alloc A _ w)
  · have hne : ((h.alloc A v).2.alloc A w).1 ≠ (h.alloc A v).1 := by
      intro heq
      have hfresh := get?_alloc_fresh A (h.alloc A v).2 w
      rw [heq, get?_alloc_self] at hfresh
      cases hfresh
    rw [hget, Function.update_of_ne hne]
    exact get?_alloc_self A _ w
  · rw [hlive, Finset.card_erase_of_mem hmem, card_alloc, card_alloc]
    rfl

/-! ## What is in use -/

/-- The objects in use are those at `refs`, each of which is there once. -/
structure InUse (h : Heap α) (refs : List ℕ) : Prop where
  nodup : refs.Nodup
  live : h.live = refs.toFinset

theorem inUse_empty : (empty : Heap α).InUse [] := ⟨List.nodup_nil, rfl⟩

section InUse

variable {h : Heap α} {refs refs' : List ℕ}

/-- In which order they are given does not matter. -/
theorem InUse.perm (hu : h.InUse refs) (hp : refs.Perm refs') : h.InUse refs' :=
  ⟨hp.nodup_iff.mp hu.nodup, hu.live.trans (List.toFinset_eq_of_perm _ _ hp)⟩

theorem InUse.exists_get (hu : h.InUse refs) {r : ℕ} (hr : r ∈ refs) : ∃ v, h.get? r = some v := by
  refine Option.isSome_iff_exists.mp ((h.mem_live r).mp ?_)
  rw [hu.live, List.mem_toFinset]
  exact hr

/-- A new object is none of those that are in use. -/
theorem InUse.alloc (hu : h.InUse refs) (A : Allocator) (v : α) :
    (h.alloc A v).2.InUse ((h.alloc A v).1 :: refs) := by
  have hnew : (h.alloc A v).1 ∉ refs := by
    rw [← List.mem_toFinset, ← hu.live]
    exact A.next_notMem h.live
  refine ⟨List.nodup_cons.mpr ⟨hnew, hu.nodup⟩, ?_⟩
  rw [List.toFinset_cons, ← hu.live]
  rfl

/-- One of them is freed, and the others stay as they are. -/
theorem InUse.exists_free {r : ℕ} (hu : h.InUse (r :: refs)) :
    ∃ h', h.free r = some h' ∧ h'.InUse refs ∧ ∀ r' ∈ refs, h'.get? r' = h.get? r' := by
  obtain ⟨hr, hnodup⟩ := List.nodup_cons.mp hu.nodup
  have hlive : r ∈ h.live := by
    rw [hu.live, List.mem_toFinset]
    exact List.mem_cons_self
  obtain ⟨h', hfree, hget, hlive'⟩ := Heap.exists_free hlive
  refine ⟨h', hfree, ⟨hnodup, ?_⟩, fun r' hr' => ?_⟩
  · rw [hlive', hu.live, List.toFinset_cons, Finset.erase_insert]
    rwa [List.mem_toFinset]
  · have hne : r' ≠ r := by
      rintro rfl
      exact hr hr'
    rw [hget, Function.update_of_ne hne]

end InUse

/-! ## What an owner has -/

section Held

variable {get get' : ℕ → Option α} {refs : List ℕ} {vs : List α}

/-- What becomes of other objects does not matter to the owner of `refs`. -/
theorem map_get?_congr (h : refs.map get = vs.map some) (hsame : ∀ r ∈ refs, get' r = get r) :
    refs.map get' = vs.map some :=
  (List.map_congr_left hsame).trans h

/-- The owner has no `i`-th object, or it is one of those that it has, and the others remain when
it is given away. -/
theorem held_cases (h : refs.map get = vs.map some) (i : ℕ) :
    (refs[i]? = none ∧ vs[i]? = none ∧ vs.eraseIdx i = vs) ∨
      ∃ ref v, refs[i]? = some ref ∧ vs[i]? = some v ∧ get ref = some v ∧
        refs.Perm (ref :: refs.eraseIdx i) ∧
        (refs.eraseIdx i).map get = (vs.eraseIdx i).map some := by
  have hlength := congrArg List.length h
  rw [List.length_map, List.length_map] at hlength
  by_cases hi : i < vs.length
  · have hi' : i < refs.length := hlength ▸ hi
    refine .inr ⟨refs[i], vs[i], List.getElem?_eq_getElem hi', List.getElem?_eq_getElem hi, ?_,
      (List.getElem_cons_eraseIdx_perm hi').symm, ?_⟩
    · have hget := congrArg (·[i]?) h
      simpa [hi, hi'] using hget
    · have herase := congrArg (·.eraseIdx i) h
      simpa only [List.eraseIdx_map] using herase
  · have hi' : vs.length ≤ i := Nat.not_lt.mp hi
    exact .inl ⟨List.getElem?_eq_none (hlength ▸ hi'), List.getElem?_eq_none hi',
      List.eraseIdx_of_length_le hi'⟩

end Held

end Heap
