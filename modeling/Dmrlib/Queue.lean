import Dmrlib.Lib.Heap

/-!
# Tail queues in memory (`include/dmr/queue.h`)

An element of a tail queue points to the next one, and to the pointer that points to the element:
the one in the element before, or the one at the head of the queue. The head also has the address
of the pointer at the end. So an element is removed without a walk, whatever its place.

`Represents q xs` says that the pointers link the elements `xs` in that order; each macro is shown
to keep that, and to follow no pointer to nothing.

- `DmrTailq`, `DmrTailqElem`: the head of a queue, and an element with its two pointers.
- `insertHead`, `insertTail`, `remove`, `foreachSafe`: the macros. `none` is a macro that follows
  a pointer to nothing.
- `Represents.exists_insertTail` and its relatives: what each macro does to the list `xs`.
- `Represents.congr`: a queue stays what it was as long as nobody stores to its elements.
-/

namespace Dmrlib

/-- The address of a pointer to an element: of `tqh_first`, or of an element's `tqe_next`. -/
inductive TailqLink where
  | first
  | next (elm : Nat)
deriving DecidableEq

/-- `DMR_TAILQ_ENTRY` -/
structure DmrTailqEntry where
  tqeNext : Option Nat
  tqePrev : Option TailqLink

/-- An element, with the field that is the queue's. -/
structure DmrTailqElem (α : Type) where
  val : α
  field : DmrTailqEntry

/-- `DMR_TAILQ_HEAD`, and the heap that the elements are in. -/
structure DmrTailq (α : Type) where
  heap : Heap (DmrTailqElem α)
  tqhFirst : Option Nat
  tqhLast : Option TailqLink

namespace DmrTailq

variable {α : Type}

/-- `DMR_TAILQ_INIT`, where no element is allocated. -/
def init : DmrTailq α := ⟨Heap.empty, none, some .first⟩

/-- A store to the field of `elm`. -/
def store (q : DmrTailq α) (elm : Nat) (f : DmrTailqEntry → DmrTailqEntry) :
    Option (DmrTailq α) := do
  let e ← q.heap.get? elm
  return { q with heap := q.heap.set elm { e with field := f e.field } }

/-- `*link = elm` -/
def assign (q : DmrTailq α) (link : Option TailqLink) (elm : Option Nat) : Option (DmrTailq α) := do
  match ← link with
  | .first => return { q with tqhFirst := elm }
  | .next prev => q.store prev ({ · with tqeNext := elm })

/-- The pointer back to `link`, from the element `next` or from the end of the queue. -/
def relink (q : DmrTailq α) (next : Option Nat) (link : Option TailqLink) : Option (DmrTailq α) :=
  match next with
  | some next => q.store next ({ · with tqePrev := link })
  | none => some { q with tqhLast := link }

/-- `DMR_TAILQ_INSERT_HEAD` -/
def insertHead (q : DmrTailq α) (elm : Nat) : Option (DmrTailq α) := do
  let q ← q.store elm ({ · with tqeNext := q.tqhFirst })
  let q ← q.relink q.tqhFirst (some (.next elm))
  let q := { q with tqhFirst := some elm }
  q.store elm ({ · with tqePrev := some .first })

/-- `DMR_TAILQ_INSERT_TAIL` -/
def insertTail (q : DmrTailq α) (elm : Nat) : Option (DmrTailq α) := do
  let q ← q.store elm ({ · with tqeNext := none })
  let q ← q.store elm ({ · with tqePrev := q.tqhLast })
  let q ← q.assign q.tqhLast (some elm)
  return { q with tqhLast := some (.next elm) }

/-- `DMR_TAILQ_REMOVE` -/
def remove (q : DmrTailq α) (elm : Nat) : Option (DmrTailq α) := do
  let e ← q.heap.get? elm
  let q ← q.relink e.field.tqeNext e.field.tqePrev
  let e ← q.heap.get? elm
  q.assign e.field.tqePrev e.field.tqeNext

/-- As many rounds as there are objects. -/
def fuel (q : DmrTailq α) : Nat := q.heap.live.card

/-- The loop of `DMR_TAILQ_FOREACH_SAFE` where its body leaves the queue alone: what the body sees
of each element, and its result, if it returns. -/
def foreachSafe {β γ : Type} (q : DmrTailq α) (body : α → Option (β × Option γ)) :
    (fuel : Nat) → (var : Option Nat) → Option (List β × Option γ)
  | _, none => some ([], none)
  | 0, some _ => none
  | fuel + 1, some var => do
    let e ← q.heap.get? var
    let (seen, ret) ← body e.val
    if ret.isSome then
      return ([seen], ret)
    else
      let rest ← foreachSafe q body fuel e.field.tqeNext
      return (seen :: rest.1, rest.2)

/-! ## What the pointers stand for -/

/-- The pointer to the first element of `xs`, or `next` where there is none. -/
def firstOr (xs : List (ℕ × α)) (next : Option ℕ) : Option ℕ := (xs.head?.map Prod.fst).or next

/-- Where the pointer after `xs` is, which `link` points at without any. -/
def lastLink (link : TailqLink) (xs : List (ℕ × α)) : TailqLink :=
  xs.foldl (fun _ x => .next x.1) link

/-- The elements `xs` are linked, between the pointer at `link` and the element `next`. -/
def Linked (get : ℕ → Option (DmrTailqElem α)) : TailqLink → List (ℕ × α) → Option ℕ → Prop
  | _, [], _ => True
  | link, x :: xs, next =>
    get x.1 = some ⟨x.2, ⟨firstOr xs next, some link⟩⟩ ∧ Linked get (.next x.1) xs next

/-- The queue has the elements `xs`. -/
structure Represents (q : DmrTailq α) (xs : List (ℕ × α)) : Prop where
  first : q.tqhFirst = firstOr xs none
  last : q.tqhLast = some (lastLink .first xs)
  linked : Linked q.heap.get? .first xs none
  nodup : (xs.map Prod.fst).Nodup

theorem represents_init : (init : DmrTailq α).Represents [] := ⟨rfl, rfl, trivial, List.nodup_nil⟩

theorem firstOr_append (xs ys : List (ℕ × α)) (next : Option ℕ) :
    firstOr (xs ++ ys) next = firstOr xs (firstOr ys next) := by
  unfold firstOr
  rw [List.head?_append]
  cases xs <;> rfl

theorem lastLink_append (link : TailqLink) (xs ys : List (ℕ × α)) :
    lastLink link (xs ++ ys) = lastLink (lastLink link xs) ys := List.foldl_append

theorem linked_append {get : ℕ → Option (DmrTailqElem α)} {link : TailqLink}
    {xs ys : List (ℕ × α)} {next : Option ℕ} :
    Linked get link (xs ++ ys) next ↔
      Linked get link xs (firstOr ys next) ∧ Linked get (lastLink link xs) ys next := by
  induction xs generalizing link with
  | nil => simp [Linked, lastLink]
  | cons x xs ih =>
    rw [List.cons_append, Linked, Linked, ih, firstOr_append, and_assoc]
    rfl

theorem Linked.congr {get get' : ℕ → Option (DmrTailqElem α)} {link : TailqLink}
    {xs : List (ℕ × α)} {next : Option ℕ} (h : Linked get link xs next)
    (heq : ∀ r ∈ xs.map Prod.fst, get' r = get r) : Linked get' link xs next := by
  induction xs generalizing link with
  | nil => trivial
  | cons x xs ih =>
    rw [List.map_cons] at heq
    exact ⟨(heq _ List.mem_cons_self).trans h.1,
      ih h.2 fun r hr => heq r (List.mem_cons_of_mem _ hr)⟩

/-! ## Stores -/

variable {q : DmrTailq α}

/-- The stores are to the elements in `addrs`, and no object is allocated or freed. -/
def Unchanged (q q' : DmrTailq α) (addrs : List ℕ) : Prop :=
  q'.heap.live = q.heap.live ∧ ∀ r, r ∉ addrs → q'.heap.get? r = q.heap.get? r

theorem Unchanged.trans {q' q'' : DmrTailq α} {addrs addrs' : List ℕ}
    (h : Unchanged q q' addrs) (h' : Unchanged q' q'' addrs') :
    Unchanged q q'' (addrs ++ addrs') := by
  refine ⟨h'.1.trans h.1, fun r hr => ?_⟩
  rw [List.mem_append, not_or] at hr
  exact (h'.2 r hr.2).trans (h.2 r hr.1)

theorem Unchanged.mono {q' : DmrTailq α} {addrs addrs' : List ℕ} (h : Unchanged q q' addrs)
    (hsub : ∀ r ∈ addrs, r ∈ addrs') : Unchanged q q' addrs' :=
  ⟨h.1, fun r hr => h.2 r fun hmem => hr (hsub r hmem)⟩

theorem Linked.unchanged {q' : DmrTailq α} {addrs : List ℕ} {link : TailqLink}
    {xs : List (ℕ × α)} {next : Option ℕ} (h : Linked q.heap.get? link xs next)
    (hun : Unchanged q q' addrs) (hdisj : ∀ r ∈ xs.map Prod.fst, r ∉ addrs) :
    Linked q'.heap.get? link xs next :=
  h.congr fun r hr => hun.2 r (hdisj r hr)

theorem exists_store {elm : ℕ} {e : DmrTailqElem α} (helm : q.heap.get? elm = some e)
    (f : DmrTailqEntry → DmrTailqEntry) :
    ∃ q', q.store elm f = some q' ∧ q'.tqhFirst = q.tqhFirst ∧ q'.tqhLast = q.tqhLast ∧
      q'.heap.get? elm = some { e with field := f e.field } ∧ Unchanged q q' [elm] := by
  refine ⟨{ q with heap := q.heap.set elm { e with field := f e.field } }, ?_, rfl, rfl, ?_, rfl,
    ?_⟩
  · rw [store, helm]
    rfl
  · show (q.heap.set elm _).get? elm = _
    rw [Heap.get?_set helm, Function.update_self]
  · intro r hr
    show (q.heap.set elm _).get? r = _
    rw [Heap.get?_set helm, Function.update_of_ne (by simpa using hr)]

/-- A store to the pointer after `xs`. -/
theorem exists_assign {xs : List (ℕ × α)} {next : Option ℕ} (hfirst : q.tqhFirst = firstOr xs next)
    (h : Linked q.heap.get? .first xs next) (hnodup : (xs.map Prod.fst).Nodup) (elm : Option ℕ) :
    ∃ q', q.assign (some (lastLink .first xs)) elm = some q' ∧ q'.tqhFirst = firstOr xs elm ∧
      q'.tqhLast = q.tqhLast ∧ Linked q'.heap.get? .first xs elm ∧
      Unchanged q q' (xs.map Prod.fst) := by
  rcases List.eq_nil_or_concat xs with rfl | ⟨ws, w, rfl⟩
  · exact ⟨{ q with tqhFirst := elm }, rfl, rfl, rfl, trivial, rfl, fun _ _ => rfl⟩
  · rw [List.concat_eq_append] at *
    obtain ⟨hws, hw, -⟩ := linked_append.mp h
    obtain ⟨q', hstore, hfirst', hlast', hw', hun⟩ := exists_store hw ({ · with tqeNext := elm })
    rw [List.map_append] at hnodup
    refine ⟨q', ?_, ?_, hlast', linked_append.mpr ⟨?_, hw', trivial⟩, hun.1, fun r hr => ?_⟩
    · rw [lastLink_append]
      exact hstore
    · rw [hfirst', hfirst, firstOr_append, firstOr_append]
      rfl
    · exact hws.unchanged hun (by grind)
    · exact hun.2 r (by grind)

/-- A store to the pointer back, from the first element of `xs` or from the end. -/
theorem exists_relink {link : TailqLink} {xs : List (ℕ × α)}
    (hlast : q.tqhLast = some (lastLink link xs)) (h : Linked q.heap.get? link xs none)
    (hnodup : (xs.map Prod.fst).Nodup) (link' : TailqLink) :
    ∃ q', q.relink (firstOr xs none) (some link') = some q' ∧ q'.tqhFirst = q.tqhFirst ∧
      q'.tqhLast = some (lastLink link' xs) ∧ Linked q'.heap.get? link' xs none ∧
      Unchanged q q' (xs.map Prod.fst) := by
  cases xs with
  | nil => exact ⟨{ q with tqhLast := some link' }, rfl, rfl, rfl, trivial, rfl, fun _ _ => rfl⟩
  | cons x xs =>
    obtain ⟨q', hstore, hfirst', hlast', hx', hun⟩ :=
      exists_store h.1 ({ · with tqePrev := some link' })
    rw [List.map_cons] at hnodup
    refine ⟨q', hstore, hfirst', hlast'.trans hlast, ⟨hx', ?_⟩, hun.1, fun r hr => ?_⟩
    · exact h.2.unchanged hun (by grind)
    · exact hun.2 r (by grind)

/-! ## The macros -/

theorem Represents.exists_insertTail {xs : List (ℕ × α)} (h : q.Represents xs) {elm : ℕ}
    {e : DmrTailqElem α} (helm : q.heap.get? elm = some e) (hnew : elm ∉ xs.map Prod.fst) :
    ∃ q', q.insertTail elm = some q' ∧ q'.Represents (xs ++ [(elm, e.val)]) ∧
      Unchanged q q' (elm :: xs.map Prod.fst) := by
  obtain ⟨q₁, h₁, hfirst₁, hlast₁, helm₁, hun₁⟩ := exists_store helm ({ · with tqeNext := none })
  obtain ⟨q₂, h₂, hfirst₂, hlast₂, helm₂, hun₂⟩ :=
    exists_store helm₁ ({ · with tqePrev := q₁.tqhLast })
  have hlinked₂ := (h.linked.unchanged hun₁ (by grind)).unchanged hun₂ (by grind)
  obtain ⟨q₃, h₃, hfirst₃, hlast₃, hlinked₃, hun₃⟩ := exists_assign
    (hfirst₂.trans (hfirst₁.trans h.first)) hlinked₂ h.nodup (some elm)
  have hlast : q₂.tqhLast = some (lastLink .first xs) := hlast₂.trans (hlast₁.trans h.last)
  refine ⟨{ q₃ with tqhLast := some (.next elm) }, ?_,
    ⟨?_, ?_, linked_append.mpr ⟨hlinked₃, ?_, trivial⟩, ?_⟩, ?_⟩
  · simp only [insertTail, h₁, h₂, hlast, h₃, Option.bind_eq_bind, Option.bind_some]
    rfl
  · show q₃.tqhFirst = _
    rw [hfirst₃, firstOr_append]
    rfl
  · rw [lastLink_append]
    rfl
  · show q₃.heap.get? elm = _
    rw [hun₃.2 elm hnew, helm₂, hlast₁, h.last]
    rfl
  · rw [List.map_append]
    exact List.concat_eq_append ▸ h.nodup.concat hnew
  · exact Unchanged.mono ((hun₁.trans hun₂).trans hun₃) (by grind)

theorem Represents.exists_insertHead {xs : List (ℕ × α)} (h : q.Represents xs) {elm : ℕ}
    {e : DmrTailqElem α} (helm : q.heap.get? elm = some e) (hnew : elm ∉ xs.map Prod.fst) :
    ∃ q', q.insertHead elm = some q' ∧ q'.Represents ((elm, e.val) :: xs) ∧
      Unchanged q q' (elm :: xs.map Prod.fst) := by
  obtain ⟨q₁, h₁, hfirst₁, hlast₁, helm₁, hun₁⟩ :=
    exists_store helm ({ · with tqeNext := q.tqhFirst })
  obtain ⟨q₂, h₂, hfirst₂, hlast₂, hlinked₂, hun₂⟩ := exists_relink (hlast₁.trans h.last)
    (h.linked.unchanged hun₁ (by grind)) h.nodup (.next elm)
  have helm₂ := (hun₂.2 elm hnew).trans helm₁
  obtain ⟨q₃, h₃, hfirst₃, hlast₃, helm₃, hun₃⟩ :=
    exists_store (q := { q₂ with tqhFirst := some elm }) helm₂ ({ · with tqePrev := some .first })
  refine ⟨q₃, ?_, ⟨hfirst₃, hlast₃.trans hlast₂, ⟨?_, ?_⟩, List.nodup_cons.mpr ⟨hnew, h.nodup⟩⟩, ?_⟩
  · rw [← h.first, ← hfirst₁] at h₂
    simp only [insertHead, h₁, h₂, Option.bind_eq_bind, Option.bind_some]
    exact h₃
  · rw [helm₃, h.first]
  · exact Linked.unchanged (q := { q₂ with tqhFirst := some elm }) hlinked₂ hun₃ (by grind)
  · exact Unchanged.mono ((hun₁.trans hun₂).trans hun₃) (by grind)

/-- An element is taken out from anywhere, and the others stay in order. -/
theorem Represents.exists_remove (xs : List (ℕ × α)) {ys : List (ℕ × α)} {x : ℕ × α}
    (h : q.Represents (xs ++ x :: ys)) :
    ∃ q', q.remove x.1 = some q' ∧ q'.Represents (xs ++ ys) ∧
      Unchanged q q' ((xs ++ ys).map Prod.fst) := by
  obtain ⟨hxs, hx, hys⟩ := linked_append.mp h.linked
  have hnodup := h.nodup
  rw [List.map_append, List.map_cons] at hnodup
  have hlast := h.last
  rw [lastLink_append] at hlast
  obtain ⟨q₁, h₁, hfirst₁, hlast₁, hlinked₁, hun₁⟩ :=
    exists_relink (show q.tqhLast = some (lastLink (.next x.1) ys) from hlast) hys (by grind)
      (lastLink .first xs)
  have hfirst := h.first
  rw [firstOr_append] at hfirst
  obtain ⟨q₂, h₂, hfirst₂, hlast₂, hlinked₂, hun₂⟩ := exists_assign (hfirst₁.trans hfirst)
    (hxs.unchanged hun₁ (by grind)) (by grind) (firstOr ys none)
  have hx₁ := (hun₁.2 x.1 (by grind)).trans hx
  refine ⟨q₂, ?_, ⟨?_, ?_, linked_append.mpr ⟨hlinked₂, ?_⟩, ?_⟩, ?_⟩
  · simp only [remove, hx, h₁, hx₁, Option.bind_eq_bind, Option.bind_some]
    exact h₂
  · rw [hfirst₂, firstOr_append]
  · rw [hlast₂, hlast₁, lastLink_append]
  · exact hlinked₁.unchanged hun₂ (by grind)
  · rw [List.map_append]
    grind
  · exact Unchanged.mono (hun₁.trans hun₂) (by grind)

theorem Represents.get? {xs : List (ℕ × α)} (h : q.Represents xs) {x : ℕ × α} (hx : x ∈ xs) :
    ∃ field, q.heap.get? x.1 = some ⟨x.2, field⟩ := by
  obtain ⟨ws, ys, rfl⟩ := List.append_of_mem hx
  obtain ⟨-, hget, -⟩ := linked_append.mp h.linked
  exact ⟨_, hget⟩

/-- What becomes of other objects does not matter to the queue. -/
theorem Represents.congr {xs : List (ℕ × α)} (h : q.Represents xs) {heap : Heap (DmrTailqElem α)}
    (hsame : ∀ r ∈ xs.map Prod.fst, heap.get? r = q.heap.get? r) :
    { q with heap := heap }.Represents xs :=
  ⟨h.first, h.last, h.linked.congr hsame, h.nodup⟩

/-- What is allocated besides does not matter either. -/
theorem Represents.extends {xs : List (ℕ × α)} (h : q.Represents xs)
    {heap : Heap (DmrTailqElem α)} (hext : q.heap.Extends heap) :
    { q with heap := heap }.Represents xs := by
  refine h.congr fun r hr => ?_
  obtain ⟨x, hx, rfl⟩ := List.mem_map.mp hr
  obtain ⟨field, hget⟩ := h.get? hx
  rw [hget, hext _ _ hget]

/-- Every element is an object of its own. -/
theorem Represents.subset_live {xs : List (ℕ × α)} (h : q.Represents xs) :
    (xs.map Prod.fst).toFinset ⊆ q.heap.live := by
  intro a ha
  obtain ⟨x, hx, rfl⟩ := List.mem_map.mp (List.mem_toFinset.mp ha)
  obtain ⟨field, hget⟩ := h.get? hx
  exact (q.heap.mem_live x.1).mpr (by rw [hget]; rfl)

theorem Represents.length_le {xs : List (ℕ × α)} (h : q.Represents xs) : xs.length ≤ q.fuel := by
  have hcard := Finset.card_le_card h.subset_live
  rwa [List.toFinset_card_of_nodup h.nodup, List.length_map] at hcard

/-- The loop over a list. -/
def forSafe {β γ : Type} (body : α → Option (β × Option γ)) :
    List α → Option (List β × Option γ)
  | [] => some ([], none)
  | x :: xs => do
    let (seen, ret) ← body x
    if ret.isSome then
      return ([seen], ret)
    else
      let rest ← forSafe body xs
      return (seen :: rest.1, rest.2)

/-- From any element on, the loop comes to those that follow in their order. -/
theorem Represents.foreachSafe_eq {β γ : Type} (xs : List (ℕ × α)) {ys : List (ℕ × α)}
    (h : q.Represents (xs ++ ys)) (body : α → Option (β × Option γ)) {fuel : ℕ}
    (hfuel : ys.length ≤ fuel) :
    q.foreachSafe body fuel (firstOr ys none) = forSafe body (ys.map Prod.snd) := by
  induction ys generalizing xs fuel with
  | nil => cases fuel <;> rfl
  | cons y ys ih =>
    obtain ⟨fuel, rfl⟩ : ∃ n, fuel = n + 1 := ⟨fuel - 1, by simp at hfuel; omega⟩
    rw [List.length_cons] at hfuel
    obtain ⟨-, hy, -⟩ := linked_append.mp h.linked
    have h' : q.Represents ((xs ++ [y]) ++ ys) := by simpa using h
    have hlength : ys.length ≤ fuel := by omega
    have hrest := ih (xs ++ [y]) h' hlength
    show q.foreachSafe body (fuel + 1) (some y.1) = _
    rw [foreachSafe, hy, Option.bind_eq_bind, Option.bind_some, List.map_cons, forSafe]
    simp only [hrest]

end DmrTailq

end Dmrlib
