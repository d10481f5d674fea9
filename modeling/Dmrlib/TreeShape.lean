import Dmrlib.Tree

/-!
# What the pointers of a red-black tree stand for

`Represents head t` says that the pointers below the root draw the tree `t`, whose elements are
the addresses and what is there. Each macro of `Dmrlib.Tree` is shown to do to `t` what
`Dmrlib.Lib.RedBlack` does: it follows no null pointer, it comes to an end, and the pointers,
those to the parents among them, draw the tree that the function returns.

A place in the tree is a path and what fills it, so a macro that works at a place is a fact about
`fill path _`.

- `Holds`, `HoldsPath`: the pointers below a node draw a tree, those above it a path.
- `Represents`: the whole tree, from its head.
- `Unchanged`: nothing was stored to the elements of a set.
- `Represents.exists_insert`: `RB_INSERT` does what `RbTree.insert` does.
- `Represents.find_eq`, `Represents.foreach_eq`: a search and a walk see the elements of the tree
  in their order.
-/

namespace Dmrlib

open RbTree (Color Side)

/-- The pointers of an element with the children `near` and `far`, of which `near` is on the
side. -/
def DmrRbEntry.ofSide (side : Side) (near far parent : Option ℕ) (color : Color) : DmrRbEntry :=
  ⟨side.pick near far, side.other.pick near far, parent, color⟩

namespace DmrRbEntry

variable {side : Side} {near far parent : Option ℕ} {color : Color}

@[simp]
theorem child_ofSide : (ofSide side near far parent color).child side = near := by
  cases side <;> rfl

@[simp]
theorem child_other_ofSide : (ofSide side near far parent color).child side.other = far := by
  cases side <;> rfl

@[simp]
theorem setChild_ofSide (child : Option ℕ) :
    (ofSide side near far parent color).setChild side child =
      ofSide side child far parent color := by
  cases side <;> rfl

@[simp]
theorem setChild_other_ofSide (child : Option ℕ) :
    (ofSide side near far parent color).setChild side.other child =
      ofSide side near child parent color := by
  cases side <;> rfl

theorem setParent_ofSide (parent' : Option ℕ) :
    (ofSide side near far parent color).setParent parent' = ofSide side near far parent' color :=
  rfl

end DmrRbEntry

end Dmrlib

namespace RbTree

open Dmrlib

variable {α : Type}

/-! ## Drawing

An entry draws a node if its pointers lead to the roots of what is drawn on either side, and its
parent is the one above.
-/

/-- The pointer to a tree. -/
def root : RbTree (ℕ × α) → Option ℕ
  | .nil => none
  | .node _ _ v _ => some v.1

/-- Where the elements of a tree are. -/
def addrs (t : RbTree (ℕ × α)) : List ℕ := t.toList.map Prod.fst

/-- The pointer to what is above a place. -/
def parentOf : Path (ℕ × α) → Option ℕ
  | [] => none
  | s :: _ => some s.elem.1

/-- Where the elements are that are not in the place. -/
def pathAddrs (path : Path (ℕ × α)) : List ℕ := (before path ++ after path).map Prod.fst

/-- The elements of a tree are in memory, with pointers to their children and to their parent. -/
def Holds (get : ℕ → Option (DmrRbElem α)) : Option ℕ → RbTree (ℕ × α) → Prop
  | _, .nil => True
  | parent, .node c l v r =>
    get v.1 = some ⟨v.2, ⟨l.root, r.root, parent, c⟩⟩ ∧ Holds get (some v.1) l ∧
      Holds get (some v.1) r

/-- What is around a place is in memory, with `hole` as the pointer to what is in it. -/
def HoldsPath (get : ℕ → Option (DmrRbElem α)) (rbhRoot : Option ℕ) :
    Path (ℕ × α) → Option ℕ → Prop
  | [], hole => rbhRoot = hole
  | s :: path, hole =>
    get s.elem.1 =
        some ⟨s.elem.2, .ofSide s.side hole s.sibling.root (parentOf path) s.color⟩ ∧
      Holds get (some s.elem.1) s.sibling ∧ HoldsPath get rbhRoot path (some s.elem.1)

theorem Holds.congr {get get' : ℕ → Option (DmrRbElem α)} {parent : Option ℕ}
    {t : RbTree (ℕ × α)} (h : Holds get parent t) (heq : ∀ r ∈ t.addrs, get' r = get r) :
    Holds get' parent t := by
  induction t generalizing parent with
  | nil => trivial
  | node c l v r ihl ihr =>
    simp only [addrs, toList, List.map_append, List.map_cons, List.mem_append,
      List.mem_cons] at heq
    obtain ⟨hv, hl, hr⟩ := h
    refine ⟨(heq v.1 (.inr (.inl rfl))).trans hv, ihl hl ?_, ihr hr ?_⟩
    · exact fun r hr => heq r (.inl hr)
    · exact fun r hr => heq r (.inr (.inr hr))

theorem holds_join {get : ℕ → Option (DmrRbElem α)} {parent : Option ℕ} {side : Side} {c : Color}
    {near : RbTree (ℕ × α)} {v : ℕ × α} {far : RbTree (ℕ × α)} :
    Holds get parent (join side c near v far) ↔
      get v.1 = some ⟨v.2, .ofSide side near.root far.root parent c⟩ ∧
        Holds get (some v.1) near ∧ Holds get (some v.1) far := by
  cases side with
  | left => rfl
  | right => exact and_congr_right fun _ => and_comm

theorem root_join (side : Side) (c : Color) (near : RbTree (ℕ × α)) (v : ℕ × α)
    (far : RbTree (ℕ × α)) : (join side c near v far).root = some v.1 := rfl

theorem mem_pathAddrs_cons {s : Step (ℕ × α)} {path : Path (ℕ × α)} {r : ℕ} :
    r ∈ pathAddrs (s :: path) ↔ r = s.elem.1 ∨ r ∈ s.sibling.addrs ∨ r ∈ pathAddrs path := by
  unfold pathAddrs addrs
  rw [before, after]
  cases s.side <;> simp only [Side.pick, List.map_append, List.mem_append, List.map_cons,
    List.map_nil, List.mem_cons, List.not_mem_nil, List.cons_append] <;> tauto

theorem Holds.exists_get {get : ℕ → Option (DmrRbElem α)} {parent : Option ℕ}
    {t : RbTree (ℕ × α)} (h : Holds get parent t) {v : ℕ × α} (hv : v ∈ t.toList) :
    ∃ field, get v.1 = some ⟨v.2, field⟩ := by
  induction t generalizing parent with
  | nil => cases hv
  | node c l w r ihl ihr =>
    obtain ⟨hw, hl, hr⟩ := h
    rw [toList, List.mem_append, List.mem_cons] at hv
    rcases hv with hv | rfl | hv
    · exact ihl hl hv
    · exact ⟨_, hw⟩
    · exact ihr hr hv

theorem Holds.extends {heap heap' : Heap (DmrRbElem α)} {parent : Option ℕ} {t : RbTree (ℕ × α)}
    (h : Holds heap.get? parent t) (hext : heap.Extends heap') : Holds heap'.get? parent t := by
  induction t generalizing parent with
  | nil => trivial
  | node c l v r ihl ihr => exact ⟨hext _ _ h.1, ihl h.2.1, ihr h.2.2⟩

theorem HoldsPath.congr {get get' : ℕ → Option (DmrRbElem α)} {rbhRoot hole : Option ℕ}
    {path : Path (ℕ × α)} (h : HoldsPath get rbhRoot path hole)
    (heq : ∀ r ∈ pathAddrs path, get' r = get r) : HoldsPath get' rbhRoot path hole := by
  induction path generalizing hole with
  | nil => exact h
  | cons s path ih =>
    simp only [mem_pathAddrs_cons] at heq
    obtain ⟨hs, hsibling, hpath⟩ := h
    refine ⟨(heq _ (.inl rfl)).trans hs, hsibling.congr ?_, ih hpath ?_⟩
    · exact fun r hr => heq r (.inr (.inl hr))
    · exact fun r hr => heq r (.inr (.inr hr))

theorem holds_fill {get : ℕ → Option (DmrRbElem α)} {rbhRoot : Option ℕ}
    (path : Path (ℕ × α)) (t : RbTree (ℕ × α)) :
    rbhRoot = (fill path t).root ∧ Holds get none (fill path t) ↔
      HoldsPath get rbhRoot path t.root ∧ Holds get (parentOf path) t := by
  induction path generalizing t with
  | nil => rfl
  | cons s path ih =>
    rw [fill, ih, Step.fill, HoldsPath, parentOf]
    obtain ⟨side, c, x, sibling⟩ := s
    cases side <;>
      simp only [join, DmrRbEntry.ofSide, Side.pick, Side.other, root, Holds] <;> tauto

/-! ## Everything is in one place

The nodes of a tree and those of the path above it are all different, so a store to one of them
leaves the rest as it is.
-/

theorem addrs_node (c : Color) (l : RbTree (ℕ × α)) (v : ℕ × α) (r : RbTree (ℕ × α)) :
    (node c l v r).addrs.Perm (v.1 :: (l.addrs ++ r.addrs)) := by
  unfold addrs
  rw [toList, List.map_append, List.map_cons]
  exact List.perm_middle

theorem addrs_join (side : Side) (c : Color) (near : RbTree (ℕ × α)) (v : ℕ × α)
    (far : RbTree (ℕ × α)) :
    (join side c near v far).addrs.Perm (v.1 :: (near.addrs ++ far.addrs)) := by
  cases side with
  | left => exact addrs_node c near v far
  | right => exact (addrs_node c far v near).trans (List.perm_append_comm.cons v.1)

theorem addrs_fill (path : Path (ℕ × α)) (t : RbTree (ℕ × α)) :
    (fill path t).addrs.Perm (t.addrs ++ pathAddrs path) := by
  unfold addrs pathAddrs
  rw [toList_fill, List.map_append, List.map_append, List.map_append]
  refine (List.perm_append_comm.append_right _).trans ?_
  rw [List.append_assoc]

theorem pathAddrs_cons (s : Step (ℕ × α)) (path : Path (ℕ × α)) :
    (pathAddrs (s :: path)).Perm (s.elem.1 :: (s.sibling.addrs ++ pathAddrs path)) := by
  have hnil : (fill (s :: path) .nil).addrs.Perm (pathAddrs (s :: path)) := addrs_fill _ _
  rw [fill] at hnil
  refine hnil.symm.trans ((addrs_fill path _).trans ?_)
  exact (addrs_join s.side s.color .nil s.elem s.sibling).append_right _

theorem mem_addrs_of_root {t : RbTree (ℕ × α)} {a : ℕ} (h : t.root = some a) : a ∈ t.addrs := by
  cases t with
  | nil => cases h
  | node c l v r =>
    obtain rfl : v.1 = a := Option.some.inj h
    exact (addrs_node c l v r).mem_iff.mpr List.mem_cons_self

/-- Which child points to the place. -/
theorem side_eq (s : Step (ℕ × α)) {elm : ℕ} (helm : elm ∉ s.sibling.addrs)
    (parent : Option ℕ) (color : Color) :
    (if (DmrRbEntry.ofSide s.side (some elm) s.sibling.root parent color).rbeLeft = some elm
      then Side.left else .right) = s.side := by
  unfold DmrRbEntry.ofSide
  cases hs : s.side with
  | left => exact if_pos rfl
  | right => exact if_neg fun h => helm (mem_addrs_of_root h)

end RbTree

namespace Dmrlib.DmrRbHead

open RbTree (Color Side Step Path Holds HoldsPath fill before after join parentOf pathAddrs)

variable {α : Type}

/-- The pointers draw `t`. -/
structure Represents (head : DmrRbHead α) (t : RbTree (ℕ × α)) : Prop where
  root : head.rbhRoot = t.root
  holds : Holds head.heap.get? none t
  nodup : t.addrs.Nodup

variable {head : DmrRbHead α} {path : Path (ℕ × α)}

theorem represents_fill {t : RbTree (ℕ × α)} :
    head.Represents (fill path t) ↔ HoldsPath head.heap.get? head.rbhRoot path t.root ∧
      Holds head.heap.get? (parentOf path) t ∧ (t.addrs ++ pathAddrs path).Nodup := by
  rw [← (RbTree.addrs_fill path t).nodup_iff, ← and_assoc, ← RbTree.holds_fill]
  exact ⟨fun h => ⟨⟨h.root, h.holds⟩, h.nodup⟩, fun h => ⟨h.1.1, h.1.2, h.2⟩⟩

/-- The stores are to the elements in `addrs`. -/
def Unchanged (head head' : DmrRbHead α) (addrs : List ℕ) : Prop :=
  ∀ r, r ∉ addrs → head'.heap.get? r = head.heap.get? r

theorem Unchanged.trans {head' head'' : DmrRbHead α} {addrs addrs' : List ℕ}
    (h : Unchanged head head' addrs) (h' : Unchanged head' head'' addrs') :
    Unchanged head head'' (addrs ++ addrs') := by
  intro r hr
  rw [List.mem_append, not_or] at hr
  exact (h' r hr.2).trans (h r hr.1)

theorem exists_store {elm : ℕ} {e : DmrRbElem α} (helm : head.heap.get? elm = some e)
    (f : DmrRbEntry → DmrRbEntry) :
    ∃ head', head.store elm f = some head' ∧ head'.rbhRoot = head.rbhRoot ∧
      head'.heap.get? elm = some { e with field := f e.field } ∧ Unchanged head head' [elm] := by
  refine ⟨{ head with heap := head.heap.set elm { e with field := f e.field } }, ?_, rfl, ?_, ?_⟩
  · rw [store, helm]
    rfl
  · show (head.heap.set elm _).get? elm = _
    rw [Heap.get?_set helm, Function.update_self]
  · intro r hr
    show (head.heap.set elm _).get? r = _
    rw [Heap.get?_set helm, Function.update_of_ne (by simpa using hr)]

theorem holds_of_unchanged {head' : DmrRbHead α} {addrs : List ℕ} {parent : Option ℕ}
    {t : RbTree (ℕ × α)} (h : Holds head.heap.get? parent t) (hun : Unchanged head head' addrs)
    (hdisj : ∀ r ∈ t.addrs, r ∉ addrs) : Holds head'.heap.get? parent t :=
  h.congr fun r hr => hun r (hdisj r hr)

theorem holdsPath_of_unchanged {head' : DmrRbHead α} {addrs : List ℕ} {rbhRoot hole : Option ℕ}
    (h : HoldsPath head.heap.get? rbhRoot path hole) (hun : Unchanged head head' addrs)
    (hdisj : ∀ r ∈ pathAddrs path, r ∉ addrs) : HoldsPath head'.heap.get? rbhRoot path hole :=
  h.congr fun r hr => hun r (hdisj r hr)

/-- A store to a root's colour. -/
theorem Represents.exists_setColor {c : Color} {l : RbTree (ℕ × α)} {v : ℕ × α}
    {r : RbTree (ℕ × α)} (h : head.Represents (fill path (.node c l v r))) (color : Color) :
    ∃ head', head.store v.1 (·.setColor color) = some head' ∧
      head'.Represents (fill path (.node color l v r)) := by
  obtain ⟨hpath, ⟨hv, hl, hr⟩, hnodup⟩ := represents_fill.mp h
  have hdisj := ((RbTree.addrs_node c l v r).append_right _).nodup_iff.mp hnodup
  obtain ⟨head', hstore, hroot, hv', hun⟩ := exists_store hv (·.setColor color)
  refine ⟨head', hstore, represents_fill.mpr ⟨?_, ⟨hv', ?_, ?_⟩, hnodup⟩⟩
  · rw [hroot]
    exact holdsPath_of_unchanged hpath hun (by grind)
  · exact holds_of_unchanged hl hun (by grind)
  · exact holds_of_unchanged hr hun (by grind)

/-- A child gets another parent. -/
theorem exists_adopt {t : RbTree (ℕ × α)} {old : Option ℕ} (h : Holds head.heap.get? old t)
    (hnodup : t.addrs.Nodup) (parent : ℕ) :
    ∃ head', head.adopt t.root parent = some head' ∧ head'.rbhRoot = head.rbhRoot ∧
      Holds head'.heap.get? (some parent) t ∧ Unchanged head head' t.addrs := by
  cases t with
  | nil => exact ⟨head, rfl, rfl, trivial, fun _ _ => rfl⟩
  | node c l v r =>
    obtain ⟨hv, hl, hr⟩ := h
    have hdisj := (RbTree.addrs_node c l v r).nodup_iff.mp hnodup
    obtain ⟨head', hstore, hroot, hv', hun⟩ := exists_store hv (·.setParent (some parent))
    refine ⟨head', hstore, hroot, ⟨hv', ?_, ?_⟩, ?_⟩
    · exact holds_of_unchanged hl hun (by grind)
    · exact holds_of_unchanged hr hun (by grind)
    · refine fun a ha => hun a ?_
      rw [(RbTree.addrs_node c l v r).mem_iff] at ha
      grind

/-- A store of what is in the place to what is above it. -/
theorem exists_setChild {s : Step (ℕ × α)} {hole : Option ℕ}
    (h : HoldsPath head.heap.get? head.rbhRoot (s :: path) hole)
    (hnodup : (pathAddrs (s :: path)).Nodup) (tmp : ℕ) :
    ∃ head', head.store s.elem.1 (·.setChild s.side (some tmp)) = some head' ∧
      HoldsPath head'.heap.get? head'.rbhRoot (s :: path) (some tmp) ∧
      Unchanged head head' (pathAddrs (s :: path)) := by
  obtain ⟨hs, hsibling, hpath⟩ := h
  have hdisj := (RbTree.pathAddrs_cons s path).nodup_iff.mp hnodup
  obtain ⟨head', hstore, hroot, hs', hun⟩ := exists_store hs (·.setChild s.side (some tmp))
  refine ⟨head', hstore, ⟨?_, ?_, ?_⟩, ?_⟩
  · rw [hs']
    obtain ⟨side, c, x, sibling⟩ := s
    cases side <;> rfl
  · exact holds_of_unchanged hsibling hun (by grind)
  · rw [hroot]
    exact holdsPath_of_unchanged hpath hun (by grind)
  · refine fun a ha => hun a ?_
    rw [(RbTree.pathAddrs_cons s path).mem_iff] at ha
    grind

theorem exists_replaceChild {elm : ℕ}
    (h : HoldsPath head.heap.get? head.rbhRoot path (some elm)) (hnodup : (pathAddrs path).Nodup)
    (helm : elm ∉ pathAddrs path) (tmp : ℕ) :
    ∃ head', head.replaceChild (parentOf path) elm tmp = some head' ∧
      HoldsPath head'.heap.get? head'.rbhRoot path (some tmp) ∧
      Unchanged head head' (pathAddrs path) := by
  cases path with
  | nil => exact ⟨{ head with rbhRoot := some tmp }, rfl, rfl, fun _ _ => rfl⟩
  | cons s path =>
    obtain ⟨head', hstore, hpath', hun⟩ := exists_setChild h hnodup tmp
    refine ⟨head', ?_, hpath', hun⟩
    obtain ⟨hs, -, -⟩ := h
    -- the other child is not at `elm`, so the macro finds the side that the place is on
    have hside := RbTree.side_eq s fun hmem : elm ∈ s.sibling.addrs =>
      helm ((RbTree.pathAddrs_cons s path).mem_iff.mpr (by simp [hmem]))
    rw [parentOf, replaceChild, load, hs, Option.map_some, Option.bind_eq_bind, Option.bind_some]
    simp only [hside]
    exact hstore

/-- A rotation brings `B` up and `A` down on the side. -/
theorem Represents.exists_rotate {side : Side} {cA cB : Color} {near inner outer : RbTree (ℕ × α)}
    {A B : ℕ × α}
    (h : head.Represents (fill path (join side cA near A (join side cB inner B outer)))) :
    ∃ head', head.rotate side A.1 = some head' ∧
      head'.Represents (fill path (join side cB (join side cA near A inner) B outer)) := by
  obtain ⟨hpath, hholds, hnodup⟩ := represents_fill.mp h
  obtain ⟨hA, hnear, hB⟩ := RbTree.holds_join.mp hholds
  obtain ⟨hB, hinner, houter⟩ := RbTree.holds_join.mp hB
  have hperm : ((join side cA near A (join side cB inner B outer)).addrs ++ pathAddrs path).Perm
      (A.1 :: (near.addrs ++ B.1 :: (inner.addrs ++ outer.addrs)) ++ pathAddrs path) :=
    ((RbTree.addrs_join _ _ _ _ _).trans
      (((RbTree.addrs_join _ _ _ _ _).append_left _).cons _)).append_right _
  -- all that is touched lies apart: two nodes, three trees and the path
  have hdisj := hperm.nodup_iff.mp hnodup
  -- the six stores of a rotation, in the order of the macro
  obtain ⟨head₁, h₁, hroot₁, hA₁, hun₁⟩ :=
    exists_store hA (·.setChild side.other inner.root)
  have hinner₁ := holds_of_unchanged hinner hun₁ (by grind)
  obtain ⟨head₂, h₂, hroot₂, hinner₂, hun₂⟩ := exists_adopt hinner₁ (by grind) A.1
  have hA₂ := (hun₂ A.1 (by grind)).trans hA₁
  have hB₂ := (hun₂ B.1 (by grind)).trans ((hun₁ B.1 (by grind)).trans hB)
  obtain ⟨head₃, h₃, hroot₃, hB₃, hun₃⟩ := exists_store hB₂ (·.setParent (parentOf path))
  have hpath₃ : HoldsPath head₃.heap.get? head₃.rbhRoot path (some A.1) := by
    rw [hroot₃, hroot₂, hroot₁]
    refine holdsPath_of_unchanged ?_ hun₃ (by grind)
    refine holdsPath_of_unchanged ?_ hun₂ (by grind)
    exact holdsPath_of_unchanged hpath hun₁ (by grind)
  obtain ⟨head₄, h₄, hpath₄, hun₄⟩ := exists_replaceChild hpath₃ (by grind) (by grind) B.1
  have hB₄ := (hun₄ B.1 (by grind)).trans hB₃
  obtain ⟨head₅, h₅, hroot₅, hB₅, hun₅⟩ := exists_store hB₄ (·.setChild side (some A.1))
  have hA₅ := (hun₅ A.1 (by grind)).trans ((hun₄ A.1 (by grind)).trans
    ((hun₃ A.1 (by grind)).trans hA₂))
  obtain ⟨head₆, h₆, hroot₆, hA₆, hun₆⟩ := exists_store hA₅ (·.setParent (some B.1))
  -- what the macro loads on the way
  refine ⟨head₆, ?_, ?_⟩
  · have hload : head.load A.1 =
        some (.ofSide side near.root (some B.1) (parentOf path) cA) := by
      rw [load, hA]
      rfl
    have hload' : head.load B.1 =
        some (.ofSide side inner.root outer.root (some A.1) cB) := by
      rw [load, hB]
      rfl
    have hload₂ : head₂.load A.1 =
        some (.ofSide side near.root inner.root (parentOf path) cA) := by
      rw [load, hA₂]
      simp
    simp only [rotate, hload, hload', Option.bind_eq_bind, Option.bind_some,
      DmrRbEntry.child_ofSide, DmrRbEntry.child_other_ofSide]
    rw [h₁, Option.bind_some, h₂, Option.bind_some, hload₂, Option.bind_some]
    show (head₂.store B.1 (·.setParent (parentOf path))).bind _ = _
    rw [h₃, Option.bind_some]
    show (head₃.replaceChild (parentOf path) A.1 B.1).bind _ = _
    rw [h₄, Option.bind_some, h₅, Option.bind_some, h₆]
  -- and what the pointers draw at its end
  · have hun₃₆ := ((hun₃.trans hun₄).trans hun₅).trans hun₆
    have hun₀₆ := (hun₁.trans hun₂).trans hun₃₆
    have hlist : (join side cB (join side cA near A inner) B outer).toList =
        (join side cA near A (join side cB inner B outer)).toList := by
      cases side <;> simp [join, RbTree.toList, Side.pick, Side.other]
    refine represents_fill.mpr ⟨?_, RbTree.holds_join.mpr ⟨?_, RbTree.holds_join.mpr ⟨?_, ?_, ?_⟩,
      ?_⟩, by rwa [RbTree.addrs, hlist]⟩
    · rw [hroot₆, hroot₅]
      exact holdsPath_of_unchanged hpath₄ (hun₅.trans hun₆) (by grind)
    · rw [hun₆ B.1 (by grind), hB₅]
      simp [RbTree.root_join, DmrRbEntry.setParent_ofSide]
    · rw [hA₆]
      simp [DmrRbEntry.setParent_ofSide]
    · exact holds_of_unchanged hnear hun₀₆ (by grind)
    · exact holds_of_unchanged hinner₂ hun₃₆ (by grind)
    · exact holds_of_unchanged houter hun₀₆ (by grind)

/-! ## Insertion

The loop of `RB_INSERT_COLOR` on the pointers goes along with `RbTree.insertColor` on the tree.
-/

theorem Represents.load_node {c : Color} {l : RbTree (ℕ × α)} {v : ℕ × α} {r : RbTree (ℕ × α)}
    (h : head.Represents (fill path (.node c l v r))) :
    head.load v.1 = some ⟨l.root, r.root, parentOf path, c⟩ := by
  obtain ⟨-, ⟨hv, -, -⟩, -⟩ := represents_fill.mp h
  rw [load, hv]
  rfl

theorem Represents.load_step {s : Step (ℕ × α)} {t : RbTree (ℕ × α)}
    (h : head.Represents (fill (s :: path) t)) :
    head.load s.elem.1 =
      some (.ofSide s.side t.root s.sibling.root (parentOf path) s.color) := by
  obtain ⟨⟨hs, -, -⟩, -, -⟩ := represents_fill.mp h
  rw [load, hs]
  rfl

theorem Represents.isRed_root {t : RbTree (ℕ × α)} (h : head.Represents (fill path t)) :
    head.isRed t.root = some t.isRed := by
  cases t with
  | nil => rfl
  | node c l v r =>
    show (head.load v.1).map _ = _
    rw [h.load_node]
    cases c <;> rfl

theorem Represents.exists_setColor_join {side : Side} {c : Color} {near : RbTree (ℕ × α)}
    {v : ℕ × α} {far : RbTree (ℕ × α)} (h : head.Represents (fill path (join side c near v far)))
    (color : Color) :
    ∃ head', head.store v.1 (·.setColor color) = some head' ∧
      head'.Represents (fill path (join side color near v far)) :=
  h.exists_setColor color

/-- A parent and its child, which become red and black. -/
theorem Represents.exists_setBlackred {side side' : Side} {c c' : Color}
    {near far far' : RbTree (ℕ × α)} {A B : ℕ × α}
    (h : head.Represents (fill path (join side c (join side' c' near B far') A far))) :
    ∃ head', head.setBlackred B.1 A.1 = some head' ∧
      head'.Represents (fill path (join side .red (join side' .black near B far') A far)) := by
  have hchild : head.Represents (fill (⟨side, c, A, far⟩ :: path) (join side' c' near B far')) := h
  obtain ⟨head₁, h₁, hrep₁⟩ := hchild.exists_setColor_join .black
  have hparent : head₁.Represents
      (fill path (join side c (join side' .black near B far') A far)) := hrep₁
  obtain ⟨head₂, h₂, hrep₂⟩ := hparent.exists_setColor_join .red
  refine ⟨head₂, ?_, hrep₂⟩
  rw [setBlackred, h₁, Option.bind_eq_bind, Option.bind_some, h₂]

/-- The child comes up, black, and its parent goes down, red. -/
theorem Represents.exists_rotate_up {side : Side} {c c' : Color}
    {outer inner far : RbTree (ℕ × α)} {A B : ℕ × α}
    (h : head.Represents (fill path (join side c (join side c' outer B inner) A far))) :
    ∃ head₁ head₂, head.setBlackred B.1 A.1 = some head₁ ∧
      head₁.rotate side.other A.1 = some head₂ ∧
      head₂.Represents (fill path (join side .black outer B (join side .red inner A far))) := by
  obtain ⟨head₁, h₁, hrep₁⟩ := h.exists_setBlackred
  rw [← RbTree.join_other side .red, ← RbTree.join_other side .black] at hrep₁
  obtain ⟨head₂, h₂, hrep₂⟩ := hrep₁.exists_rotate
  rw [RbTree.join_other, RbTree.join_other] at hrep₂
  exact ⟨head₁, head₂, h₁, h₂, hrep₂⟩

theorem Represents.exists_blackenRoot {c : Color} {l : RbTree (ℕ × α)} {v : ℕ × α}
    {r : RbTree (ℕ × α)} (h : head.Represents (fill path (.node c l v r))) :
    ∃ head', head.blackenRoot = some head' ∧
      head'.Represents (fill path (.node c l v r)).setBlack := by
  cases ht : fill path (.node c l v r) with
  | nil =>
    have hmem : v ∈ (fill path (.node c l v r)).toList := by
      rw [RbTree.toList_fill, RbTree.toList]
      simp
    rw [ht] at hmem
    cases hmem
  | node c' l' v' r' =>
    rw [ht] at h
    have hroot : head.Represents (fill [] (.node c' l' v' r')) := h
    obtain ⟨head', hstore, h'⟩ := hroot.exists_setColor .black
    refine ⟨head', ?_, h'⟩
    rw [blackenRoot, h.root]
    exact hstore

/-- The loop ends below a black node. -/
theorem Represents.exists_insertColor_of_black {s : Step (ℕ × α)} {c : Color}
    {l : RbTree (ℕ × α)} {v : ℕ × α} {r : RbTree (ℕ × α)}
    (h : head.Represents (fill (s :: path) (.node c l v r))) (hs : s.color = .black) (fuel : ℕ) :
    ∃ head', head.insertColor (fuel + 1) v.1 = some head' ∧
      head'.Represents (fill (s :: path) (.node c l v r)).setBlack := by
  obtain ⟨head', hblacken, h'⟩ := h.exists_blackenRoot
  refine ⟨head', ?_, h'⟩
  rw [insertColor, h.load_node, Option.bind_eq_bind, Option.bind_some]
  simp only [parentOf]
  rw [h.load_step, Option.bind_eq_bind, Option.bind_some]
  rw [if_pos (by simp [DmrRbEntry.ofSide, hs]), hblacken]

/-- A round of the loop below a red node. -/
theorem Represents.insertColor_succ {l : RbTree (ℕ × α)} {v : ℕ × α} {r : RbTree (ℕ × α)}
    {p g : Step (ℕ × α)} (h : head.Represents (fill (p :: g :: path) (.node .red l v r)))
    (hp : p.color ≠ .black) (fuel : ℕ) :
    head.insertColor (fuel + 1) v.1 =
      if g.sibling.isRed then do
        let uncle ← g.sibling.root
        let head ← head.store uncle (·.setColor .black)
        let head ← head.setBlackred p.elem.1 g.elem.1
        insertColor fuel head g.elem.1
      else if p.side = g.side then do
        let head ← head.setBlackred p.elem.1 g.elem.1
        let head ← head.rotate g.side.other g.elem.1
        insertColor fuel head v.1
      else (do
        let head ← head.rotate g.side p.elem.1
        let head ← head.setBlackred v.1 g.elem.1
        let head ← head.rotate g.side.other g.elem.1
        insertColor fuel head p.elem.1) := by
  have hg : head.Represents (fill (g :: path) (p.fill (.node .red l v r))) := h
  have huncle : head.Represents (fill (g.flip (p.fill (.node .red l v r)) :: path) g.sibling) := by
    rwa [fill, Step.fill_flip]
  have hperm := ((RbTree.pathAddrs_cons p (g :: path)).trans
    (((RbTree.pathAddrs_cons g path).append_left _).cons _)).append_left
      (RbTree.node .red l v r).addrs
  have hdisj := hperm.nodup_iff.mp (represents_fill.mp h).2.2
  have hv : v.1 ∈ (RbTree.node .red l v r).addrs := RbTree.mem_addrs_of_root rfl
  have hred : p.color = .red := Color.eq_red hp
  have hside := RbTree.side_eq g (show p.elem.1 ∉ g.sibling.addrs by grind)
  -- whether the node is the inner child is all that the macro asks of it
  have hinner : (DmrRbEntry.ofSide p.side (some v.1) p.sibling.root (parentOf (g :: path))
      .red).child g.side.other = some v.1 ↔ p.side ≠ g.side := by
    -- the sibling cannot be the same node, as addresses are used once
    by_cases hps : p.side = g.side
    · rw [← hps, DmrRbEntry.child_other_ofSide]
      refine iff_of_false (fun hroot => ?_) (not_not.mpr rfl)
      have := RbTree.mem_addrs_of_root hroot
      grind
    · rw [← Side.eq_other hps, DmrRbEntry.child_ofSide]
      exact iff_of_true rfl hps
  have hroot : (RbTree.node .red l v r).root = some v.1 := rfl
  have hroot' : (p.fill (.node .red l v r)).root = some p.elem.1 := rfl
  -- one round of the loop, with every load that it makes
  rw [insertColor, h.load_node, Option.bind_eq_bind, Option.bind_some]
  simp only [parentOf]
  rw [h.load_step, hroot, hred, Option.bind_eq_bind, Option.bind_some]
  rw [if_neg (by simp [DmrRbEntry.ofSide])]
  show (head.load g.elem.1).bind _ = _
  rw [hg.load_step, hroot', Option.bind_some]
  simp only [hside, hinner, DmrRbEntry.child_other_ofSide]
  rw [huncle.isRed_root, Option.bind_eq_bind, Option.bind_some, ite_not]

theorem Represents.exists_insertColor {l : RbTree (ℕ × α)} {v : ℕ × α} {r : RbTree (ℕ × α)}
    (h : head.Represents (fill path (.node .red l v r)))
    (hroot : ∀ s, path.getLast? = some s → s.color = .black) {fuel : ℕ}
    (hfuel : path.length < fuel) :
    ∃ head', head.insertColor fuel v.1 = some head' ∧
      head'.Represents (RbTree.insertColor l v r path) := by
  obtain ⟨fuel, rfl⟩ : ∃ n, fuel = n + 1 := ⟨fuel - 1, by omega⟩
  induction l, v, r, path using RbTree.insertColor.induct generalizing head fuel with
  -- the root, and a node below a black one: the loop ends
  | case1 l v r =>
    obtain ⟨head', hblacken, h'⟩ := h.exists_blackenRoot
    refine ⟨head', ?_, h'⟩
    rw [insertColor, h.load_node, Option.bind_eq_bind, Option.bind_some]
    exact hblacken
  | case2 l v r p => exact h.exists_insertColor_of_black (hroot p rfl) fuel
  | case3 l v r p g path hp =>
    obtain ⟨head', hinsert, h'⟩ := h.exists_insertColor_of_black hp fuel
    refine ⟨head', hinsert, ?_⟩
    rwa [RbTree.insertColor, if_pos hp]
  -- a red uncle: colours move up, and the loop goes on from the grandparent
  | case4 l v r p g path hp hred ih =>
    have huncle :
        head.Represents (fill (g.flip (p.fill (.node .red l v r)) :: path) g.sibling) := by
      rwa [fill, Step.fill_flip]
    obtain ⟨c, ul, u, ur, hu⟩ : ∃ c ul u ur, g.sibling = .node c ul u ur := by
      cases hs : g.sibling with
      | nil =>
        rw [hs] at hred
        cases hred
      | node c ul u ur => exact ⟨c, ul, u, ur, rfl⟩
    rw [hu] at huncle
    obtain ⟨head₁, h₁, hrep₁⟩ := huncle.exists_setColor .black
    have hparent : head₁.Represents (fill path (join g.side g.color
        (join p.side p.color (.node .red l v r) p.elem p.sibling) g.elem
        (.node .black ul u ur))) := by
      rw [fill, Step.fill] at hrep₁
      rwa [Step.flip, RbTree.join_other] at hrep₁
    obtain ⟨head₂, h₂, hrep₂⟩ := hparent.exists_setBlackred
    have hlast (s : Step (ℕ × α)) (hs : path.getLast? = some s) : s.color = .black := by
      refine hroot s ?_
      rw [List.getLast?_cons, List.getLast?_cons, hs]
      rfl
    have hrep : head₂.Represents (fill path (.node .red
        (g.side.pick (p.fill (.node .red l v r)).setBlack g.sibling.setBlack) g.elem
        (g.side.other.pick (p.fill (.node .red l v r)).setBlack g.sibling.setBlack))) := by
      rw [hu]
      exact hrep₂
    obtain ⟨fuel, rfl⟩ : ∃ n, fuel = n + 1 := ⟨fuel - 1, by simp at hfuel; omega⟩
    obtain ⟨head', hinsert, h'⟩ := ih hrep hlast fuel (by simp at hfuel; omega)
    refine ⟨head', ?_, ?_⟩
    · rw [h.insertColor_succ hp, if_pos hred, hu]
      simp only [RbTree.root, Option.bind_eq_bind, Option.bind_some, h₁, h₂]
      exact hinsert
    · rwa [RbTree.insertColor, if_neg hp, if_pos hred]
  -- a black uncle: after one or two rotations the loop ends
  | case5 l v r p g path hp hred =>
    rw [RbTree.insertColor, if_neg hp, if_neg hred, RbTree.rotated]
    rw [h.insertColor_succ hp, if_neg hred]
    obtain ⟨fuel, rfl⟩ : ∃ n, fuel = n + 1 := ⟨fuel - 1, by simp at hfuel; omega⟩
    by_cases hps : p.side = g.side
    · rw [if_pos hps, if_pos hps]
      rw [fill, fill, Step.fill, Step.fill, hps] at h
      obtain ⟨head₁, head₂, h₁, h₂, hrep₂⟩ := h.exists_rotate_up
      have hblack : head₂.Represents (fill (⟨g.side, .black, p.elem,
          join g.side .red p.sibling g.elem g.sibling⟩ :: path) (.node .red l v r)) := hrep₂
      obtain ⟨head', hinsert, h'⟩ := hblack.exists_insertColor_of_black rfl fuel
      refine ⟨head', ?_, h'⟩
      simp only [Option.bind_eq_bind, Option.bind_some, h₁, h₂]
      exact hinsert
    · rw [if_neg hps, if_neg hps]
      have hside : p.side = g.side.other := Side.eq_other hps
      have hinner : head.Represents (fill (g :: path) (join g.side .red p.sibling p.elem
          (join g.side .red (g.side.pick l r) v (g.side.other.pick l r)))) := by
        rw [fill, Step.fill, Color.eq_red hp, hside, RbTree.join_other] at h
        rwa [RbTree.join_pick]
      obtain ⟨head₁, h₁, hrep₁⟩ := hinner.exists_rotate
      have houter : head₁.Represents (fill path (join g.side g.color (join g.side .red
          (join g.side .red p.sibling p.elem (g.side.pick l r)) v (g.side.other.pick l r))
          g.elem g.sibling)) := hrep₁
      obtain ⟨head₂, head₃, h₂, h₃, hrep₃⟩ := houter.exists_rotate_up
      have hblack : head₃.Represents (fill (⟨g.side, .black, v,
          join g.side .red (g.side.other.pick l r) g.elem g.sibling⟩ :: path)
          (.node .red (g.side.pick p.sibling (g.side.pick l r)) p.elem
            (g.side.other.pick p.sibling (g.side.pick l r)))) := hrep₃
      obtain ⟨head', hinsert, h'⟩ := hblack.exists_insertColor_of_black rfl fuel
      refine ⟨head', ?_, h'⟩
      simp only [Option.bind_eq_bind, Option.bind_some, h₁, h₂, h₃]
      exact hinsert

/-! ## Searching

The way down is the path of `descend`, and its length is bounded by the depth of the tree.
-/

/-- How `key` compares with the element of a node. -/
def cut (cmp : α → α → Int) (key : α) (v : ℕ × α) : Ordering :=
  if cmp key v.2 < 0 then .lt else if cmp key v.2 > 0 then .gt else .eq

variable {cmp : α → α → Int} {key : α}

/-- The search goes where `descend` goes, in as many rounds as the tree is deep. -/
theorem Represents.exists_search {t : RbTree (ℕ × α)} (h : head.Represents (fill path t))
    {parent : Option ℕ} {comp : Int} (hparent : parent = parentOf path)
    (hcomp : ∀ s, path.head? = some s → s.side = if comp < 0 then .left else .right)
    {fuel : ℕ} (hfuel : t.depth ≤ fuel) :
    ∃ parent' comp', search cmp head key fuel t.root parent comp =
        some ((RbTree.descend (cut cmp key) t path).1.root, parent', comp') ∧
      ((RbTree.descend (cut cmp key) t path).1 = .nil →
        parent' = parentOf (RbTree.descend (cut cmp key) t path).2 ∧
          ∀ s, (RbTree.descend (cut cmp key) t path).2.head? = some s →
            s.side = if comp' < 0 then .left else .right) := by
  -- the parent and the last comparison are those of the path so far
  induction t generalizing path fuel parent comp with
  | nil =>
    refine ⟨parent, comp, ?_, fun _ => ⟨hparent, hcomp⟩⟩
    cases fuel <;> rfl
  | node c l v r ihl ihr =>
    obtain ⟨fuel, rfl⟩ : ∃ n, fuel = n + 1 := ⟨fuel - 1, by rw [RbTree.depth] at hfuel; omega⟩
    rw [RbTree.depth] at hfuel
    obtain ⟨-, ⟨hv, -, -⟩, -⟩ := represents_fill.mp h
    rw [RbTree.root, search, hv, Option.bind_eq_bind, Option.bind_some, RbTree.descend, cut]
    dsimp only
    by_cases hlt : cmp key v.2 < 0
    · rw [if_pos hlt, if_pos hlt]
      have hleft : head.Represents (fill (⟨.left, c, v, r⟩ :: path) l) := h
      refine ihl hleft rfl ?_ (by omega)
      rintro s ⟨⟩
      rw [if_pos hlt]
    · rw [if_neg hlt, if_neg hlt]
      by_cases hgt : cmp key v.2 > 0
      · rw [if_pos hgt, if_pos hgt]
        have hright : head.Represents (fill (⟨.right, c, v, l⟩ :: path) r) := h
        refine ihr hright rfl ?_ (by omega)
        rintro s ⟨⟩
        rw [if_neg hlt]
      · rw [if_neg hgt, if_neg hgt]
        refine ⟨_, _, rfl, fun hnil => ?_⟩
        cases hnil

/-- Every element is an object of its own. -/
theorem Represents.size_le {t : RbTree (ℕ × α)} (h : head.Represents t) :
    t.size ≤ head.heap.live.card := by
  have hlive : ∀ a ∈ t.addrs, a ∈ head.heap.live := by
    intro a ha
    obtain ⟨v, hv, rfl⟩ := List.mem_map.mp ha
    obtain ⟨field, hget⟩ := h.holds.exists_get hv
    exact (head.heap.mem_live v.1).mpr (by rw [hget]; rfl)
  calc t.size = t.addrs.length := by rw [RbTree.addrs, List.length_map, RbTree.length_toList]
    _ = t.addrs.toFinset.card := (List.toFinset_card_of_nodup h.nodup).symm
    _ ≤ head.heap.live.card :=
      Finset.card_le_card fun a ha => hlive a (List.mem_toFinset.mp ha)

theorem Represents.depth_lt_fuel {t : RbTree (ℕ × α)} (h : head.Represents t) :
    t.depth < head.fuel := by
  have hle := t.depth_le_size.trans h.size_le
  unfold fuel
  omega

theorem Represents.exists_search_root {t : RbTree (ℕ × α)} (h : head.Represents t)
    (cmp : α → α → Int) (key : α) :
    ∃ parent comp, search cmp head key head.fuel head.rbhRoot none 0 =
        some ((RbTree.descend (cut cmp key) t []).1.root, parent, comp) ∧
      ((RbTree.descend (cut cmp key) t []).1 = .nil →
        parent = parentOf (RbTree.descend (cut cmp key) t []).2 ∧
          ∀ s, (RbTree.descend (cut cmp key) t []).2.head? = some s →
            s.side = if comp < 0 then .left else .right) := by
  have hroot : head.Represents (fill [] t) := h
  rw [h.root]
  exact hroot.exists_search rfl nofun h.depth_lt_fuel.le

theorem Represents.find_eq {t : RbTree (ℕ × α)} (h : head.Represents t) :
    head.find cmp key = some (RbTree.descend (cut cmp key) t []).1.root := by
  obtain ⟨parent, comp, hsearch, -⟩ := h.exists_search_root cmp key
  rw [find, hsearch]
  rfl

/-- `DMR_RB_SET` and the link to it, at an empty place. -/
theorem Represents.exists_link (h : head.Represents (fill path .nil)) {elm : ℕ}
    {e : DmrRbElem α} (helm : head.heap.get? elm = some e) (hnew : elm ∉ pathAddrs path)
    {comp : Int}
    (hcomp : ∀ s, path.head? = some s → s.side = if comp < 0 then .left else .right) :
    ∃ head₁ head₂, head.store elm (fun _ => ⟨none, none, parentOf path, .red⟩) = some head₁ ∧
      head₁.link (parentOf path) comp elm = some head₂ ∧
      head₂.Represents (fill path (.node .red .nil (elm, e.val) .nil)) := by
  obtain ⟨hpath, -, hnodup⟩ := represents_fill.mp h
  rw [show (RbTree.nil : RbTree (ℕ × α)).addrs = [] from rfl, List.nil_append] at hnodup
  obtain ⟨head₁, h₁, hroot₁, helm₁, hun₁⟩ :=
    exists_store helm fun _ => ⟨none, none, parentOf path, .red⟩
  have hpath₁ : HoldsPath head₁.heap.get? head₁.rbhRoot path none := by
    rw [hroot₁]
    exact holdsPath_of_unchanged hpath hun₁ (by grind)
  have hnodup' : ((RbTree.node .red .nil (elm, e.val) .nil).addrs ++ pathAddrs path).Nodup :=
    List.nodup_cons.mpr ⟨hnew, hnodup⟩
  cases path with
  | nil =>
    refine ⟨head₁, { head₁ with rbhRoot := some elm }, h₁, rfl, ?_⟩
    exact represents_fill.mpr ⟨rfl, ⟨helm₁, trivial, trivial⟩, hnodup'⟩
  | cons s path =>
    obtain ⟨head₂, h₂, hpath₂, hun₂⟩ := exists_setChild hpath₁ hnodup elm
    refine ⟨head₁, head₂, h₁, ?_, represents_fill.mpr ⟨hpath₂, ⟨?_, trivial, trivial⟩, hnodup'⟩⟩
    · rw [hcomp s rfl] at h₂
      exact h₂
    · exact (hun₂ elm hnew).trans helm₁

/-- **Insertion.** An element that is not in the tree goes to the empty place where the search
for it ends, and the tree is repaired. Where the search finds another one, nothing happens. -/
theorem Represents.exists_insert {t : RbTree (ℕ × α)} (h : head.Represents t)
    (cmp : α → α → Int) {n : ℕ} (hbalanced : t.Balanced .black n) {elm : ℕ} {e : DmrRbElem α}
    (helm : head.heap.get? elm = some e) (hnew : elm ∉ t.addrs) :
    ∃ head', head.insert cmp elm = some ((RbTree.descend (cut cmp e.val) t []).1.root, head') ∧
      head'.Represents (t.insert (cut cmp e.val) (elm, e.val)) := by
  obtain ⟨parent, comp, hsearch, hnil⟩ := h.exists_search_root cmp e.val
  have hfill := RbTree.fill_descend (cut cmp e.val) t []
  have hfits := hbalanced.fits_descend_root (cut cmp e.val)
  unfold RbTree.insert
  split
  -- the search has found a place, or an element that compares equal
  · next path hdescend =>
    rw [hdescend] at hsearch hfill hfits hnil
    obtain ⟨rfl, hcomp⟩ := hnil rfl
    obtain rfl : fill path .nil = t := hfill
    have hrep : head.Represents (fill path .nil) := h
    have hnew' : elm ∉ pathAddrs path := fun hmem =>
      hnew ((RbTree.addrs_fill path .nil).mem_iff.mpr (List.mem_append_right _ hmem))
    obtain ⟨head₁, head₂, h₁, h₂, hrep₂⟩ := hrep.exists_link helm hnew' hcomp
    -- a path is never longer than the heap has elements
    have hlength : path.length < head₂.fuel := by
      have hpath := RbTree.length_add_size_le path (.node .red .nil (elm, e.val) .nil)
      have hcard := hrep₂.size_le
      unfold fuel
      omega
    obtain ⟨head', hcolor, h'⟩ := hrep₂.exists_insertColor
      (fun s hs => (hfits rfl).getLast_eq_black hs) hlength
    refine ⟨head', ?_, h'⟩
    rw [insert, helm, hdescend]
    simp only [Option.bind_eq_bind, Option.bind_some, hsearch, RbTree.root, Option.isSome_none,
      Bool.false_eq_true, if_false, h₁, h₂, hcolor]
    rfl
  · next hdescend =>
    rw [hdescend] at hsearch
    refine ⟨head, ?_, h⟩
    rw [insert, helm, hdescend, Option.bind_eq_bind, Option.bind_some, hsearch]
    rfl

/-! ## One element after the other

The next element is the leftmost one on the right, or the first one above that is reached from the
left.
-/

theorem Represents.exists_outermost {side : Side} {c : Color} {near : RbTree (ℕ × α)} {v : ℕ × α}
    {far : RbTree (ℕ × α)} (h : head.Represents (fill path (join side c near v far))) {fuel : ℕ}
    (hfuel : near.depth < fuel) :
    ∃ w, (join side c near v far).outer side = some w ∧
      outermost side head fuel v.1 = some w.1 := by
  induction fuel generalizing path c near v far with
  | zero => exact absurd hfuel (Nat.not_lt_zero _)
  | succ fuel ih =>
    have hnear : head.Represents (fill (⟨side, c, v, far⟩ :: path) near) := h
    have hload := hnear.load_step
    rw [outermost, hload, Option.bind_eq_bind, Option.bind_some, DmrRbEntry.child_ofSide,
      RbTree.outer_join]
    cases near with
    | nil => exact ⟨v, by cases side <;> rfl, rfl⟩
    | node c' l v' r =>
      rw [← RbTree.join_pick side] at h hfuel ⊢
      rw [RbTree.depth_join] at hfuel
      have hnear' : head.Represents (fill (⟨side, c, v, far⟩ :: path)
          (join side c' (side.pick l r) v' (side.other.pick l r))) := h
      obtain ⟨w, hw, heq⟩ := ih hnear' (by omega)
      exact ⟨w, by rw [hw]; rfl, heq⟩

theorem Represents.exists_load_root {t : RbTree (ℕ × α)} (h : head.Represents (fill path t))
    {elm : ℕ} (hroot : t.root = some elm) :
    ∃ left right color, head.load elm = some ⟨left, right, parentOf path, color⟩ := by
  cases t with
  | nil => cases hroot
  | node c l v r =>
    obtain rfl : v.1 = elm := Option.some.inj hroot
    exact ⟨_, _, _, h.load_node⟩

/-- The other child is another element. -/
theorem Represents.root_sibling_ne {s : Step (ℕ × α)} {t : RbTree (ℕ × α)}
    (h : head.Represents (fill (s :: path) t)) {elm : ℕ} (hroot : t.root = some elm) :
    s.sibling.root ≠ some elm := by
  intro hsibling
  have hdisj := ((RbTree.pathAddrs_cons s path).append_left t.addrs).nodup_iff.mp
    (represents_fill.mp h).2.2
  have hmem := RbTree.mem_addrs_of_root hroot
  have hmem' := RbTree.mem_addrs_of_root hsibling
  grind

/-- The loop goes up to the first ancestor whose left child it comes from. -/
theorem Represents.climb_eq {t : RbTree (ℕ × α)} (h : head.Represents (fill path t)) {elm : ℕ}
    (hroot : t.root = some elm) {fuel : ℕ} (hfuel : path.length < fuel) :
    climb head fuel elm = some ((after path).head?.map Prod.fst) := by
  induction path generalizing t elm fuel with
  | nil =>
    obtain ⟨fuel, rfl⟩ : ∃ n, fuel = n + 1 := ⟨fuel - 1, by omega⟩
    obtain ⟨near, far, color, hload⟩ := h.exists_load_root hroot
    rw [climb, hload]
    rfl
  | cons s path ih =>
    obtain ⟨fuel, rfl⟩ : ∃ n, fuel = n + 1 := ⟨fuel - 1, by omega⟩
    obtain ⟨near, far, color, hload⟩ := h.exists_load_root hroot
    rw [climb, hload, Option.bind_eq_bind, Option.bind_some]
    simp only [parentOf]
    rw [h.load_step, hroot, Option.bind_some, after]
    rw [List.length_cons] at hfuel
    cases hs : s.side with
    | left => exact if_neg (h.root_sibling_ne hroot)
    | right =>
      refine (if_pos rfl).trans ?_
      exact ih (t := s.fill t) h rfl (by omega)

theorem Represents.next_eq {t : RbTree (ℕ × α)} (h : head.Represents t)
    {xs ys : List (ℕ × α)} {v : ℕ × α} (ht : t.toList = xs ++ v :: ys) :
    head.next v.1 = some (ys.head?.map Prod.fst) := by
  obtain ⟨path, c, l, r, rfl, -, hafter⟩ := RbTree.exists_place ht []
  rw [after, List.append_nil] at hafter
  subst hafter
  have hfuel := RbTree.length_add_size_le path (.node c l v r)
  have hcard := h.size_le
  rw [RbTree.size] at hfuel
  have hclimb : climb head head.fuel v.1 = some ((after path).head?.map Prod.fst) :=
    h.climb_eq rfl (by unfold fuel; omega)
  rw [next, h.load_node, Option.bind_eq_bind, Option.bind_some]
  cases r with
  | nil =>
    cases path with
    | nil => exact hclimb
    | cons s path =>
      simp only [RbTree.root, parentOf]
      rw [h.load_step, Option.bind_some]
      cases hs : s.side with
      | left =>
        -- here the loop would stop at once
        refine (if_pos rfl).trans ?_
        rw [RbTree.toList, after, hs]
        rfl
      | right => exact (if_neg (h.root_sibling_ne rfl)).trans hclimb
  | node c' l' v' r' =>
    have hdepth := l'.depth_le_size
    rw [RbTree.size] at hfuel
    have hright : head.Represents (fill (⟨.right, c, v, l⟩ :: path) (join .left c' l' v' r')) := h
    have hlt : l'.depth < head.fuel := by
      unfold fuel
      omega
    obtain ⟨w, hw, heq⟩ := hright.exists_outermost hlt
    have hhead : (RbTree.node c' l' v' r').toList.head? = some w := hw
    show (outermost .left head head.fuel v'.1).map some = _
    rw [heq, List.head?_append, hhead]
    rfl

/-- From any element on, the loop comes to each one that is right of it, and to its end. -/
theorem Represents.foreach_eq {t : RbTree (ℕ × α)} (h : head.Represents t)
    (xs : List (ℕ × α)) {ys : List (ℕ × α)} (ht : t.toList = xs ++ ys) {fuel : ℕ}
    (hfuel : ys.length ≤ fuel) :
    head.foreach fuel (ys.head?.map Prod.fst) = some (ys.map Prod.fst) := by
  induction ys generalizing xs fuel with
  | nil => cases fuel <;> rfl
  | cons v ys ih =>
    obtain ⟨fuel, rfl⟩ : ∃ n, fuel = n + 1 := ⟨fuel - 1, by simp at hfuel; omega⟩
    have hlength : ys.length ≤ fuel := by
      rw [List.length_cons] at hfuel
      omega
    have ht' : t.toList = (xs ++ [v]) ++ ys := by
      rw [ht, List.append_assoc]
      rfl
    rw [List.head?_cons, Option.map_some, foreach, h.next_eq ht, Option.bind_eq_bind,
      Option.bind_some, ih (xs ++ [v]) ht' hlength]
    rfl

theorem Represents.minmax_eq {t : RbTree (ℕ × α)} (h : head.Represents t) (side : Side) :
    head.minmax side = some ((t.outer side).map Prod.fst) := by
  rw [minmax, h.root]
  cases t with
  | nil => cases side <;> rfl
  | node c l v r =>
    have hfuel := h.depth_lt_fuel
    rw [← RbTree.join_pick side] at h hfuel ⊢
    rw [RbTree.depth_join] at hfuel
    have hroot : head.Represents
        (fill [] (join side c (side.pick l r) v (side.other.pick l r))) := h
    have hlt : (side.pick l r).depth < head.fuel := by omega
    obtain ⟨w, hw, heq⟩ := hroot.exists_outermost hlt
    rw [hw]
    show (outermost side head head.fuel v.1).map some = _
    rw [heq]
    rfl

end Dmrlib.DmrRbHead
