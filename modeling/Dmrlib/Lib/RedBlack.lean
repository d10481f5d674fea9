import Mathlib

/-!
# Red-black trees, seen from a node

A program that inserts into a red-black tree walks down to a place, puts a red node there, and
walks up again to repair what that broke. What lies above the place is a `Path`: for each node
on the way to the root its colour, its element, its other child, and the side the place is on.
`fill` puts a tree into the place.

`insertColor` is the repair, from a red node with its children and the path above it. The order
of the elements stays what it was (`toList_insertColor`), and where the node is the only one that
may break the rules, the result keeps them (`balanced_insertColor`). `descend` is the search for
a place; in an ordered tree it passes between the elements that lie on either side of it
(`descend_between`). A tree that keeps the rules is not deep (`Balanced.depth_le`).

The two sides are mirror images: `join` builds a node from a child on a given side and the other
one, and what holds of a side is proved for both.

- `RbTree`: trees with a colour at each node.
- `Path`, `fill`: the surroundings of a place, and the tree around it.
- `descend`: the search.
- `Balanced`: no red node has a red child, and all ways down pass as many black nodes.
- `Fits`: what a path asks of a tree at its place.
- `insert`, `Balanced.insert`: insertion, and that it keeps the rules.
- `Balanced.depth_le`: the depth is at most twice the logarithm of the number of nodes.
-/

inductive RbTree.Color where
  | black
  | red
deriving DecidableEq

inductive RbTree.Side where
  | left
  | right
deriving DecidableEq

theorem RbTree.Color.eq_red {c : RbTree.Color} (h : c ≠ .black) : c = .red := by
  cases c with
  | black => exact absurd rfl h
  | red => rfl

def RbTree.Side.other : RbTree.Side → RbTree.Side
  | left => right
  | right => left

theorem RbTree.Side.eq_other {s s' : RbTree.Side} (h : s ≠ s') : s = s'.other := by
  cases s <;> cases s' <;> first | rfl | exact absurd rfl h

/-- The one of two things that is on the side. -/
def RbTree.Side.pick {β : Type*} : RbTree.Side → β → β → β
  | left, l, _ => l
  | right, _, r => r

inductive RbTree (α : Type*) where
  | nil
  | node (c : RbTree.Color) (l : RbTree α) (v : α) (r : RbTree α)

namespace RbTree

variable {α : Type*}

/-- The node with `near` on the side and `far` on the other one. -/
def join (side : Side) (c : Color) (near : RbTree α) (v : α) (far : RbTree α) : RbTree α :=
  .node c (side.pick near far) v (side.other.pick near far)

def isRed : RbTree α → Bool
  | node .red _ _ _ => true
  | _ => false

/-- The tree with a black root. -/
def setBlack : RbTree α → RbTree α
  | nil => nil
  | node _ l v r => node .black l v r

/-- The elements from left to right. -/
def toList : RbTree α → List α
  | nil => []
  | node _ l v r => l.toList ++ v :: r.toList

def size : RbTree α → ℕ
  | nil => 0
  | node _ l _ r => l.size + r.size + 1

/-- How many nodes are on the longest way down. -/
def depth : RbTree α → ℕ
  | nil => 0
  | node _ l _ r => max l.depth r.depth + 1

@[simp]
theorem toList_setBlack (t : RbTree α) : t.setBlack.toList = t.toList := by
  cases t <;> rfl

theorem length_toList (t : RbTree α) : t.toList.length = t.size := by
  induction t with
  | nil => rfl
  | node c l v r ihl ihr =>
    rw [toList, size, List.length_append, List.length_cons, ihl, ihr]
    omega

theorem join_pick (side : Side) (c : Color) (l : RbTree α) (v : α) (r : RbTree α) :
    join side c (side.pick l r) v (side.other.pick l r) = node c l v r := by
  cases side <;> rfl

theorem depth_join (side : Side) (c : Color) (near : RbTree α) (v : α) (far : RbTree α) :
    (join side c near v far).depth = max near.depth far.depth + 1 := by
  cases side with
  | left => rfl
  | right => exact congrArg (· + 1) (Nat.max_comm _ _)

/-- The first or the last element. -/
def outer (side : Side) (t : RbTree α) : Option α := side.pick t.toList.head? t.toList.getLast?

theorem outer_join (side : Side) (c : Color) (near : RbTree α) (v : α) (far : RbTree α) :
    (join side c near v far).outer side = (near.outer side).or (some v) := by
  cases side with
  | left => simp [outer, join, Side.pick, Side.other, toList, List.head?_append]
  | right =>
    simp [outer, join, Side.pick, Side.other, toList, List.getLast?_append, List.getLast?_cons]

/-! ## Paths

A path is read from the place upwards. What lies to the left of a place and to its right are its
lists `before` and `after`.
-/

/-- A node above a place: the side the place is on, and what is on the other one. -/
structure Step (α : Type*) where
  side : Side
  color : Color
  elem : α
  sibling : RbTree α

/-- The nodes above a place, the nearest first. -/
abbrev Path (α : Type*) := List (Step α)

def Step.fill (s : Step α) (t : RbTree α) : RbTree α := join s.side s.color t s.elem s.sibling

/-- The way to the other child, with `t` in the place. -/
def Step.flip (s : Step α) (t : RbTree α) : Step α := ⟨s.side.other, s.color, s.elem, t⟩

theorem join_other (side : Side) (c : Color) (near : RbTree α) (v : α) (far : RbTree α) :
    join side.other c far v near = join side c near v far := by
  cases side <;> rfl

theorem Step.fill_flip (s : Step α) (t : RbTree α) : (s.flip t).fill s.sibling = s.fill t :=
  join_other s.side s.color t s.elem s.sibling

/-- The whole tree, with `t` in the place. -/
def fill : Path α → RbTree α → RbTree α
  | [], t => t
  | s :: path, t => fill path (s.fill t)

/-- The elements left of the place. -/
def before : Path α → List α
  | [] => []
  | s :: path => before path ++ s.side.pick [] (s.sibling.toList ++ [s.elem])

/-- The elements right of the place. -/
def after : Path α → List α
  | [] => []
  | s :: path => s.side.pick (s.elem :: s.sibling.toList) [] ++ after path

theorem Step.toList_fill (s : Step α) (t : RbTree α) :
    (s.fill t).toList = s.side.pick [] (s.sibling.toList ++ [s.elem]) ++ t.toList ++
      s.side.pick (s.elem :: s.sibling.toList) [] := by
  unfold Step.fill join
  cases s.side <;> simp [Side.pick, Side.other, toList]

theorem toList_fill (path : Path α) (t : RbTree α) :
    (fill path t).toList = before path ++ t.toList ++ after path := by
  induction path generalizing t with
  | nil => simp [fill, before, after]
  | cons s path ih =>
    rw [fill, ih, s.toList_fill]
    simp [before, after]

/-- Every node above a place counts. -/
theorem length_add_size_le (path : Path α) (t : RbTree α) :
    path.length + t.size ≤ (fill path t).size := by
  induction path generalizing t with
  | nil => exact (Nat.zero_add _).le
  | cons s path ih =>
    have hsize : t.size + 1 ≤ (s.fill t).size := by
      unfold Step.fill join
      cases s.side <;> simp only [Side.pick, Side.other, size] <;> omega
    have hle := ih (s.fill t)
    rw [fill, List.length_cons]
    omega

/-- Trees with the same elements fill a place alike. -/
theorem toList_fill_congr {t t' : RbTree α} (h : t.toList = t'.toList) (path : Path α) :
    (fill path t).toList = (fill path t').toList := by
  rw [toList_fill, toList_fill, h]

/-- Where an element is, with what is left of it and right of it. -/
theorem exists_place {t : RbTree α} {xs ys : List α} {v : α} (h : t.toList = xs ++ v :: ys)
    (path : Path α) :
    ∃ path' c l r, fill path' (.node c l v r) = fill path t ∧
      before path' ++ l.toList = before path ++ xs ∧
      r.toList ++ after path' = ys ++ after path := by
  induction t generalizing xs ys path with
  | nil => exact absurd h (by simp [toList])
  | node c l w r ihl ihr =>
    rw [toList, List.append_eq_append_iff] at h
    -- the element is at the node, or on one side of it
    obtain ⟨as, rfl, hr⟩ | ⟨cs, hl, hys⟩ := h
    · cases as with
      | nil =>
        obtain ⟨rfl, rfl⟩ := List.cons.inj hr
        exact ⟨path, c, l, r, rfl, by simp, rfl⟩
      | cons a as =>
        obtain ⟨rfl, htail⟩ := List.cons.inj hr
        obtain ⟨path', c', l', r', hfill, hbefore, hafter⟩ := ihr htail (⟨.right, c, w, l⟩ :: path)
        exact ⟨path', c', l', r', hfill, by simp [hbefore, before, Side.pick],
          by simp [hafter, after, Side.pick]⟩
    · cases cs with
      | nil =>
        obtain ⟨rfl, rfl⟩ := List.cons.inj hys
        exact ⟨path, c, l, r, rfl, by simp [hl], rfl⟩
      | cons a cs =>
        obtain ⟨rfl, rfl⟩ := List.cons.inj hys
        obtain ⟨path', c', l', r', hfill, hbefore, hafter⟩ := ihl hl (⟨.left, c, w, r⟩ :: path)
        exact ⟨path', c', l', r', hfill, by simp [hbefore, before, Side.pick],
          by simp [hafter, after, Side.pick]⟩

/-! ## Searching

A search compares each element with what it looks for, and leaves the path it has taken.
-/

/-- The way down that `cut` tells at each element, to a node it stops at or to an empty place. -/
def descend (cut : α → Ordering) : RbTree α → Path α → RbTree α × Path α
  | .nil, path => (.nil, path)
  | .node c l v r, path =>
    match cut v with
    | .lt => descend cut l (⟨.left, c, v, r⟩ :: path)
    | .gt => descend cut r (⟨.right, c, v, l⟩ :: path)
    | .eq => (.node c l v r, path)

theorem fill_descend (cut : α → Ordering) (t : RbTree α) (path : Path α) :
    fill (descend cut t path).2 (descend cut t path).1 = fill path t := by
  induction t generalizing path with
  | nil => rfl
  | node c l v r ihl ihr =>
    rw [descend]
    split
    · rw [ihl]
      rfl
    · rw [ihr]
      rfl
    · rfl

theorem depth_le_size (t : RbTree α) : t.depth ≤ t.size := by
  induction t with
  | nil => exact Nat.le_refl _
  | node c l v r ihl ihr =>
    rw [depth, size]
    omega

/-- A search ends at an empty place, or at an element that it looks for. -/
theorem descend_fst (cut : α → Ordering) (t : RbTree α) (path : Path α) :
    (descend cut t path).1 = .nil ∨
      ∃ c l v r, (descend cut t path).1 = .node c l v r ∧ cut v = .eq := by
  induction t generalizing path with
  | nil => exact .inl rfl
  | node c l v r ihl ihr =>
    rw [descend]
    split
    · exact ihl _
    · exact ihr _
    · next hcut => exact .inr ⟨c, l, v, r, rfl, hcut⟩

/-- `cut` agrees with an order of the elements: what lies left of an element that is too far left
is too far left itself, and the other way round. -/
structure Agrees (cut : α → Ordering) (before : α → α → Prop) : Prop where
  left : ∀ a b, before a b → cut b ≠ .lt → cut a = .gt
  right : ∀ a b, before a b → cut a ≠ .gt → cut b = .lt

/-- In an ordered tree a search leaves everything left of its end to the left, and everything
right of it to the right. -/
theorem descend_between {cut : α → Ordering} {R : α → α → Prop} (h : Agrees cut R)
    {t : RbTree α} {path : Path α} (hsorted : (fill path t).toList.Pairwise R)
    (hbefore : ∀ a ∈ before path, cut a = .gt) (hafter : ∀ a ∈ after path, cut a = .lt) :
    (∀ a ∈ before (descend cut t path).2, cut a = .gt) ∧
      ∀ a ∈ after (descend cut t path).2, cut a = .lt := by
  induction t generalizing path with
  | nil => exact ⟨hbefore, hafter⟩
  | node c l v r ihl ihr =>
    have hmid : (l.toList ++ v :: r.toList).Pairwise R := by
      rw [toList_fill] at hsorted
      exact (List.pairwise_append.mp (List.pairwise_append.mp hsorted).1).2.1
    obtain ⟨-, hr, hl⟩ := List.pairwise_append.mp hmid
    rw [descend]
    -- what the search leaves behind on its way down joins what it left before
    split
    · next hcut =>
      refine ihl hsorted (by simpa [before, Side.pick]) ?_
      intro a ha
      simp only [after, Side.pick, List.cons_append, List.mem_cons, List.mem_append] at ha
      obtain rfl | ha | ha := ha
      · exact hcut
      · exact h.right v a (List.rel_of_pairwise_cons hr ha) (by simp [hcut])
      · exact hafter a ha
    · next hcut =>
      refine ihr hsorted ?_ (by simpa [after, Side.pick])
      intro a ha
      simp only [before, Side.pick, List.mem_append, List.mem_singleton] at ha
      obtain ha | ha | rfl := ha
      · exact hbefore a ha
      · exact h.left a v (hl a ha v List.mem_cons_self) (by simp [hcut])
      · exact hcut
    · exact ⟨hbefore, hafter⟩

theorem descend_between_root {cut : α → Ordering} {R : α → α → Prop} (h : Agrees cut R)
    {t : RbTree α} (hsorted : t.toList.Pairwise R) :
    (∀ a ∈ before (descend cut t []).2, cut a = .gt) ∧
      ∀ a ∈ after (descend cut t []).2, cut a = .lt := by
  have hroot : (fill [] t).toList.Pairwise R := hsorted
  exact descend_between h hroot (by simp [before]) (by simp [after])

/-! ## Repairing after an insertion

The macro's loop as a function: recolour and go on, or rotate and stop.
-/

/-- The place of `g`, with the parent `p` of the red node as its root, or the red node itself, if
it lies between the two. -/
def rotated (l : RbTree α) (v : α) (r : RbTree α) (p g : Step α) : RbTree α :=
  if p.side = g.side then
    join g.side .black (.node .red l v r) p.elem (join g.side .red p.sibling g.elem g.sibling)
  else
    join g.side .black (join g.side .red p.sibling p.elem (g.side.pick l r)) v
      (join g.side .red (g.side.other.pick l r) g.elem g.sibling)

/-- The tree after a red node with element `v` and children `l` and `r` has come into a place:
two red nodes above each other are repaired by giving the grandparent's colour to its children,
if both are red, or by a rotation. -/
def insertColor : (l : RbTree α) → (v : α) → (r : RbTree α) → Path α → RbTree α
  | l, v, r, [] => .node .black l v r
  | l, v, r, [p] => (p.fill (.node .red l v r)).setBlack
  | l, v, r, p :: g :: path =>
    if p.color = .black then (fill (p :: g :: path) (.node .red l v r)).setBlack
    else if g.sibling.isRed then
      insertColor (g.side.pick (p.fill (.node .red l v r)).setBlack g.sibling.setBlack) g.elem
        (g.side.other.pick (p.fill (.node .red l v r)).setBlack g.sibling.setBlack) path
    else (fill path (rotated l v r p g)).setBlack

theorem toList_rotated (l : RbTree α) (v : α) (r : RbTree α) (p g : Step α) :
    (rotated l v r p g).toList = (g.fill (p.fill (.node .red l v r))).toList := by
  rw [Step.toList_fill, Step.toList_fill, rotated]
  cases p.side <;> cases g.side <;> simp [join, Side.pick, Side.other, toList]

theorem toList_insertColor (l : RbTree α) (v : α) (r : RbTree α) (path : Path α) :
    (insertColor l v r path).toList = (fill path (.node .red l v r)).toList := by
  induction l, v, r, path using insertColor.induct with
  | case1 l v r => rfl
  | case2 l v r p => simp [insertColor, fill]
  | case3 l v r p g path hp => rw [insertColor, if_pos hp, toList_setBlack]
  | case4 l v r p g path hp hred ih =>
    rw [insertColor, if_neg hp, if_pos hred, ih]
    refine toList_fill_congr ?_ path
    rw [Step.toList_fill]
    cases g.side <;> simp [Side.pick, Side.other, toList]
  | case5 l v r p g path hp hred =>
    rw [insertColor, if_neg hp, if_neg hred, toList_setBlack]
    exact toList_fill_congr (toList_rotated l v r p g) path

/-- The tree with `v` at the empty place that `cut` tells, if the search does not end before. -/
def insert (cut : α → Ordering) (v : α) (t : RbTree α) : RbTree α :=
  match descend cut t [] with
  | (.nil, path) => insertColor .nil v .nil path
  | (.node _ _ _ _, _) => t

theorem insert_perm {cut : α → Ordering} {v : α} {t : RbTree α}
    (h : (descend cut t []).1 = .nil) : (t.insert cut v).toList.Perm (v :: t.toList) := by
  have hfill := fill_descend cut t []
  unfold RbTree.insert
  split
  · next path hdescend =>
    rw [hdescend] at hfill
    have hlist := congrArg toList hfill
    rw [toList_fill] at hlist
    rw [toList_insertColor, toList_fill]
    refine List.Perm.trans ?_ (List.Perm.cons v (.of_eq hlist))
    simp [toList]
  · next hdescend =>
    rw [hdescend] at h
    cases h

/-- An element that the search for it compares as the order does keeps the order. -/
theorem pairwise_insert {cut : α → Ordering} {R : α → α → Prop} (h : Agrees cut R) {v : α}
    (hgt : ∀ a, cut a = .gt → R a v) (hlt : ∀ a, cut a = .lt → R v a) {t : RbTree α}
    (hsorted : t.toList.Pairwise R) : (t.insert cut v).toList.Pairwise R := by
  have hfill := fill_descend cut t []
  obtain ⟨hbefore, hafter⟩ := descend_between_root h hsorted
  unfold RbTree.insert
  split
  · next path hdescend =>
    rw [hdescend] at hfill hbefore hafter
    have hlist := congrArg toList hfill
    rw [toList_fill] at hlist
    simp only [toList, List.append_nil] at hlist
    rw [fill] at hlist
    rw [← hlist] at hsorted
    obtain ⟨hleft, hright, hbetween⟩ := List.pairwise_append.mp hsorted
    rw [toList_insertColor, toList_fill]
    simp only [toList, List.nil_append, List.append_assoc, List.singleton_append]
    refine List.pairwise_append.mpr ⟨hleft, ?_, ?_⟩
    · exact List.pairwise_cons.mpr ⟨fun b hb => hlt b (hafter b hb), hright⟩
    · intro a ha b hb
      rcases List.mem_cons.mp hb with rfl | hb
      · exact hgt a (hbefore a ha)
      · exact hbetween a ha b hb
  · exact hsorted

/-! ## The rules

A tree has a colour and a number of black nodes, and a path fits a tree of a colour and a
number.
-/

/-- The tree has a root of colour `c` (black, if it is empty), no red node has a red child, and
`n` black nodes are on every way down. -/
inductive Balanced : RbTree α → Color → ℕ → Prop where
  | nil : Balanced .nil .black 0
  | red {l r : RbTree α} {v : α} {n : ℕ} :
    Balanced l .black n → Balanced r .black n → Balanced (.node .red l v r) .red n
  | black {l r : RbTree α} {v : α} {c c' : Color} {n : ℕ} :
    Balanced l c n → Balanced r c' n → Balanced (.node .black l v r) .black (n + 1)

/-- With a balanced tree of colour `c` and `n` black nodes on each way down, the whole tree is
balanced and has a black root. -/
def Fits : Path α → Color → ℕ → Prop
  | [], c, _ => c = .black
  | s :: path, c, n =>
    match s.color with
    | .red => c = .black ∧ s.sibling.Balanced .black n ∧ Fits path .red n
    | .black => (∃ c', s.sibling.Balanced c' n) ∧ Fits path .black (n + 1)

theorem Balanced.join_red {side : Side} {near far : RbTree α} {v : α} {n : ℕ}
    (hnear : near.Balanced .black n) (hfar : far.Balanced .black n) :
    (join side .red near v far).Balanced .red n := by
  cases side
  · exact .red hnear hfar
  · exact .red hfar hnear

theorem Balanced.join_black {side : Side} {near far : RbTree α} {v : α} {c c' : Color} {n : ℕ}
    (hnear : near.Balanced c n) (hfar : far.Balanced c' n) :
    (join side .black near v far).Balanced .black (n + 1) := by
  cases side
  · exact .black hnear hfar
  · exact .black hfar hnear

theorem Balanced.fill {path : Path α} {t : RbTree α} {c : Color} {n : ℕ} (hpath : Fits path c n)
    (ht : t.Balanced c n) : ∃ m, (fill path t).Balanced .black m := by
  induction path generalizing t c n with
  | nil =>
    obtain rfl : c = .black := hpath
    exact ⟨n, ht⟩
  | cons s path ih =>
    rw [Fits] at hpath
    rw [RbTree.fill, Step.fill]
    cases hs : s.color with
    | red =>
      rw [hs] at hpath
      obtain ⟨rfl, hsibling, hpath⟩ := hpath
      exact ih hpath (ht.join_red hsibling)
    | black =>
      rw [hs] at hpath
      obtain ⟨⟨c', hsibling⟩, hpath⟩ := hpath
      exact ih hpath (ht.join_black hsibling)

theorem Balanced.setBlack {t : RbTree α} {c : Color} {n : ℕ} (h : t.Balanced c n) :
    ∃ m, t.setBlack.Balanced .black m := by
  cases h with
  | nil => exact ⟨0, .nil⟩
  | red hl hr => exact ⟨_, .black hl hr⟩
  | black hl hr => exact ⟨_, .black hl hr⟩

theorem Balanced.setBlack_of_isRed {t : RbTree α} {c : Color} {n : ℕ} (h : t.Balanced c n)
    (hred : t.isRed) : t.setBlack.Balanced .black (n + 1) := by
  cases h with
  | nil => cases hred
  | red hl hr => exact .black hl hr
  | black hl hr => cases hred

theorem Balanced.exists_black_of_not_isRed {t : RbTree α} {c : Color} {n : ℕ}
    (h : t.Balanced c n) (hred : ¬ t.isRed) : t.Balanced .black n := by
  cases h with
  | nil => exact .nil
  | red hl hr => exact absurd rfl hred
  | black hl hr => exact .black hl hr

theorem Fits.red_of_black {p : Step α} {path : Path α} {n : ℕ} (h : Fits (p :: path) .black n)
    (hp : p.color = .black) : Fits (p :: path) .red n := by
  rw [Fits, hp] at h ⊢
  exact h

theorem Fits.exists_of_black {p : Step α} {path : Path α} {c : Color} {n : ℕ}
    (h : Fits (p :: path) c n) (hp : p.color = .black) :
    (∃ c', p.sibling.Balanced c' n) ∧ Fits path .black (n + 1) := by
  rwa [Fits, hp] at h

theorem Fits.exists_of_red {p : Step α} {path : Path α} {c : Color} {n : ℕ}
    (h : Fits (p :: path) c n) (hp : p.color ≠ .black) :
    p.sibling.Balanced .black n ∧ Fits path .red n := by
  rw [Fits, Color.eq_red hp] at h
  exact h.2

/-- Above the place of a red node is a black one, if any. -/
theorem Fits.color_eq_black {p : Step α} {path : Path α} {n : ℕ} (h : Fits (p :: path) .red n) :
    p.color = .black := by
  cases hp : p.color with
  | black => rfl
  | red =>
    rw [Fits, hp] at h
    exact nomatch h.1

/-- A rotation makes a black node of the place of a black one. -/
theorem Balanced.rotated {l r : RbTree α} {v : α} {p g : Step α} {n : ℕ}
    (hl : l.Balanced .black n) (hr : r.Balanced .black n) (hp : p.sibling.Balanced .black n)
    (hg : g.sibling.Balanced .black n) : (rotated l v r p g).Balanced .black (n + 1) := by
  unfold RbTree.rotated
  split
  · exact (Balanced.red hl hr).join_black (hp.join_red hg)
  · cases g.side
    · exact (hp.join_red hl).join_black (hr.join_red hg)
    · exact (hp.join_red hr).join_black (hl.join_red hg)

/-- **Insertion.** Where a red node with balanced children may only be wrong for being below
another red one, the repair leaves a tree that keeps the rules. -/
theorem balanced_insertColor {l r : RbTree α} {v : α} {path : Path α} {n : ℕ}
    (hl : l.Balanced .black n) (hr : r.Balanced .black n) (hpath : Fits path .black n) :
    ∃ m, (insertColor l v r path).Balanced .black m := by
  induction l, v, r, path using insertColor.induct generalizing n with
  | case1 l v r => exact ⟨_, .black hl hr⟩
  | case2 l v r p =>
    have hp : p.color = .black := by
      by_contra hp
      exact nomatch (hpath.exists_of_red hp).2
    obtain ⟨m, hm⟩ := Balanced.fill (hpath.red_of_black hp) (.red hl hr)
    exact hm.setBlack
  | case3 l v r p g path hp =>
    rw [insertColor, if_pos hp]
    obtain ⟨m, hm⟩ := Balanced.fill (hpath.red_of_black hp) (.red hl hr)
    exact hm.setBlack
  | case4 l v r p g path hp hred ih =>
    rw [insertColor, if_neg hp, if_pos hred]
    obtain ⟨hsibling, hpath⟩ := hpath.exists_of_red hp
    obtain ⟨⟨c', huncle⟩, hpath⟩ := hpath.exists_of_black hpath.color_eq_black
    -- the parent and the uncle become black, and with them one more black node is on each way
    have hparent : (p.fill (.node .red l v r)).setBlack.Balanced .black (n + 1) := by
      unfold Step.fill
      cases p.side
      · exact .black (.red hl hr) hsibling
      · exact .black hsibling (.red hl hr)
    have huncle := huncle.setBlack_of_isRed hred
    cases hside : g.side <;> rw [hside] at ih
    · exact ih hparent huncle hpath
    · exact ih huncle hparent hpath
  | case5 l v r p g path hp hred =>
    rw [insertColor, if_neg hp, if_neg hred]
    obtain ⟨hsibling, hpath⟩ := hpath.exists_of_red hp
    obtain ⟨⟨c', huncle⟩, hpath⟩ := hpath.exists_of_black hpath.color_eq_black
    obtain ⟨m, hm⟩ := (Balanced.rotated hl hr hsibling
      (huncle.exists_black_of_not_isRed hred)).fill hpath
    exact hm.setBlack

/-- Above every place of a balanced tree is a black root. -/
theorem Fits.getLast_eq_black {path : Path α} {c : Color} {n : ℕ} (h : Fits path c n)
    {s : Step α} (hs : path.getLast? = some s) : s.color = .black := by
  induction path generalizing c n with
  | nil => cases hs
  | cons p path ih =>
    cases path with
    | nil =>
      obtain rfl : p = s := Option.some.inj hs
      by_contra hp
      exact nomatch (h.exists_of_red hp).2
    | cons q path =>
      rw [List.getLast?_cons_cons] at hs
      by_cases hp : p.color = .black
      · exact ih (h.exists_of_black hp).2 hs
      · exact ih (h.exists_of_red hp).2 hs

/-- The search for a place in a balanced tree ends where a black tree fits. -/
theorem fits_descend {cut : α → Ordering} {t : RbTree α} {path : Path α} {c : Color} {n : ℕ}
    (ht : t.Balanced c n) (hpath : Fits path c n) (hnil : (descend cut t path).1 = .nil) :
    Fits (descend cut t path).2 .black 0 := by
  induction ht generalizing path with
  | nil => exact hpath
  | @red l r v n hl hr ihl ihr =>
    rw [descend] at hnil ⊢
    -- the search ends at an empty tree, so it ends below this node
    split
    · next hcut =>
      rw [hcut] at hnil
      exact ihl ⟨rfl, hr, hpath⟩ hnil
    · next hcut =>
      rw [hcut] at hnil
      exact ihr ⟨rfl, hl, hpath⟩ hnil
    · next hcut =>
      rw [hcut] at hnil
      cases hnil
  | @black l r v c c' n hl hr ihl ihr =>
    rw [descend] at hnil ⊢
    split
    · next hcut =>
      rw [hcut] at hnil
      exact ihl ⟨⟨_, hr⟩, hpath⟩ hnil
    · next hcut =>
      rw [hcut] at hnil
      exact ihr ⟨⟨_, hl⟩, hpath⟩ hnil
    · next hcut =>
      rw [hcut] at hnil
      cases hnil

theorem Balanced.fits_descend_root {t : RbTree α} {n : ℕ} (h : t.Balanced .black n)
    (cut : α → Ordering) (hnil : (descend cut t []).1 = .nil) :
    Fits (descend cut t []).2 .black 0 :=
  fits_descend h rfl hnil

theorem Balanced.insert {cut : α → Ordering} {v : α} {t : RbTree α} {n : ℕ}
    (h : t.Balanced .black n) : ∃ m, (t.insert cut v).Balanced .black m := by
  have hfits := h.fits_descend_root cut
  unfold RbTree.insert
  split
  · next path hdescend =>
    rw [hdescend] at hfits
    exact balanced_insertColor .nil .nil (hfits rfl)
  · exact ⟨n, h⟩

/-! ## Depth -/

theorem Balanced.two_pow_le {t : RbTree α} {c : Color} {n : ℕ} (h : t.Balanced c n) :
    2 ^ n ≤ t.size + 1 := by
  induction h with
  | nil => exact Nat.le_refl _
  | red hl hr ihl ihr =>
    rw [size]
    omega
  | black hl hr ihl ihr =>
    rw [size, pow_succ]
    omega

theorem Balanced.depth_le_color {t : RbTree α} {c : Color} {n : ℕ} (h : t.Balanced c n) :
    t.depth ≤ 2 * n + (if c = .red then 1 else 0) := by
  induction h with
  | nil => exact Nat.zero_le _
  | red hl hr ihl ihr =>
    rw [if_neg (by decide)] at ihl ihr
    rw [depth, if_pos rfl]
    omega
  | @black l r v c c' n hl hr ihl ihr =>
    have hle (c : Color) : (if c = .red then 1 else 0) ≤ 1 := by split <;> decide
    have hc := hle c
    have hc' := hle c'
    rw [depth, if_neg (by decide)]
    omega

/-- No way down a balanced tree is longer than twice the logarithm of its size. -/
theorem Balanced.depth_le {t : RbTree α} {n : ℕ} (h : t.Balanced .black n) :
    t.depth ≤ 2 * Nat.log 2 (t.size + 1) := by
  have hlog : n ≤ Nat.log 2 (t.size + 1) := Nat.le_log_of_pow_le (by decide) h.two_pow_le
  have hdepth := h.depth_le_color
  rw [if_neg (by decide)] at hdepth
  omega

end RbTree
