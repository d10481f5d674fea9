import Dmrlib.Lib.Heap
import Dmrlib.Lib.RedBlack

/-!
# Red-black trees in memory (`include/dmr/tree.h`)

The macros keep a tree in its elements: each has pointers to its children and to its parent, and
a colour. The elements are in a heap here, known by their references; `none` is `NULL`. What a
macro does on the left and on the right is written once, for a side.

Functions return `none` where the program follows a null pointer or one to what was freed, and
where it does not come to an end in `fuel` rounds of a loop. No tree that the macros build makes
them: see `Dmrlib.TreeShape`.

- `DmrRbEntry`, `DmrRbElem`, `DmrRbHead`: the pointers and the colour in an element, the element,
  and the head of the tree.
- `rotate`, `insertColor`, `insert`: `RB_INSERT` with the rotations that repair the tree.
- `find`, `minmax`, `next`, `foreach`: `RB_FIND`, `RB_MIN` and `RB_MAX`, `RB_NEXT`, and the loop
  over all elements.
-/

namespace Dmrlib

open RbTree (Color Side)

/-- `DMR_RB_ENTRY` -/
structure DmrRbEntry where
  rbeLeft : Option Nat
  rbeRight : Option Nat
  rbeParent : Option Nat
  rbeColor : Color
deriving DecidableEq

/-- An element, with the field that is the tree's. -/
structure DmrRbElem (α : Type) where
  val : α
  field : DmrRbEntry

/-- `DMR_RB_HEAD`, and the heap that the elements are in. -/
structure DmrRbHead (α : Type) where
  heap : Heap (DmrRbElem α)
  rbhRoot : Option Nat

/-- `DMR_RB_LEFT` or `DMR_RB_RIGHT` -/
def DmrRbEntry.child (side : Side) (e : DmrRbEntry) : Option Nat :=
  side.pick e.rbeLeft e.rbeRight

/-- A store to `DMR_RB_LEFT` or `DMR_RB_RIGHT`. -/
def DmrRbEntry.setChild (side : Side) (child : Option Nat) (e : DmrRbEntry) : DmrRbEntry :=
  match side with
  | .left => { e with rbeLeft := child }
  | .right => { e with rbeRight := child }

def DmrRbEntry.setParent (parent : Option Nat) (e : DmrRbEntry) : DmrRbEntry :=
  { e with rbeParent := parent }

def DmrRbEntry.setColor (color : Color) (e : DmrRbEntry) : DmrRbEntry :=
  { e with rbeColor := color }

namespace DmrRbHead

variable {α : Type}

/-- What `elm` points to. -/
def load (head : DmrRbHead α) (elm : Nat) : Option DmrRbEntry :=
  (head.heap.get? elm).map (·.field)

/-- A store to the field of `elm`. -/
def store (head : DmrRbHead α) (elm : Nat) (f : DmrRbEntry → DmrRbEntry) :
    Option (DmrRbHead α) := do
  let e ← head.heap.get? elm
  return { head with heap := head.heap.set elm { e with field := f e.field } }

/-- `if (child) DMR_RB_PARENT(child) = parent` -/
def adopt (head : DmrRbHead α) (child : Option Nat) (parent : Nat) : Option (DmrRbHead α) :=
  match child with
  | none => some head
  | some child => head.store child (·.setParent (some parent))

/-- Where `parent` points to `elm`, it points to `tmp` now; without a parent the root does. -/
def replaceChild (head : DmrRbHead α) (parent : Option Nat) (elm tmp : Nat) :
    Option (DmrRbHead α) :=
  match parent with
  | none => some { head with rbhRoot := some tmp }
  | some parent => do
    let p ← head.load parent
    let side := if p.rbeLeft = some elm then .left else .right
    head.store parent (·.setChild side (some tmp))

/-- `DMR_RB_ROTATE_LEFT` is to the left and `DMR_RB_ROTATE_RIGHT` is to the right: `elm` goes
down on that side, and its other child takes its place. -/
def rotate (side : Side) (head : DmrRbHead α) (elm : Nat) : Option (DmrRbHead α) := do
  let e ← head.load elm
  let tmp ← e.child side.other
  let t ← head.load tmp
  let head ← head.store elm (·.setChild side.other (t.child side))
  let head ← head.adopt (t.child side) elm
  let e ← head.load elm
  let head ← head.store tmp (·.setParent e.rbeParent)
  let head ← head.replaceChild e.rbeParent elm tmp
  let head ← head.store tmp (·.setChild side (some elm))
  head.store elm (·.setParent (some tmp))

/-- `DMR_RB_SET_BLACKRED` -/
def setBlackred (head : DmrRbHead α) (black red : Nat) : Option (DmrRbHead α) := do
  let head ← head.store black (·.setColor .black)
  head.store red (·.setColor .red)

/-- `elm && DMR_RB_COLOR(elm) == DMR_RB_RED` -/
def isRed (head : DmrRbHead α) (elm : Option Nat) : Option Bool :=
  match elm with
  | none => some false
  | some elm => (head.load elm).map fun e => e.rbeColor = .red

/-- `DMR_RB_COLOR(head->rbh_root) = DMR_RB_BLACK` -/
def blackenRoot (head : DmrRbHead α) : Option (DmrRbHead α) := do
  let root ← head.rbhRoot
  head.store root (·.setColor .black)

/-- `DMR_RB_INSERT_COLOR` -/
def insertColor : (fuel : Nat) → DmrRbHead α → (elm : Nat) → Option (DmrRbHead α)
  | 0, _, _ => none
  | fuel + 1, head, elm => do
    let e ← head.load elm
    let some parent := e.rbeParent | head.blackenRoot
    let p ← head.load parent
    if p.rbeColor ≠ .red then
      head.blackenRoot
    else
      let gparent ← p.rbeParent
      let g ← head.load gparent
      let side := if g.rbeLeft = some parent then .left else .right
      let tmp := g.child side.other
      if ← head.isRed tmp then
        let uncle ← tmp
        let head ← head.store uncle (·.setColor .black)
        let head ← head.setBlackred parent gparent
        insertColor fuel head gparent
      else if p.child side.other = some elm then
        -- the parent goes down, and the two change their names
        let head ← head.rotate side parent
        let head ← head.setBlackred elm gparent
        let head ← head.rotate side.other gparent
        insertColor fuel head parent
      else
        let head ← head.setBlackred parent gparent
        let head ← head.rotate side.other gparent
        insertColor fuel head elm

/-- The loop of `DMR_RB_INSERT` and `DMR_RB_FIND`: the element it returns or none, the last one
that it looked at, and how that one compared. -/
def search (cmp : α → α → Int) (head : DmrRbHead α) (key : α) :
    (fuel : Nat) → (tmp parent : Option Nat) → (comp : Int) →
      Option (Option Nat × Option Nat × Int)
  | _, none, parent, comp => some (none, parent, comp)
  | 0, some _, _, _ => none
  | fuel + 1, some tmp, _, _ => do
    let e ← head.heap.get? tmp
    let comp := cmp key e.val
    if comp < 0 then
      search cmp head key fuel e.field.rbeLeft (some tmp) comp
    else if comp > 0 then
      search cmp head key fuel e.field.rbeRight (some tmp) comp
    else
      return (some tmp, some tmp, comp)

/-- As many rounds as there are objects, and two. -/
def fuel (head : DmrRbHead α) : Nat := head.heap.live.card + 2

/-- `DMR_RB_FIND`, for an element outside of the heap. -/
def find (cmp : α → α → Int) (head : DmrRbHead α) (key : α) : Option (Option Nat) :=
  (search cmp head key head.fuel head.rbhRoot none 0).map (·.1)

/-- The pointer to `elm` in `DMR_RB_INSERT`: below `parent`, if there is one, or at the root. -/
def link (head : DmrRbHead α) (parent : Option Nat) (comp : Int) (elm : Nat) :
    Option (DmrRbHead α) :=
  match parent with
  | none => some { head with rbhRoot := some elm }
  | some parent => head.store parent (·.setChild (if comp < 0 then .left else .right) (some elm))

/-- `DMR_RB_INSERT`: what it returns, and the tree. -/
def insert (cmp : α → α → Int) (head : DmrRbHead α) (elm : Nat) :
    Option (Option Nat × DmrRbHead α) := do
  let e ← head.heap.get? elm
  let (found, parent, comp) ← search cmp head e.val head.fuel head.rbhRoot none 0
  if found.isSome then
    return (found, head)
  else
    -- `DMR_RB_SET`
    let head ← head.store elm fun _ => ⟨none, none, parent, .red⟩
    let head ← head.link parent comp elm
    let head ← head.insertColor head.fuel elm
    return (none, head)

/-- The loop to the last child on a side. -/
def outermost (side : Side) (head : DmrRbHead α) : (fuel : Nat) → (elm : Nat) → Option Nat
  | 0, _ => none
  | fuel + 1, elm => do
    let e ← head.load elm
    match e.child side with
    | none => some elm
    | some child => outermost side head fuel child

/-- `DMR_RB_MIN` on the left, `DMR_RB_MAX` on the right: `DMR_RB_MINMAX` -/
def minmax (side : Side) (head : DmrRbHead α) : Option (Option Nat) :=
  match head.rbhRoot with
  | none => some none
  | some root => (outermost side head head.fuel root).map some

/-- The loop in `DMR_RB_NEXT`, up from a right child, and its parent at the end. -/
def climb (head : DmrRbHead α) : (fuel : Nat) → (elm : Nat) → Option (Option Nat)
  | 0, _ => none
  | fuel + 1, elm => do
    let e ← head.load elm
    let some parent := e.rbeParent | some none
    let p ← head.load parent
    if p.rbeRight = some elm then climb head fuel parent else return some parent

/-- `DMR_RB_NEXT` -/
def next (head : DmrRbHead α) (elm : Nat) : Option (Option Nat) := do
  let e ← head.load elm
  match e.rbeRight with
  | some right => (outermost .left head head.fuel right).map some
  | none =>
    match e.rbeParent with
    | none => climb head head.fuel elm
    | some parent =>
      let p ← head.load parent
      if p.rbeLeft = some elm then return some parent else climb head head.fuel elm

/-- The loop of `DMR_RB_FOREACH`: the elements it comes to. -/
def foreach (head : DmrRbHead α) : (fuel : Nat) → Option Nat → Option (List Nat)
  | _, none => some []
  | 0, some _ => none
  | fuel + 1, some elm => do
    let elms ← foreach head fuel (← head.next elm)
    return elm :: elms

end DmrRbHead

end Dmrlib
