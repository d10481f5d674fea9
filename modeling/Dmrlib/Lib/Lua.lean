import Mathlib

/-!
# The C stack of the Lua API

A C function talks to Lua through a stack. It is a list here, bottom first, so that
index `1` is its head and index `-1` its last entry. Reading an index that holds
nothing yields `none`, Lua's "none" value. Numbers and strings convert into each
other as the Lua library does it; those conversions are the parameter `Conv`.

- `LuaValue`, `Stack`: the values and the stack.
- `index`, `push`, `pop`, `getField`: what C functions do to it.
- `pcall`: a protected call; an error leaves its message on the stack instead of a result.
- `getField_one`, `getField_one_eq_none`: the fields of the table at index 1.
-/

namespace Lua

/-- A Lua value, as far as C code can tell values apart. -/
inductive LuaValue where
  | nil
  | boolean (b : Bool)
  | integer (n : Int)
  | float (bits : UInt64)
  | string (s : String)
  | table (fields : String → LuaValue)
  | other

/-- Lua's conversions between numbers and strings. -/
structure Conv where
  floatToInteger : UInt64 → Option Int
  stringToInteger : String → Option Int
  integerToString : Int → String
  floatToString : UInt64 → String

/-- The C stack, bottom first. -/
abbrev Stack := List LuaValue

/-- `lua_toboolean`: everything but `nil` and `false` is true. -/
def toBoolean : Option LuaValue → Bool
  | none | some .nil | some (.boolean false) => false
  | _ => true

/-- `luaL_checkinteger` on a value; `none` raises an error. -/
def checkInteger (conv : Conv) : Option LuaValue → Option Int
  | some (.integer n) => some n
  | some (.float x) => conv.floatToInteger x
  | some (.string s) => conv.stringToInteger s
  | _ => none

/-- What `lua_tostring` leaves in the place of a value. -/
def toText (conv : Conv) : LuaValue → LuaValue
  | .integer n => .string (conv.integerToString n)
  | .float x => .string (conv.floatToString x)
  | v => v

namespace Stack

/-- The value at an index: from the bottom when positive, from the top when
negative. -/
def index (L : Stack) (i : Int) : Option LuaValue :=
  if 0 < i then L[(i - 1).toNat]?
  else if i < 0 ∧ -i ≤ L.length then L[(L.length + i).toNat]?
  else none

/-- `lua_push*` -/
def push (L : Stack) (v : LuaValue) : Stack := L ++ [v]

/-- `lua_pop` -/
def pop (L : Stack) (n : Nat) : Stack := L.take (L.length - n)

/-- `lua_getfield` on the table at an index. -/
def getField (L : Stack) (i : Int) (key : String) : Option Stack :=
  match L.index i with
  | some (.table fields) => some (L.push (fields key))
  | _ => none

/-- `lua_tostring` at the top of the stack: a number is converted in place. -/
def toStringTop (conv : Conv) (L : Stack) : Stack :=
  match L.getLast? with
  | some v => L.dropLast ++ [toText conv v]
  | none => L

/-- `lua_pcall` of a function of `nargs` arguments and one result: the function and
its arguments are popped, and its result or its error is pushed. The first
component tells success. -/
def pcall (L : Stack) (nargs : Nat) (f : List LuaValue → Except LuaValue LuaValue) :
    Bool × Stack :=
  let args := L.drop (L.length - nargs)
  let rest := L.pop (nargs + 1)
  match f args with
  | .ok v => (true, rest.push v)
  | .error e => (false, rest.push e)

@[simp]
theorem length_push (L : Stack) (v : LuaValue) : (L.push v).length = L.length + 1 := by
  simp [push]

/-- The top of the stack is what was pushed last. -/
@[simp]
theorem index_push_neg_one (L : Stack) (v : LuaValue) : (L.push v).index (-1) = some v := by
  simp [index, push]

@[simp]
theorem pop_push (L : Stack) (v : LuaValue) : (L.push v).pop 1 = L := by
  simp [pop, push]

/-- Index 1 is the value just pushed on an empty stack only. -/
theorem index_one_push (L : Stack) (v : LuaValue) :
    (L.push v).index 1 = some (L.headD v) := by
  cases L <;> simp [index, push]

@[simp]
theorem toStringTop_push (conv : Conv) (L : Stack) (v : LuaValue) :
    (L.push v).toStringTop conv = L.push (toText conv v) := by
  simp [toStringTop, push]

/-- The value at the bottom stays there. -/
theorem head?_push (L : Stack) (v : LuaValue) : (L.push v).head? = some (L.headD v) := by
  cases L <;> simp [push]

/-- A field of the table at the bottom is pushed. -/
theorem getField_one {L : Stack} {fields : String → LuaValue} (h : L.head? = some (.table fields))
    (key : String) : L.getField 1 key = some (L ++ [fields key]) := by
  obtain ⟨L, rfl⟩ := List.head?_eq_some_iff.mp h
  rfl

theorem getField_one_eq_none {L : Stack} (h : ∀ fields, L.head? ≠ some (.table fields))
    (key : String) : L.getField 1 key = none := by
  have hindex : L.index 1 = L.head? := by
    cases L with
    | nil => rfl
    | cons v L => rfl
  unfold getField
  rw [hindex]
  split
  · next fields hfields => exact absurd hfields (h fields)
  · rfl

/-- Counting from the top. -/
theorem index_neg (L vs : List LuaValue) {k : Nat} (hpos : 0 < k) (hk : k ≤ vs.length) :
    Stack.index (L ++ vs) (-(k : Int)) = vs[vs.length - k]? := by
  have hnot : ¬ (0 : Int) < -(k : Int) := by omega
  have hin : -(k : Int) < 0 ∧ - -(k : Int) ≤ (L ++ vs).length := by
    rw [List.length_append]
    omega
  have hplace : ((L ++ vs).length + -(k : Int)).toNat = L.length + (vs.length - k) := by
    rw [List.length_append]
    omega
  rw [index, if_neg hnot, if_pos hin, hplace, List.getElem?_append_right (Nat.le_add_right _ _),
    Nat.add_sub_cancel_left]

theorem length_getField {L L' : Stack} {i : Int} {key : String}
    (h : L.getField i key = some L') : L'.length = L.length + 1 := by
  unfold getField at h
  split at h
  · cases h
    exact length_push _ _
  · cases h

/-- A call consumes the function and its arguments. -/
theorem pcall_push3 (L : Stack) (g a b c : LuaValue)
    (f : List LuaValue → Except LuaValue LuaValue) :
    ((((L.push g).push a).push b).push c).pcall 3 f =
      match f [a, b, c] with
      | .ok v => (true, L.push v)
      | .error e => (false, L.push e) := by
  have hargs : ((((L.push g).push a).push b).push c).drop
      (((((L.push g).push a).push b).push c).length - 3) = [a, b, c] := by
    simp [push]
  have hrest : ((((L.push g).push a).push b).push c).pop 4 = L := by
    simp [push, pop]
  simp only [pcall, hargs, hrest]

end Stack

end Lua
