import Mathlib

/-!
# Blocks of memory

A block has a fixed number of cells. A store at an index outside of it is not survived
(`none`), so a run that comes through has made no such store.

`storeAll` stores one value after another, as `memcpy` does, and is what loops that write
and advance amount to. It comes through iff there is room (`storeAll_eq_some`,
`storeAll_eq_none`). A block that is resized keeps what fits (`take_resize`).

- `store`, `storeAll`: one store, and one after another.
- `resize`: a block with another number of cells.
- `storeAll_eq_some`, `storeAll_eq_none`: where there is room, and where there is none.
-/

namespace Block

universe u

variable {α : Type u}

/-- `block[i] = a` -/
def store (block : List α) (i : Nat) (a : α) : Option (List α) :=
  if i < block.length then some (block.set i a) else none

/-- `as` is stored from `i` on. -/
def storeAll (block : List α) (i : Nat) : List α → Option (List α)
  | [] => some block
  | a :: as => (store block i a).bind fun block => storeAll block (i + 1) as

variable {block block' : List α} {i : Nat} {as : List α}

theorem store_of_lt (h : i < block.length) (a : α) : store block i a = some (block.set i a) :=
  if_pos h

theorem store_of_le (h : block.length ≤ i) (a : α) : store block i a = none :=
  if_neg (Nat.not_lt.mpr h)

/-- Where there is room, the values replace what was there. -/
theorem storeAll_eq_some (h : i + as.length ≤ block.length) :
    storeAll block i as = some (block.take i ++ as ++ block.drop (i + as.length)) := by
  induction as generalizing block i with
  | nil => rw [storeAll, List.append_nil, List.length_nil, Nat.add_zero, List.take_append_drop]
  | cons a as ih =>
    rw [List.length_cons] at h
    have hi : i < block.length := by omega
    have hset : i + 1 + as.length ≤ (block.set i a).length := by
      rw [List.length_set]
      omega
    have htake : (block.set i a).take (i + 1) = block.take i ++ [a] := by
      rw [List.take_set, List.take_succ_eq_append_getElem hi, List.set_append_right i a (by simp),
        List.length_take, Nat.min_eq_left hi.le, Nat.sub_self, List.set_cons_zero]
    have hdrop : (block.set i a).drop (i + 1 + as.length) =
        block.drop (i + (a :: as).length) := by
      rw [List.drop_set_of_lt (by omega), List.length_cons, Nat.add_assoc, Nat.add_comm 1]
    rw [storeAll, store_of_lt hi, Option.bind_some, ih hset, htake, hdrop, List.append_assoc _ [a]]
    rfl

/-- Where there is no room, some store is outside. -/
theorem storeAll_eq_none (has : as ≠ []) (h : block.length < i + as.length) :
    storeAll block i as = none := by
  induction as generalizing block i with
  | nil => exact absurd rfl has
  | cons a as ih =>
    rw [List.length_cons] at h
    rw [storeAll]
    by_cases hi : i < block.length
    · rw [store_of_lt hi, Option.bind_some]
      refine ih ?_ ?_
      · rintro rfl
        rw [List.length_nil] at h
        omega
      · rw [List.length_set]
        omega
    · rw [store_of_le (Nat.not_lt.mp hi), Option.bind_none]

/-- A store does not change the size of a block. -/
theorem length_of_storeAll (as : List α) (h : storeAll block i as = some block') :
    block'.length = block.length := by
  induction as generalizing block i with
  | nil =>
    cases h
    rfl
  | cons a as ih =>
    obtain ⟨mid, hmid, hrest⟩ := Option.bind_eq_some_iff.mp h
    have hset : mid.length = block.length := by
      unfold store at hmid
      split at hmid
      · cases hmid
        exact List.length_set
      · cases hmid
    rw [ih hrest, hset]

/-! ## Resizing -/

/-- The block with `n` cells; `junk` is what is in those that are new. -/
def resize (junk : Nat → α) (block : List α) (n : Nat) : List α :=
  block.take n ++ (List.range' block.length (n - block.length)).map junk

theorem length_resize (junk : Nat → α) (block : List α) (n : Nat) :
    (resize junk block n).length = n := by
  rw [resize, List.length_append, List.length_take, List.length_map, List.length_range']
  omega

/-- What the old and the new block have in common is kept. -/
theorem take_resize (junk : Nat → α) {n : Nat} (hn : i ≤ n) (hi : i ≤ block.length) :
    (resize junk block n).take i = block.take i := by
  rw [resize, List.take_append_of_le_length (by
    rw [List.length_take]
    omega), List.take_take, Nat.min_eq_left hn]

end Block
