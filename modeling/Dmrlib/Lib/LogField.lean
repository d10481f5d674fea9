import Mathlib

/-!
# Fields given by logarithm tables

A small finite field is often stored as two tables: the powers `exp n` of one
generator and the exponent `log a` of each element. Multiplication then adds
exponents. `LogTables` says what the tables owe: the powers are the non-zero
elements, repeat after `order` steps, and the step from one power to the next is
an additive map. The last point is what makes multiplication distribute; the
other axioms are arithmetic of exponents (`LogTables.toField`).

- `LogTables`: the two tables and what is asked of them.
- `mul`, `inv`: product and inverse, by way of exponents.
- `mul_add`: the product distributes, as each power of the generator is additive.
- `toField`: the field.
-/

/-- Power and logarithm tables of a finite field on `K`. -/
structure LogTables (K : Type*) [AddCommGroup K] where
  exp : ℕ → K
  log : K → ℕ
  /-- multiplication by the generator -/
  step : K →+ K
  order : ℕ
  exp_ne_zero : ∀ n, exp n ≠ 0
  exp_log : ∀ a, a ≠ 0 → exp (log a) = a
  log_le : ∀ a, log a ≤ order
  exp_succ : ∀ n, exp (n + 1) = step (exp n)
  exp_order : exp order = exp 0

namespace LogTables

variable {K : Type*} [AddCommGroup K] [DecidableEq K] (t : LogTables K)

/-- Multiplication with the tables. -/
def mul (a b : K) : K := if a = 0 ∨ b = 0 then 0 else t.exp (t.log a + t.log b)

/-- Inversion with the tables. -/
def inv (a : K) : K := if a = 0 then 0 else t.exp (t.order - t.log a)

omit [DecidableEq K] in
theorem exp_add (m n : ℕ) : t.exp (m + n) = t.step^[n] (t.exp m) := by
  induction n with
  | zero => rfl
  | succ n ih => rw [Function.iterate_succ_apply', ← ih, ← t.exp_succ, Nat.add_assoc]

omit [DecidableEq K] in
/-- Exponents of the same power may replace each other. -/
theorem exp_add_congr {m m' n n' : ℕ} (hm : t.exp m = t.exp m') (hn : t.exp n = t.exp n') :
    t.exp (m + n) = t.exp (m' + n') := by
  rw [t.exp_add, hm, ← t.exp_add, Nat.add_comm, t.exp_add, hn, ← t.exp_add, Nat.add_comm]

omit [DecidableEq K] in
theorem exists_exp {a : K} (ha : a ≠ 0) : ∃ n, a = t.exp n :=
  ⟨t.log a, (t.exp_log a ha).symm⟩

/-- Multiplying powers adds their exponents. -/
theorem mul_exp (m n : ℕ) : t.mul (t.exp m) (t.exp n) = t.exp (m + n) := by
  unfold mul
  rw [if_neg (not_or.mpr ⟨t.exp_ne_zero m, t.exp_ne_zero n⟩)]
  exact t.exp_add_congr (t.exp_log _ (t.exp_ne_zero m)) (t.exp_log _ (t.exp_ne_zero n))

theorem zero_mul (a : K) : t.mul 0 a = 0 := if_pos (.inl rfl)

theorem mul_zero (a : K) : t.mul a 0 = 0 := if_pos (.inr rfl)

theorem mul_comm (a b : K) : t.mul a b = t.mul b a :=
  if_congr Or.comm rfl (congrArg t.exp (Nat.add_comm _ _))

theorem one_mul (a : K) : t.mul (t.exp 0) a = a := by
  by_cases ha : a = 0
  · rw [ha, t.mul_zero]
  · obtain ⟨n, rfl⟩ := t.exists_exp ha
    rw [t.mul_exp, Nat.zero_add]

theorem mul_assoc (a b c : K) : t.mul (t.mul a b) c = t.mul a (t.mul b c) := by
  by_cases ha : a = 0
  · rw [ha, t.zero_mul, t.zero_mul, t.zero_mul]
  by_cases hb : b = 0
  · rw [hb, t.mul_zero, t.zero_mul, t.mul_zero]
  by_cases hc : c = 0
  · rw [hc, t.mul_zero, t.mul_zero, t.mul_zero]
  obtain ⟨l, rfl⟩ := t.exists_exp ha
  obtain ⟨m, rfl⟩ := t.exists_exp hb
  obtain ⟨n, rfl⟩ := t.exists_exp hc
  simp only [t.mul_exp, Nat.add_assoc]

theorem mul_inv_cancel {a : K} (ha : a ≠ 0) : t.mul a (t.inv a) = t.exp 0 := by
  have hsum : t.log a + (t.order - t.log a) = t.order := Nat.add_sub_cancel' (t.log_le a)
  unfold inv
  rw [if_neg ha]
  calc t.mul a (t.exp (t.order - t.log a))
      = t.mul (t.exp (t.log a)) (t.exp (t.order - t.log a)) := by rw [t.exp_log a ha]
    _ = t.exp (t.log a + (t.order - t.log a)) := t.mul_exp _ _
    _ = t.exp 0 := by rw [hsum, t.exp_order]

/-- Multiplication by a power is that many steps. -/
theorem exp_mul (n : ℕ) (b : K) : t.mul (t.exp n) b = t.step^[n] b := by
  by_cases hb : b = 0
  · rw [hb, t.mul_zero, iterate_map_zero]
  · obtain ⟨m, rfl⟩ := t.exists_exp hb
    rw [t.mul_exp, Nat.add_comm, t.exp_add]

theorem mul_add (a b c : K) : t.mul a (b + c) = t.mul a b + t.mul a c := by
  by_cases ha : a = 0
  · rw [ha, t.zero_mul, t.zero_mul, t.zero_mul, add_zero]
  -- multiplication by a power repeats an additive map
  · obtain ⟨n, rfl⟩ := t.exists_exp ha
    rw [t.exp_mul, t.exp_mul, t.exp_mul, iterate_map_add]

/-- The field that the tables describe, over the addition it was given. -/
abbrev toField : Field K where
  mul := t.mul
  one := t.exp 0
  inv := t.inv
  mul_assoc := t.mul_assoc
  one_mul := t.one_mul
  mul_one a := (t.mul_comm a _).trans (t.one_mul a)
  zero_mul := t.zero_mul
  mul_zero := t.mul_zero
  mul_comm := t.mul_comm
  left_distrib := t.mul_add
  right_distrib a b c := by
    show t.mul (a + b) c = t.mul a c + t.mul b c
    rw [t.mul_comm, t.mul_add, t.mul_comm c a, t.mul_comm c b]
  neg_add_cancel := neg_add_cancel
  zsmul := (· • ·)
  zsmul_zero' := SubNegMonoid.zsmul_zero'
  zsmul_succ' := SubNegMonoid.zsmul_succ'
  zsmul_neg' := SubNegMonoid.zsmul_neg'
  sub_eq_add_neg := sub_eq_add_neg
  exists_pair_ne := ⟨t.exp 0, 0, t.exp_ne_zero 0⟩
  mul_inv_cancel _ ha := t.mul_inv_cancel ha
  inv_zero := if_pos rfl
  nnqsmul := _
  nnqsmul_def _ _ := rfl
  qsmul := _
  qsmul_def _ _ := rfl

end LogTables
