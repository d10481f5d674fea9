import Mathlib

/-!
# Words as polynomials over GF(2)

Cyclic codes are computed with machine words and understood as polynomials. Bit `i` of a
word is the coefficient of `X ^ i`; exclusive or is addition, and a shift to the left
multiplies by `X`.

Long division takes shifted copies of a generator off a word until it is smaller than the
generator. Whatever the order of these steps, what is left is the remainder `%ₘ`
(`toPoly_remainder`), and so the remainder of a sum is the sum of the remainders
(`remainder_xor`).

- `toPoly`: the polynomial of a word.
- `Generator`: a word that is a generator of a given degree.
- `CongruentMod`: two words leave the same remainder.
- `CongruentMod.reduce`: a step of the division.
-/

namespace BitPolynomial

open Polynomial

variable {n k a b g r s : ℕ}

instance charP_bool : CharP Bool 2 := CharTwo.of_one_ne_zero_of_two_eq_zero (by decide) (by decide)

/-- The lowest `n` bits of a word. -/
noncomputable def toPoly (n a : ℕ) : Bool[X] := Polynomial.ofFn n fun i => a.testBit i

theorem coeff_toPoly_of_lt {i : ℕ} (hi : i < n) : (toPoly n a).coeff i = a.testBit i :=
  Polynomial.ofFn_coeff_eq_val_of_lt _ hi

theorem coeff_toPoly_of_ge {i : ℕ} (hi : n ≤ i) : (toPoly n a).coeff i = 0 :=
  Polynomial.ofFn_coeff_eq_zero_of_ge _ hi

@[simp]
theorem toPoly_xor (n a b : ℕ) : toPoly n (a ^^^ b) = toPoly n a + toPoly n b := by
  have hbits : (fun i : Fin n => (a ^^^ b).testBit i) =
      (fun i : Fin n => a.testBit i) + fun i : Fin n => b.testBit i :=
    funext fun i => Nat.testBit_xor a b i
  rw [toPoly, hbits, map_add]
  rfl

theorem toPoly_two_pow {j : ℕ} (hj : j < n) : toPoly n (2 ^ j) = X ^ j := by
  ext i
  rw [coeff_X_pow]
  by_cases hi : i < n
  · rw [coeff_toPoly_of_lt hi, Nat.testBit_two_pow]
    by_cases hij : i = j
    · rw [if_pos hij, decide_eq_true hij.symm]
      rfl
    · rw [if_neg hij, decide_eq_false (Ne.symm hij)]
      rfl
  · rw [coeff_toPoly_of_ge (Nat.not_lt.mp hi), if_neg (by omega)]

theorem toPoly_one (hn : 0 < n) : toPoly n 1 = 1 := by
  rw [← pow_zero X, ← toPoly_two_pow hn, pow_zero]

/-- Zeros above a word do not matter. -/
theorem toPoly_of_lt (ha : a < 2 ^ k) (hk : k ≤ n) : toPoly n a = toPoly k a := by
  ext i
  by_cases hi : i < k
  · rw [coeff_toPoly_of_lt hi, coeff_toPoly_of_lt (hi.trans_le hk)]
  · rw [coeff_toPoly_of_ge (Nat.not_lt.mp hi)]
    by_cases hin : i < n
    · have hpow : 2 ^ k ≤ 2 ^ i := Nat.pow_le_pow_right Nat.zero_lt_two (Nat.not_lt.mp hi)
      rw [coeff_toPoly_of_lt hin, Nat.testBit_lt_two_pow (ha.trans_le hpow)]
      rfl
    · exact coeff_toPoly_of_ge (Nat.not_lt.mp hin)

/-- No two words of `n` bits are the same polynomial. -/
theorem toPoly_injective (ha : a < 2 ^ n) (hb : b < 2 ^ n) (h : toPoly n a = toPoly n b) :
    a = b := by
  refine Nat.eq_of_testBit_eq fun i => ?_
  by_cases hi : i < n
  · rw [← coeff_toPoly_of_lt hi, h, coeff_toPoly_of_lt hi]
  · have hpow : 2 ^ n ≤ 2 ^ i := Nat.pow_le_pow_right Nat.zero_lt_two (Nat.not_lt.mp hi)
    rw [Nat.testBit_lt_two_pow (ha.trans_le hpow), Nat.testBit_lt_two_pow (hb.trans_le hpow)]

/-- A shift that loses no bit multiplies by a power of `X`. -/
theorem toPoly_mul_two_pow {j : ℕ} (ha : a < 2 ^ k) (hn : k + j ≤ n) :
    toPoly n (a * 2 ^ j) = toPoly n a * X ^ j := by
  ext i
  rw [coeff_mul_X_pow']
  by_cases hi : i < n
  · rw [coeff_toPoly_of_lt hi, Nat.mul_comm, Nat.testBit_two_pow_mul]
    by_cases hj : j ≤ i
    · rw [if_pos hj, coeff_toPoly_of_lt (by omega), decide_eq_true hj, Bool.true_and]
    · rw [if_neg hj, decide_eq_false hj, Bool.false_and]
      rfl
  · rw [coeff_toPoly_of_ge (Nat.not_lt.mp hi), if_pos (by omega)]
    -- what would be moved there is zero already
    by_cases hij : i - j < n
    · have hpow : 2 ^ k ≤ 2 ^ (i - j) := Nat.pow_le_pow_right Nat.zero_lt_two (by omega)
      rw [coeff_toPoly_of_lt hij, Nat.testBit_lt_two_pow (ha.trans_le hpow)]
      rfl
    · exact (coeff_toPoly_of_ge (Nat.not_lt.mp hij)).symm

theorem degree_toPoly_lt (n : ℕ) (ha : a < 2 ^ k) : (toPoly n a).degree < k := by
  rw [degree_lt_iff_coeff_zero]
  intro i hi
  by_cases hin : i < n
  · have hpow : 2 ^ k ≤ 2 ^ i := Nat.pow_le_pow_right Nat.zero_lt_two hi
    rw [coeff_toPoly_of_lt hin, Nat.testBit_lt_two_pow (ha.trans_le hpow)]
    rfl
  · exact coeff_toPoly_of_ge (Nat.not_lt.mp hin)

/-- A generator: a word of `n` bits whose highest set bit is `k`. -/
structure Generator (n k g : ℕ) : Prop where
  lt : g < 2 ^ (k + 1)
  leading : g.testBit k = true
  room : k < n

theorem Generator.natDegree_le (hg : Generator n k g) : (toPoly n g).natDegree ≤ k := by
  have hdegree := degree_toPoly_lt n hg.lt
  rw [degree_lt_iff_coeff_zero] at hdegree
  rw [natDegree_le_iff_coeff_eq_zero]
  exact fun i hi => hdegree i hi

theorem Generator.monic (hg : Generator n k g) : (toPoly n g).Monic := by
  refine monic_of_natDegree_le_of_coeff_eq_one k hg.natDegree_le ?_
  rw [coeff_toPoly_of_lt hg.room, hg.leading]
  rfl

theorem Generator.degree_eq (hg : Generator n k g) : (toPoly n g).degree = k := by
  refine degree_eq_of_le_of_coeff_ne_zero (natDegree_le_iff_degree_le.mp hg.natDegree_le) ?_
  rw [coeff_toPoly_of_lt hg.room, hg.leading]
  decide

/-- The two words differ by a multiple of the generator. -/
def CongruentMod (n g a b : ℕ) : Prop := toPoly n g ∣ toPoly n a - toPoly n b

theorem CongruentMod.refl (n g a : ℕ) : CongruentMod n g a a := by
  rw [CongruentMod, sub_self]
  exact dvd_zero _

/-- One step of a long division. -/
theorem CongruentMod.reduce {j : ℕ} (hg : Generator n k g) (hj : k + 1 + j ≤ n)
    (h : CongruentMod n g a b) : CongruentMod n g a (b ^^^ g * 2 ^ j) := by
  rw [CongruentMod, toPoly_xor, toPoly_mul_two_pow hg.lt hj, ← sub_sub]
  exact dvd_sub h (dvd_mul_right _ _)

/-- A word that is left when nothing more can be taken off is the remainder. -/
theorem toPoly_remainder (hg : Generator n k g) (h : CongruentMod n g a r) (hr : r < 2 ^ k) :
    toPoly n r = toPoly n a %ₘ toPoly n g := by
  have hself : toPoly n r %ₘ toPoly n g = toPoly n r := by
    rw [modByMonic_eq_self_iff hg.monic, hg.degree_eq]
    exact degree_toPoly_lt n hr
  have hzero : (toPoly n a - toPoly n r) %ₘ toPoly n g = 0 :=
    (modByMonic_eq_zero_iff_dvd hg.monic).mpr h
  rw [sub_modByMonic, sub_eq_zero, hself] at hzero
  exact hzero.symm

/-- Remainders add up. -/
theorem remainder_xor {t : ℕ} (hg : Generator n k g) (ha : CongruentMod n g a r) (hr : r < 2 ^ k)
    (hb : CongruentMod n g b s) (hs : s < 2 ^ k) (hab : CongruentMod n g (a ^^^ b) t)
    (ht : t < 2 ^ k) : t = r ^^^ s := by
  have hpow : 2 ^ k ≤ 2 ^ n := Nat.pow_le_pow_right Nat.zero_lt_two hg.room.le
  refine toPoly_injective (ht.trans_le hpow) ((Nat.xor_lt_two_pow hr hs).trans_le hpow) ?_
  rw [toPoly_remainder hg hab ht, toPoly_xor, toPoly_xor, add_modByMonic,
    toPoly_remainder hg ha hr, toPoly_remainder hg hb hs]

end BitPolynomial
