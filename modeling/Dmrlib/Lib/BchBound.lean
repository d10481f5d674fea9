import Mathlib

/-!
# The distance of a Reed-Solomon code

The symbols of a word sit at locators `x i`, all distinct and none zero. The
`k`-th syndrome of a word `w` is `∑ i, w i * x i ^ k`, and a code with `d`
consecutive checks demands that syndromes 1 to `d` vanish. A non-zero word of
weight at most `d` cannot satisfy them all, since on its support they form a
Vandermonde system; so two words with the same syndromes differ in more than `d`
symbols (`lt_hammingDist`).

- `syndrome`: the `k`-th check of a word.
- `eq_zero_of_syndrome`: the Vandermonde argument.
- `lt_hammingDist`: the distance of the code.
-/

namespace BchBound

variable {ι F : Type*} [Fintype ι] [Field F]

/-- Syndrome `k` of the word `w`. -/
def syndrome (x w : ι → F) (k : ℕ) : F := ∑ i, w i * x i ^ k

variable {x v w : ι → F} {d : ℕ}

theorem syndrome_sub (k : ℕ) : syndrome x (w - v) k = syndrome x w k - syndrome x v k := by
  unfold syndrome
  rw [← Finset.sum_sub_distrib]
  exact Finset.sum_congr rfl fun i _ => sub_mul _ _ _

variable [DecidableEq F]

/-- A word of weight at most `d` whose first `d` syndromes vanish is zero. -/
theorem eq_zero_of_syndrome (hx : Function.Injective x) (h0 : ∀ i, x i ≠ 0)
    (hs : ∀ k < d, syndrome x w (k + 1) = 0) (hw : hammingNorm w ≤ d) : w = 0 := by
  let S : Finset ι := {i | w i ≠ 0}
  have hmem : ∀ i, i ∈ S ↔ w i ≠ 0 := fun i => by
    show i ∈ Finset.univ.filter _ ↔ _
    rw [Finset.mem_filter]
    exact and_iff_right (Finset.mem_univ i)
  -- the symbols of the support, in some order, with the first power of the locator moved into them
  let s : Fin S.card → ι := fun j => S.equivFin.symm j
  have hinj : Function.Injective (x ∘ s) :=
    hx.comp (Subtype.val_injective.comp S.equivFin.symm.injective)
  have hsum : ∀ k : Fin S.card, ∑ j, w (s j) * x (s j) * (x ∘ s) j ^ (k : ℕ) = 0 := by
    intro k
    have hk : (k : ℕ) < d := lt_of_lt_of_le k.isLt hw
    calc ∑ j, w (s j) * x (s j) * (x ∘ s) j ^ (k : ℕ)
        = ∑ j, w (s j) * x (s j) ^ ((k : ℕ) + 1) := by
          refine Finset.sum_congr rfl fun j _ => ?_
          rw [Function.comp_apply, pow_succ', mul_assoc]
      _ = ∑ i : S, w i * x i ^ ((k : ℕ) + 1) :=
          Equiv.sum_comp S.equivFin.symm fun i : S => w i * x i ^ ((k : ℕ) + 1)
      _ = ∑ i ∈ S, w i * x i ^ ((k : ℕ) + 1) :=
          Finset.sum_coe_sort S fun i => w i * x i ^ ((k : ℕ) + 1)
      _ = syndrome x w (k + 1) := by
          refine Finset.sum_subset (Finset.subset_univ S) fun i _ hi => ?_
          rw [not_not.mp (mt (hmem i).mpr hi), zero_mul]
      _ = 0 := hs k hk
  -- a Vandermonde system of distinct locators
  have hzero := Matrix.eq_zero_of_forall_pow_sum_mul_pow_eq_zero hinj hsum
  funext i
  by_contra hi
  have hprod := congrFun hzero (S.equivFin ⟨i, (hmem i).mpr hi⟩)
  simp only [s, Equiv.symm_apply_apply, Pi.zero_apply] at hprod
  exact mul_ne_zero hi (h0 i) hprod

/-- Distinct words with the same first `d` syndromes differ in more than `d`
symbols. -/
theorem lt_hammingDist (hx : Function.Injective x) (h0 : ∀ i, x i ≠ 0)
    (hs : ∀ k < d, syndrome x w (k + 1) = syndrome x v (k + 1)) (hne : w ≠ v) :
    d < hammingDist w v := by
  by_contra hle
  rw [hammingDist_comm, hammingDist_eq_hammingNorm, neg_add_eq_sub] at hle
  refine hne (sub_eq_zero.mp (eq_zero_of_syndrome hx h0 (fun k hk => ?_) (Nat.le_of_not_lt hle)))
  rw [syndrome_sub, hs k hk, sub_self]

end BchBound
