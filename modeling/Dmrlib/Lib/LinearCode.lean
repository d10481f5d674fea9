import Mathlib

/-!
# Systematic linear codes

A systematic code carries its message `d` unchanged and appends check symbols
`p = d ᵥ* G`. Over any commutative ring the words that satisfy all checks form
a submodule, so what an error does to a codeword depends on the error alone: the
`syndrome` of a word is that of the error in it, and vanishes for codewords.

- `IsCodeword`: the check symbols are those of the message.
- `syndrome`, `isCodeword_iff_syndrome`: what the check symbols are wrong by.
- `syndrome_add`: the syndrome of a sum.
-/

namespace LinearCode

open Matrix

variable {K B R : Type*} [Fintype K] [CommRing R]

/-- `(d, p)` satisfies every check of the code generated by `G`. -/
def IsCodeword (G : Matrix K B R) (d : K → R) (p : B → R) : Prop :=
  p = d ᵥ* G

variable {G : Matrix K B R} {d e : K → R} {p q : B → R}

/-- Componentwise form: each check symbol is its own weighted sum. -/
theorem isCodeword_iff_forall :
    IsCodeword G d p ↔ ∀ b, p b = ∑ k, d k * G k b :=
  funext_iff

/-- By how much the checks fail. -/
def syndrome (G : Matrix K B R) (d : K → R) (p : B → R) : B → R :=
  p - d ᵥ* G

theorem isCodeword_iff_syndrome : IsCodeword G d p ↔ syndrome G d p = 0 :=
  sub_eq_zero.symm

/-- The syndrome of a sum is the sum of the syndromes. -/
theorem syndrome_add : syndrome G (d + e) (p + q) = syndrome G d p + syndrome G e q := by
  unfold syndrome
  rw [Matrix.add_vecMul]
  exact add_sub_add_comm p q _ _

end LinearCode
