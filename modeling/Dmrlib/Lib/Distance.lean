import Mathlib

/-!
# Words that differ in few places

A code corrects `t` errors if its words are more than `2 * t` apart: a received word is
then near one of them at most (`lt_hammingDist_of_near`), and whoever looks for it finds
the same, in whatever order (`find?_perm`).

The errors themselves can be listed: `errors` are the words of `n` bits with at most `t`
bits set, so that a statement about every such error is a finite one. As a decoder looks at
the syndrome of an error, which is additive, each is listed with its syndrome.

- `lt_hammingDist_of_near`: a word near one codeword is far from the others.
- `find?_perm`: the search for the near one does not depend on the order.
- `Additive`: a function of words that is a sum over their bits.
- `errors`, `mem_errors`: the list, and that it has every word with few bits set.
-/

namespace Distance

/-! ## Near words -/

section Near

variable {ι : Type*} {β : ι → Type*} [Fintype ι] [∀ i, DecidableEq (β i)] {x y w : ∀ i, β i}
  {t : ℕ}

/-- Near one word is far from the others. -/
theorem lt_hammingDist_of_near (h : 2 * t < hammingDist x y) (hx : hammingDist w x ≤ t) :
    t < hammingDist w y := by
  have htriangle := hammingDist_triangle_left x y w
  omega

/-- The order of the places does not matter. -/
theorem hammingDist_comp_equiv {ι κ β : Type*} [Fintype ι] [Fintype κ] [DecidableEq β]
    (σ : ι ≃ κ) (x y : κ → β) : hammingDist (x ∘ σ) (y ∘ σ) = hammingDist x y := by
  rw [hammingDist, hammingDist, Finset.card_filter, Finset.card_filter]
  exact σ.sum_comp fun i => if x i ≠ y i then 1 else 0

end Near

/-- A search for what is there once finds it in any order. -/
theorem find?_perm {α : Type*} {p : α → Bool} {l l' : List α}
    (h : ∀ a ∈ l, ∀ b ∈ l, p a = true → p b = true → a = b) (hperm : l.Perm l') :
    l.find? p = l'.find? p := by
  cases hfind : l.find? p with
  | none =>
    symm
    rw [List.find?_eq_none] at hfind ⊢
    exact fun b hb => hfind b (hperm.mem_iff.mpr hb)
  | some a =>
    have ha := List.mem_of_find?_eq_some hfind
    have hpa := List.find?_some hfind
    cases hfind' : l'.find? p with
    | none =>
      rw [List.find?_eq_none] at hfind'
      exact absurd hpa (hfind' a (hperm.mem_iff.mp ha))
    | some b =>
      have hb := hperm.mem_iff.mpr (List.mem_of_find?_eq_some hfind')
      rw [h a ha b hb hpa (List.find?_some hfind')]

/-! ## Errors -/

section Errors

variable {α : Type*}

/-- What an additive function makes of words: it is known by its values on single bits. -/
structure Additive (add : α → α → α) (unit : ℕ → α) (n : ℕ) (f : ℕ → α) : Prop where
  step : ∀ k < n, ∀ e < 2 ^ k, f (2 ^ k + e) = add (unit k) (f e)

/-- The words of `n` bits with at most `t` bits set, each with the value of the additive
function that is `zero` on the word without any. -/
def errors (add : α → α → α) (zero : α) (unit : ℕ → α) : (n t : ℕ) → List (ℕ × α)
  | 0, _ => [(0, zero)]
  | n + 1, 0 => errors add zero unit n 0
  | n + 1, t + 1 => errors add zero unit n (t + 1) ++
      (errors add zero unit n t).map fun p => (2 ^ n + p.1, add (unit n) p.2)

example : errors (· + ·) 0 (fun n => n) 3 1 = [(0, 0), (1, 0), (2, 1), (4, 2)] := by decide

theorem two_pow_add_eq_xor {k e : ℕ} (h : e < 2 ^ k) : 2 ^ k + e = 2 ^ k ^^^ e := by
  refine Nat.eq_of_testBit_eq fun i => ?_
  rw [Nat.testBit_xor, Nat.testBit_two_pow]
  obtain hlt | rfl | hgt := Nat.lt_trichotomy i k
  · rw [Nat.testBit_two_pow_add_gt hlt, decide_eq_false (by omega), Bool.false_xor]
  · rw [Nat.testBit_two_pow_add_eq, Nat.testBit_lt_two_pow h, decide_eq_true rfl]
    rfl
  · have hpow : 2 ^ (k + 1) ≤ 2 ^ i := Nat.pow_le_pow_right Nat.zero_lt_two hgt
    have hsum : 2 ^ k + e < 2 ^ i := by
      rw [Nat.pow_succ] at hpow
      omega
    rw [Nat.testBit_lt_two_pow hsum, Nat.testBit_lt_two_pow (by omega), decide_eq_false (by omega)]
    rfl

/-- The number of bits set among the lowest `n`. -/
def weight (n a : ℕ) : ℕ := ∑ i ∈ Finset.range n, (a.testBit i).toNat

theorem weight_succ (n a : ℕ) : weight (n + 1) a = weight n a + (a.testBit n).toNat :=
  Finset.sum_range_succ _ n

/-- The highest bit of a word, taken off. -/
theorem weight_add_two_pow (n a : ℕ) : weight n (2 ^ n + a) = weight n a := by
  refine Finset.sum_congr rfl fun i hi => ?_
  rw [Nat.testBit_two_pow_add_gt (Finset.mem_range.mp hi)]

theorem mem_errors {add : α → α → α} {unit : ℕ → α} {f : ℕ → α} {n t e : ℕ}
    (hf : Additive add unit n f) (he : e < 2 ^ n) (ht : weight n e ≤ t) :
    (e, f e) ∈ errors add (f 0) unit n t := by
  induction n generalizing t e with
  | zero =>
    obtain rfl : e = 0 := Nat.lt_one_iff.mp he
    exact List.mem_singleton_self _
  | succ n ih =>
    have hn : Additive add unit n f := ⟨fun k hk => hf.step k (Nat.lt_succ_of_lt hk)⟩
    rw [weight_succ] at ht
    -- the highest bit decides which half of the list the word is in
    cases hbit : e.testBit n with
    | false =>
      rw [hbit, Bool.toNat_false, Nat.add_zero] at ht
      have hlow : e < 2 ^ n := by
        refine Nat.lt_pow_two_of_testBit _ fun i hi => ?_
        obtain rfl | hlt := Nat.eq_or_lt_of_le hi
        · exact hbit
        · exact Nat.testBit_lt_two_pow (he.trans_le (Nat.pow_le_pow_right Nat.zero_lt_two hlt))
      have hmem := ih hn hlow ht
      cases t with
      | zero => exact hmem
      | succ t => exact List.mem_append_left _ hmem
    | true =>
      rw [hbit, Bool.toNat_true] at ht
      have hge : 2 ^ n ≤ e := Nat.ge_two_pow_of_testBit hbit
      obtain ⟨e, rfl⟩ := Nat.exists_eq_add_of_le hge
      rw [Nat.pow_succ] at he
      rw [weight_add_two_pow] at ht
      have hrest : e < 2 ^ n := by omega
      cases t with
      | zero => omega
      | succ t =>
        -- one of the `t` bits is used up
        have hmem := ih hn hrest (show weight n e ≤ t by omega)
        rw [hf.step n (Nat.lt_succ_self n) e hrest]
        exact List.mem_append_right _
          (List.mem_map_of_mem (f := fun p => (2 ^ n + p.1, add (unit n) p.2)) hmem)

end Errors

/-- The bits in which two words differ are those of their sum. -/
theorem weight_xor (n a b : ℕ) :
    weight n (a ^^^ b) = hammingDist (fun i : Fin n => a.testBit i) fun i => b.testBit i := by
  rw [hammingDist, Finset.card_filter, weight, Finset.sum_range]
  refine Finset.sum_congr rfl fun i _ => ?_
  rw [Nat.testBit_xor]
  cases a.testBit i <;> cases b.testBit i <;> rfl

end Distance
