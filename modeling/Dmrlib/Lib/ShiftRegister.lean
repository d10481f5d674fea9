import Dmrlib.Lib.BitPolynomial

/-!
# Division by a shift register

A cyclic redundancy check feeds a message into a register, the bit of the highest power first.
Whenever a bit leaves the register, the generator is taken off. What the register holds is
the remainder of what was fed (`toPoly_run`), so two messages leave the same if they differ by
a multiple of the generator (`run_eq_iff`), and none does that is short, wherever it stands in
the message (`run_ne_of_burst`).

The register is also a way to compute remainders, and with them to see that polynomials are
coprime (`isCoprime_of_run`).

- `feed`, `run`: one bit into the register, and all of them.
- `toPoly_run`: what a run leaves behind, as a remainder.
- `isCoprime_of_run`: polynomials that have no factor in common, from runs of the register.
- `run_ne_of_burst`: two messages that differ in a short burst leave different remainders.
-/

namespace ShiftRegister

open Polynomial BitPolynomial

variable {k g r : ℕ} {bits bits' : List Bool}

/-! ## Messages -/

/-- The polynomial of a message, whose first bit belongs to the highest power. -/
noncomputable def message (bits : List Bool) : Bool[X] :=
  bits.foldl (fun p bit => p * X + C bit) 0

@[simp]
theorem message_nil : message [] = 0 := rfl

theorem message_concat (bits : List Bool) (bit : Bool) :
    message (bits ++ [bit]) = message bits * X + C bit :=
  List.foldl_append

theorem message_append (bits bits' : List Bool) :
    message (bits ++ bits') = message bits * X ^ bits'.length + message bits' := by
  induction bits' using List.reverseRecOn with
  | nil => simp
  | append_singleton bits' bit ih =>
    rw [← List.append_assoc, message_concat, message_concat, ih, List.length_append,
      List.length_singleton]
    ring

@[simp]
theorem message_replicate_false (n : ℕ) : message (List.replicate n false) = 0 := by
  induction n with
  | zero => rfl
  | succ n ih =>
    rw [List.replicate_succ', message_concat, ih, zero_mul, zero_add]
    exact C_0

/-- The coefficients are the bits, from the last one on. -/
theorem coeff_message (bits : List Bool) (i : ℕ) :
    (message bits).coeff i = bits.reverse.getD i false := by
  induction bits using List.reverseRecOn generalizing i with
  | nil => exact coeff_zero i
  | append_singleton bits bit ih =>
    rw [message_concat, coeff_add, coeff_C, List.reverse_append]
    cases i with
    | zero =>
      rw [mul_coeff_zero, coeff_X_zero, mul_zero, if_pos rfl, zero_add]
      rfl
    | succ i =>
      rw [coeff_mul_X, ih, if_neg (Nat.succ_ne_zero i), add_zero]
      rfl

theorem degree_message_lt (bits : List Bool) : (message bits).degree < bits.length := by
  rw [degree_lt_iff_coeff_zero]
  intro i hi
  rw [coeff_message, List.getD_eq_default _ _ (by rwa [List.length_reverse])]
  rfl

/-- Messages of one length are known by their polynomials. -/
theorem message_injective (hlen : bits.length = bits'.length) (h : message bits = message bits') :
    bits = bits' := by
  refine List.reverse_injective (List.ext_getElem (by simpa using hlen) fun i hi hi' => ?_)
  have hcoeff := congrArg (fun p => p.coeff i) h
  simp only [coeff_message] at hcoeff
  rwa [List.getD_eq_getElem _ _ hi, List.getD_eq_getElem _ _ hi'] at hcoeff

/-- The lowest `n` bits of a word, as a message. -/
def wordBits (n a : ℕ) : List Bool := (List.range n).reverse.map a.testBit

theorem message_wordBits (n a : ℕ) : message (wordBits n a) = toPoly n a := by
  ext i
  rw [coeff_message, wordBits, ← List.map_reverse, List.reverse_reverse]
  by_cases hi : i < n
  · rw [coeff_toPoly_of_lt hi, List.getD_eq_getElem _ _ (by simpa using hi), List.getElem_map,
      List.getElem_range]
  · rw [coeff_toPoly_of_ge (Nat.not_lt.mp hi), List.getD_eq_default _ _ (by simpa using hi)]
    rfl

/-! ## The register -/

/-- A bit is fed into a register of `k` bits; `g` includes the leading bit of the generator. -/
def feed (k g r : ℕ) (bit : Bool) : ℕ :=
  if (2 * r + bit.toNat).testBit k then (2 * r + bit.toNat) ^^^ g else 2 * r + bit.toNat

/-- … and a message. -/
def run (k g : ℕ) (bits : List Bool) (r : ℕ) : ℕ := bits.foldl (feed k g) r

theorem run_append (bits bits' : List Bool) (r : ℕ) :
    run k g (bits ++ bits') r = run k g bits' (run k g bits r) :=
  List.foldl_append

theorem run_concat (bits : List Bool) (bit : Bool) (r : ℕ) :
    run k g (bits ++ [bit]) r = feed k g (run k g bits r) bit :=
  run_append bits [bit] r

theorem feed_lt (hg : Generator (k + 1) k g) (hr : r < 2 ^ k) (bit : Bool) :
    feed k g r bit < 2 ^ k := by
  have hbit := bit.toNat_lt
  have hshifted : 2 * r + bit.toNat < 2 ^ (k + 1) := by
    rw [Nat.pow_succ]
    omega
  have hbelow : ∀ {a : ℕ}, a < 2 ^ (k + 1) → a.testBit k = false → a < 2 ^ k := by
    intro a ha hk
    refine Nat.lt_pow_two_of_testBit _ fun i hi => ?_
    obtain rfl | hlt := Nat.eq_or_lt_of_le hi
    · exact hk
    · exact Nat.testBit_lt_two_pow (ha.trans_le (Nat.pow_le_pow_right Nat.zero_lt_two hlt))
  unfold feed
  split
  · next htop =>
    refine hbelow (Nat.xor_lt_two_pow hshifted hg.lt) ?_
    rw [Nat.testBit_xor, htop, hg.leading]
    rfl
  · next htop => exact hbelow hshifted (Bool.eq_false_of_not_eq_true htop)

theorem toPoly_double_add (hr : r < 2 ^ k) (bit : Bool) :
    toPoly (k + 1) (2 * r + bit.toNat) = toPoly (k + 1) r * X + C bit := by
  ext i
  rw [coeff_add, coeff_C]
  cases i with
  | zero =>
    rw [mul_coeff_zero, coeff_X_zero, mul_zero, if_pos rfl, zero_add,
      coeff_toPoly_of_lt (Nat.succ_pos k)]
    cases bit <;> simp [Nat.testBit_zero, Nat.add_mod]
  | succ i =>
    rw [coeff_mul_X, if_neg (Nat.succ_ne_zero i), add_zero]
    have hhalf : (2 * r + bit.toNat) / 2 = r := by
      have hbit := bit.toNat_lt
      omega
    by_cases hi : i + 1 < k + 1
    · rw [coeff_toPoly_of_lt hi, coeff_toPoly_of_lt (by omega), Nat.testBit_succ, hhalf]
    · rw [coeff_toPoly_of_ge (Nat.not_lt.mp hi)]
      have hle : k ≤ i := Nat.not_lt.mp fun h => hi (Nat.succ_lt_succ h)
      obtain rfl | hlt := Nat.eq_or_lt_of_le hle
      · rw [coeff_toPoly_of_lt (Nat.lt_succ_self _), Nat.testBit_lt_two_pow hr]
        rfl
      · exact (coeff_toPoly_of_ge hlt).symm

/-- One bit: what is taken off is a multiple of the generator. -/
theorem dvd_sub_toPoly_feed (hr : r < 2 ^ k) (bit : Bool) :
    toPoly (k + 1) g ∣ toPoly (k + 1) r * X + C bit - toPoly (k + 1) (feed k g r bit) := by
  rw [← toPoly_double_add hr]
  unfold feed
  split
  · rw [toPoly_xor, sub_add_cancel_left]
    exact dvd_neg.mpr dvd_rfl
  · rw [sub_self]
    exact dvd_zero _

/-- Remainders of two polynomials are the same if they differ by a multiple. -/
theorem modByMonic_eq_iff {p q G : Bool[X]} (hG : G.Monic) : p %ₘ G = q %ₘ G ↔ G ∣ p - q := by
  rw [← modByMonic_eq_zero_iff_dvd hG, sub_modByMonic, sub_eq_zero]

theorem toPoly_modByMonic (hg : Generator (k + 1) k g) (hr : r < 2 ^ k) :
    toPoly (k + 1) r %ₘ toPoly (k + 1) g = toPoly (k + 1) r := by
  rw [modByMonic_eq_self_iff hg.monic, hg.degree_eq]
  exact degree_toPoly_lt (k + 1) hr

theorem run_lt (hg : Generator (k + 1) k g) (bits : List Bool) (hr : r < 2 ^ k) :
    run k g bits r < 2 ^ k := by
  induction bits generalizing r with
  | nil => exact hr
  | cons bit bits ih => exact ih (feed_lt hg hr bit)

/-- **The register holds the remainder** of what was fed. -/
theorem toPoly_run (hg : Generator (k + 1) k g) (bits : List Bool) (hr : r < 2 ^ k) :
    toPoly (k + 1) (run k g bits r) =
      (toPoly (k + 1) r * X ^ bits.length + message bits) %ₘ toPoly (k + 1) g := by
  induction bits using List.reverseRecOn with
  | nil =>
    rw [List.length_nil, pow_zero, mul_one, message_nil, add_zero]
    exact (toPoly_modByMonic hg hr).symm
  | append_singleton bits bit ih =>
    have hbefore := run_lt hg bits hr
    rw [run_concat, ← toPoly_modByMonic hg (feed_lt hg hbefore bit)]
    refine (((modByMonic_eq_iff hg.monic).mpr (dvd_sub_toPoly_feed hbefore bit)).symm.trans ?_)
    rw [ih, modByMonic_eq_iff hg.monic, message_concat, List.length_append, List.length_singleton]
    -- the remainder differs from what was fed before by a multiple
    have hdiv := modByMonic_add_div (toPoly (k + 1) r * X ^ bits.length + message bits)
      (toPoly (k + 1) g)
    refine ⟨-(((toPoly (k + 1) r * X ^ bits.length + message bits) /ₘ toPoly (k + 1) g) * X), ?_⟩
    conv_lhs => rw [pow_succ, ← mul_assoc]
    linear_combination X * hdiv

/-- From an empty register. -/
theorem toPoly_run_zero (hg : Generator (k + 1) k g) (bits : List Bool) :
    toPoly (k + 1) (run k g bits 0) = message bits %ₘ toPoly (k + 1) g := by
  have hzero : toPoly (k + 1) 0 = 0 := by
    ext i
    by_cases hi : i < k + 1
    · rw [coeff_toPoly_of_lt hi, Nat.zero_testBit]
      rfl
    · exact coeff_toPoly_of_ge (Nat.not_lt.mp hi)
  rw [toPoly_run hg bits (Nat.two_pow_pos k), hzero, zero_mul, zero_add]

/-- Two messages leave the same if they differ by a multiple of the generator. -/
theorem run_eq_iff (hg : Generator (k + 1) k g) (bits bits' : List Bool) :
    run k g bits 0 = run k g bits' 0 ↔ toPoly (k + 1) g ∣ message bits - message bits' := by
  rw [← modByMonic_eq_iff hg.monic, ← toPoly_run_zero hg, ← toPoly_run_zero hg]
  constructor
  · exact fun h => congrArg _ h
  · have hpow : 2 ^ k ≤ 2 ^ (k + 1) := Nat.pow_le_pow_right Nat.zero_lt_two (Nat.le_succ k)
    exact toPoly_injective ((run_lt hg bits (Nat.two_pow_pos k)).trans_le hpow)
      ((run_lt hg bits' (Nat.two_pow_pos k)).trans_le hpow)

/-! ## Coprime polynomials -/

theorem isCoprime_X (h : g.testBit 0 = true) (n : ℕ) : IsCoprime X (toPoly (n + 1) g) := by
  obtain ⟨q, hq⟩ := X_dvd_sub_C (p := toPoly (n + 1) g)
  rw [coeff_toPoly_of_lt (Nat.succ_pos n), h, sub_eq_iff_eq_add] at hq
  refine ⟨-q, 1, ?_⟩
  rw [hq, one_mul, mul_comm X q, neg_mul, neg_add_cancel_left]
  rfl

/-- A message that leaves 1 in the register is coprime to the generator. -/
theorem isCoprime_of_run (hg : Generator (k + 1) k g) (h : run k g bits 0 = 1) :
    IsCoprime (message bits) (toPoly (k + 1) g) := by
  have hrun := toPoly_run_zero hg bits
  rw [h, toPoly_one (Nat.succ_pos k)] at hrun
  have hdiv := modByMonic_add_div (message bits) (toPoly (k + 1) g)
  rw [← hrun] at hdiv
  refine ⟨1, -(message bits /ₘ toPoly (k + 1) g), ?_⟩
  linear_combination -hdiv

/-- Of the remainders of a message, multiplied by two powers of `X`, one is the other if the
difference of the powers makes none. -/
theorem modByMonic_mul_X_pow_iff {G p : Bool[X]} (hG : G.Monic) (hX : IsCoprime X G) (i j : ℕ) :
    (p * X ^ i) %ₘ G = (p * X ^ (i + j)) %ₘ G ↔ G ∣ p * (X ^ j + 1) := by
  have htwo : (2 : Bool[X]) = 0 := CharTwo.two_eq_zero
  have hdiff : p * X ^ i - p * X ^ (i + j) = p * (X ^ j + 1) * X ^ i := by
    rw [pow_add]
    linear_combination -(p * X ^ i * X ^ j) * htwo
  rw [modByMonic_eq_iff hG, hdiff]
  exact ⟨hX.symm.pow_right.dvd_of_dvd_mul_right, fun hdvd => hdvd.mul_right _⟩

/-- Powers of `X` do not matter for divisibility. -/
theorem dvd_mul_X_pow_iff (h : g.testBit 0 = true) (n i : ℕ) {p : Bool[X]} :
    toPoly (n + 1) g ∣ p * X ^ i ↔ toPoly (n + 1) g ∣ p :=
  ⟨(isCoprime_X h n).symm.pow_right.dvd_of_dvd_mul_right, fun hdvd => hdvd.mul_right _⟩

/-! ## Bursts -/

/-- The message around some of its bits. -/
theorem message_split (bits : List Bool) (i n : ℕ) :
    message bits = (message (bits.take i) * X ^ ((bits.drop i).take n).length +
      message ((bits.drop i).take n)) * X ^ ((bits.drop i).drop n).length +
        message ((bits.drop i).drop n) := by
  rw [← message_append, ← message_append, List.append_assoc, List.take_append_drop,
    List.take_append_drop]

/-- **Bursts.** Messages that differ in some of `k` consecutive bits, and nowhere else, do not
leave the same in the register. -/
theorem run_ne_of_burst (hg : Generator (k + 1) k g) (hodd : g.testBit 0 = true)
    (hlen : bits.length = bits'.length) (hne : bits ≠ bits') {i : ℕ}
    (hburst : ∀ j, bits[j]? ≠ bits'[j]? → i ≤ j ∧ j < i + k) :
    run k g bits 0 ≠ run k g bits' 0 := by
  have hsame : ∀ j, ¬ (i ≤ j ∧ j < i + k) → bits[j]? = bits'[j]? := by
    intro j hout
    by_contra hdiff
    exact hout (hburst j hdiff)
  have hbefore : bits.take i = bits'.take i := by
    refine List.ext_getElem? fun j => ?_
    rw [List.getElem?_take, List.getElem?_take]
    split
    · exact hsame j (by omega)
    · rfl
  have hbehind : (bits.drop i).drop k = (bits'.drop i).drop k := by
    refine List.ext_getElem? fun j => ?_
    rw [List.getElem?_drop, List.getElem?_drop, List.getElem?_drop, List.getElem?_drop]
    exact hsame _ (by omega)
  have hmidlen : ((bits.drop i).take k).length = ((bits'.drop i).take k).length := by
    simp [hlen]
  -- what differs is shorter than the generator
  intro heq
  rw [run_eq_iff hg, message_split bits i k, message_split bits' i k, hbefore, hbehind,
    hmidlen, add_sub_add_right_eq_sub, ← sub_mul, add_sub_add_left_eq_sub,
    dvd_mul_X_pow_iff hodd] at heq
  have hdegree : (message ((bits.drop i).take k) - message ((bits'.drop i).take k)).degree <
      (toPoly (k + 1) g).degree := by
    rw [hg.degree_eq]
    have hle : ∀ l : List Bool, (message (l.take k)).degree < k := fun l =>
      (degree_message_lt _).trans_le (by exact_mod_cast List.length_take_le k l)
    exact (degree_sub_le _ _).trans_lt (max_lt (hle _) (hle _))
  have hzero : message ((bits.drop i).take k) - message ((bits'.drop i).take k) = 0 := by
    by_contra hne
    exact hg.monic.not_dvd_of_degree_lt hne hdegree heq
  have hmid := message_injective hmidlen (sub_eq_zero.mp hzero)
  refine hne ?_
  rw [← List.take_append_drop i bits, ← List.take_append_drop i bits', hbefore,
    ← List.take_append_drop k (bits.drop i), ← List.take_append_drop k (bits'.drop i), hmid,
    hbehind]

end ShiftRegister
