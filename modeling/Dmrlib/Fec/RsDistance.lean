import Dmrlib.Lib.BchBound
import Dmrlib.Fec.Gf256

/-!
# The distance of RS(12,9) (`src/dmr/fec/rs_12_9.c`)

`POLY` is (x + 2)(x + 4)(x + 8). At a root β of it, one round of the shift
register is Horner's rule, `p(β) ↦ β * p(β) + byte * β³` (`registerAt_rsShift`),
so the register ends up with the value at β of the nine data bytes moved up three
places. A word whose last three bytes are its parity vanishes at the three roots:
its symbols, at the locators `2 ^ (11 - j)`, pass the three checks of a
Reed-Solomon code (`syndrome_of_decode`), and two such words differ in at least
four bytes (`BchBound.lt_hammingDist`).

- `registerAt`: the register as a polynomial, at a point.
- `IsRoot`: a root of `POLY`, of which there are three.
- `changedBytes`: the places at which two words differ.
- `four_le_changedBytes`: two different words that the checker accepts differ in four places.
- `dmrRs12_9_4Decode_changed`: a codeword with one to three changed bytes is refused.
-/

namespace Dmrlib

open Loop

/-- The value at `x` of the polynomial in the register. -/
def registerAt (x : Gf256) (parity : Vector UInt8 3) : Gf256 :=
  ∑ j : Fin 3, ⟨parity.get j⟩ * x ^ j.val

/-- `x` is a root of `POLY`, of which the first four coefficients are not zero. -/
def IsRoot (x : Gf256) : Prop := ∑ j : Fin 4, ⟨rsPoly.get (j.castAdd 8)⟩ * x ^ j.val = 0

instance (x : Gf256) : Decidable (IsRoot x) := inferInstanceAs (Decidable (_ = _))

theorem registerAt_eq (x : Gf256) (parity : Vector UInt8 3) :
    registerAt x parity =
      ⟨parity.get 2⟩ * x ^ 2 + ⟨parity.get 1⟩ * x + ⟨parity.get 0⟩ := by
  rw [registerAt, Fin.sum_univ_three]
  show ⟨parity.get 0⟩ * x ^ 0 + ⟨parity.get 1⟩ * x ^ 1 + ⟨parity.get 2⟩ * x ^ 2 = _
  ring

/-- At a root, the leading term is the rest of the polynomial: addition is subtraction. -/
theorem IsRoot.cube {x : Gf256} (hx : IsRoot x) :
    x ^ 3 = ⟨rsPoly.get 2⟩ * x ^ 2 + ⟨rsPoly.get 1⟩ * x + ⟨rsPoly.get 0⟩ := by
  have hneg : ∀ a : Gf256, -a = a := fun _ => rfl
  have hlead : (⟨rsPoly.get 3⟩ : Gf256) = 1 := rfl
  have hsum : ∀ v : Vector UInt8 12, ∑ j : Fin 4, ⟨v.get (j.castAdd 8)⟩ * x ^ j.val =
      ⟨v.get 0⟩ + ⟨v.get 1⟩ * x + ⟨v.get 2⟩ * x ^ 2 + ⟨v.get 3⟩ * x ^ 3 := by
    intro v
    rw [Fin.sum_univ_four]
    simp
  rw [IsRoot, hsum] at hx
  rw [← hneg (_ + _)]
  linear_combination hx - x ^ 3 * hlead

/-- The register after one round. -/
theorem rsShift_eq (byte : UInt8) (parity : Vector UInt8 3) :
    rsShift byte parity =
      #v[gmult (rsPoly.get 0) (byte ^^^ parity.get 2),
        parity.get 0 ^^^ gmult (rsPoly.get 1) (byte ^^^ parity.get 2),
        parity.get 1 ^^^ gmult (rsPoly.get 2) (byte ^^^ parity.get 2)] := by
  refine Vector.ext fun i hi => ?_
  unfold rsShift
  interval_cases i <;> simp [forLoop]

/-- One round of the register at a root of `POLY`. -/
theorem registerAt_rsShift {x : Gf256} (hx : IsRoot x) (byte : UInt8) (parity : Vector UInt8 3) :
    registerAt x (rsShift byte parity) = x * registerAt x parity + ⟨byte⟩ * x ^ 3 := by
  have hmul : ∀ a : UInt8, (⟨gmult a (byte ^^^ parity.get 2)⟩ : Gf256) =
      ⟨a⟩ * (⟨byte⟩ + ⟨parity.get 2⟩) := fun a => Gf256.ext (Gf256.byte_mul ⟨a⟩ ⟨_⟩).symm
  have hadd : ∀ a b : UInt8, (⟨a ^^^ b⟩ : Gf256) = ⟨a⟩ + ⟨b⟩ := fun _ _ => rfl
  rw [rsShift_eq, registerAt_eq]
  show ⟨parity.get 1 ^^^ gmult (rsPoly.get 2) (byte ^^^ parity.get 2)⟩ * x ^ 2 +
      ⟨parity.get 0 ^^^ gmult (rsPoly.get 1) (byte ^^^ parity.get 2)⟩ * x +
      ⟨gmult (rsPoly.get 0) (byte ^^^ parity.get 2)⟩ = _
  rw [hadd, hadd, hmul, hmul, hmul, registerAt_eq]
  -- at a root, the leading term is what the feedback adds
  linear_combination (-⟨byte⟩ - ⟨parity.get 2⟩) * hx.cube

/-! ## The checks of a Reed-Solomon code -/

/-- The bytes of a word as field elements. -/
def symbols (word : Vector UInt8 12) (j : Fin 12) : Gf256 := ⟨word[j]⟩

/-- Byte `j` of a word is the coefficient of `x ^ (11 - j)`. -/
def locator (j : Fin 12) : Gf256 := ⟨2⟩ ^ (11 - j.val)

theorem locator_injective : Function.Injective locator := by
  unfold Function.Injective
  decide +kernel

theorem locator_ne_zero (j : Fin 12) : locator j ≠ 0 := pow_ne_zero _ (by decide)

/-- The roots of `POLY` are 2, 4 and 8. -/
theorem isRoot_pow {k : Nat} (hk : k < 3) : IsRoot ((⟨2⟩ : Gf256) ^ (k + 1)) := by
  interval_cases k <;> decide +kernel

/-- The parity of a word, at a root of `POLY`: the data bytes by Horner's rule,
moved up three places. -/
theorem registerAt_rsParity {x : Gf256} (hx : IsRoot x) (word : Vector UInt8 12) :
    registerAt x (rsParity word) =
      x ^ 3 * forLoop 9 (fun i acc => x * acc + symbols word (i.castLE (by decide))) 0 := by
  have hzero : registerAt x (Vector.replicate 3 0) = x ^ 3 * 0 := by
    rw [registerAt_eq]
    show (0 : Gf256) * x ^ 2 + 0 * x + 0 = x ^ 3 * 0
    ring
  unfold rsParity
  rw [forLoop_hom (g := fun i acc => x * acc + symbols word (i.castLE (by decide)) * x ^ 3)
    (registerAt x)
    (fun (i : Fin 9) parity => registerAt_rsShift hx (word.get (i.castAdd 3)) parity), hzero]
  exact (forLoop_hom (x ^ 3 * ·) (fun i acc => by ring) 0).symm

/-- A syndrome at a root of `POLY` adds up the parity and the bytes stored for it. -/
theorem syndrome_symbols {k : Nat} (hk : k < 3) (word : Vector UInt8 12) :
    BchBound.syndrome locator (symbols word) (k + 1) =
      registerAt (⟨2⟩ ^ (k + 1)) (rsParity word) +
        registerAt (⟨2⟩ ^ (k + 1)) #v[word[11], word[10], word[9]] := by
  generalize hx : (⟨2⟩ : Gf256) ^ (k + 1) = x
  have hroot : IsRoot x := hx ▸ isRoot_pow hk
  -- Horner's rule over all twelve bytes; its last three rounds read the stored parity
  calc BchBound.syndrome locator (symbols word) (k + 1)
      = ∑ j : Fin 12, symbols word j * x ^ (12 - 1 - j.val) := by
        refine Finset.sum_congr rfl fun j _ => ?_
        rw [locator, ← pow_mul, Nat.mul_comm, pow_mul, hx]
    _ = forLoop 12 (fun j acc => x * acc + symbols word j) 0 := (forLoop_horner x _).symm
    _ = x * (x * (x * forLoop 9 (fun i acc => x * acc + symbols word (i.castLE (by decide))) 0 +
          symbols word 9) + symbols word 10) + symbols word 11 := rfl
    _ = registerAt x (rsParity word) + registerAt x #v[word[11], word[10], word[9]] := by
        rw [registerAt_rsParity hroot, registerAt_eq]
        show _ = _ + (symbols word 9 * x ^ 2 + symbols word 10 * x + symbols word 11)
        ring

/-- Every accepted word passes the three checks. -/
theorem syndrome_of_decode {word : Vector UInt8 12} (h : dmrRs12_9_4Decode word = 0) {k : Nat}
    (hk : k < 3) : BchBound.syndrome locator (symbols word) (k + 1) = 0 := by
  rw [dmrRs12_9_4Decode_eq_zero_iff] at h
  have hstored : #v[word[11], word[10], word[9]] = rsParity word := by
    refine Vector.ext fun i hi => ?_
    have hi' := h ⟨i, hi⟩
    interval_cases i <;> exact hi'
  rw [syndrome_symbols hk, hstored]
  exact neg_add_cancel (registerAt _ (rsParity word))

/-- In how many bytes two words differ. -/
def changedBytes (a b : Vector UInt8 12) : Nat :=
  hammingDist (fun j : Fin 12 => a[j]) fun j => b[j]

/-- Two accepted words are equal or differ in at least four bytes. -/
theorem four_le_changedBytes {a b : Vector UInt8 12} (ha : dmrRs12_9_4Decode a = 0)
    (hb : dmrRs12_9_4Decode b = 0) (hne : a ≠ b) : 4 ≤ changedBytes a b := by
  have hsymbols : symbols a ≠ symbols b := by
    intro heq
    refine hne (Vector.ext fun j hj => ?_)
    exact congrArg Gf256.byte (congrFun heq ⟨j, hj⟩)
  have hdist : hammingDist (symbols a) (symbols b) = changedBytes a b :=
    hammingDist_comp (fun _ => Gf256.mk) fun _ _ _ h => congrArg Gf256.byte h
  rw [← hdist]
  refine BchBound.lt_hammingDist locator_injective locator_ne_zero (fun k hk => ?_) hsymbols
  rw [syndrome_of_decode ha hk, syndrome_of_decode hb hk]

/-! ## Encoded words -/

theorem dmrRs12_9_4Decode_encode (bytes : Vector UInt8 12) :
    dmrRs12_9_4Decode (dmrRs12_9_4Encode bytes) = 0 := by
  rw [dmrRs12_9_4Decode_eq_zero_iff]
  intro r
  rw [dmrRs12_9_4Encode_parity,
    rsParity_congr fun i => (dmrRs12_9_4Encode_data bytes i)]

theorem dmrRs12_9_4Decode_eq_or (word : Vector UInt8 12) :
    dmrRs12_9_4Decode word = 0 ∨ dmrRs12_9_4Decode word = -1 := by
  unfold dmrRs12_9_4Decode
  dsimp only
  split
  · exact .inr rfl
  · exact .inl rfl

/-- **Distance.** An encoded word is accepted, and no longer once one, two or
three of its bytes are changed. -/
theorem dmrRs12_9_4Decode_changed (bytes : Vector UInt8 12) :
    dmrRs12_9_4Decode (dmrRs12_9_4Encode bytes) = 0 ∧
      ∀ word : Vector UInt8 12, 1 ≤ changedBytes word (dmrRs12_9_4Encode bytes) →
        changedBytes word (dmrRs12_9_4Encode bytes) ≤ 3 → dmrRs12_9_4Decode word = -1 := by
  have henc := dmrRs12_9_4Decode_encode bytes
  refine ⟨henc, fun word hlo hhi => ?_⟩
  have hne : word ≠ dmrRs12_9_4Encode bytes := by
    rintro rfl
    have hself : changedBytes (dmrRs12_9_4Encode bytes) (dmrRs12_9_4Encode bytes) = 0 :=
      hammingDist_self _
    omega
  rcases dmrRs12_9_4Decode_eq_or word with h0 | h1
  · have hfour := four_le_changedBytes h0 henc hne
    omega
  · exact h1

/-- Three changed bytes, one of them a parity byte. -/
theorem dmrRs12_9_4Decode_changed_three :
    dmrRs12_9_4Decode ((((dmrRs12_9_4Encode #v[1, 2, 3, 4, 5, 6, 7, 8, 9, 0, 0, 0]).set
      (0 : Fin 12) 0xFF).set (5 : Fin 12) 0x80).set (10 : Fin 12) 0x11) = -1 :=
  (dmrRs12_9_4Decode_changed #v[1, 2, 3, 4, 5, 6, 7, 8, 9, 0, 0, 0]).2 _ (by decide +kernel)
    (by decide +kernel)

end Dmrlib
