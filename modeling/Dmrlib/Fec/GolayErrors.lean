import Dmrlib.Fec.Golay208
import Dmrlib.Lib.BitPolynomial
import Dmrlib.Lib.Distance

/-!
# Golay(20,8) corrects three errors

The syndrome is the remainder of the word as a polynomial, so it is additive and forgets the
codeword an error was added to. That the table has, for each syndrome of up to three errors
in the first nineteen bits, these errors, is a finite check; it implies that no two of
them have the same syndrome.

- `golayBits`, `golayUnit`: a word by its bits, and the word with a single one.
- `additive_golaySyndrome`: the syndrome of an exclusive or.
- `golayPattern_golaySyndrome`: the finite check.
- `dmrGolay20_8_corrects`: with up to three errors the decoder returns the byte that was encoded.
-/

namespace Dmrlib

open BitPolynomial Distance

/-! ## Words -/

/-- The first nineteen bits that the decoder is given, in the order of transmission. -/
def golayBits (data : Vector UInt8 3) (q : Fin 19) : Bool :=
  (dmrByteToBits data[q.val / 8])[q.val % 8]

theorem dmrByteToBits_testBit (b : UInt8) (j : Fin 8) :
    getElem (dmrByteToBits b) j j.isLt = b.toNat.testBit (7 - j.val) := by
  have hj := j.isLt
  rw [dmrByteToBits_getElem, BitVec.getMsbD_eq_getLsbD, decide_eq_true hj, Bool.true_and]
  rfl

theorem golayCode_lt (data : Vector UInt8 3) : (golayCode data).toNat < 2 ^ 19 := by
  have h0 := data[0].toNat_lt
  have h1 := data[1].toNat_lt
  have h2 := data[2].toNat_lt
  rw [toNat_golayCode]
  refine Nat.or_lt_two_pow (Nat.or_lt_two_pow ?_ ?_) ?_
  · rw [Nat.shiftLeft_eq]
    omega
  · rw [Nat.shiftLeft_eq]
    omega
  · rw [Nat.shiftRight_eq_div_pow]
    omega

/-- The first bit is the highest. -/
theorem testBit_golayCode (data : Vector UInt8 3) (q : Fin 19) :
    (golayCode data).toNat.testBit (18 - q.val) = golayBits data q := by
  have hbyte : ∀ (b : UInt8) (i : Nat), 8 ≤ i → b.toNat.testBit i = false := fun b i hi =>
    Nat.testBit_lt_two_pow (b.toNat_lt.trans_le (Nat.pow_le_pow_right Nat.zero_lt_two hi))
  have hq := q.isLt
  have hbit := dmrByteToBits_testBit data[q.val / 8] ⟨q.val % 8, Nat.mod_lt _ (by decide)⟩
  simp only [Fin.getElem_fin] at hbit
  rw [toNat_golayCode, Nat.testBit_or, Nat.testBit_or, Nat.testBit_shiftLeft, Nat.testBit_shiftLeft,
    Nat.testBit_shiftRight, golayBits, hbit]
  -- one case for each byte
  obtain h0 | h1 | h2 : q.val / 8 = 0 ∨ q.val / 8 = 1 ∨ q.val / 8 = 2 := by omega
  · simp only [h0]
    rw [hbyte data[1] _ (by omega), hbyte data[2] _ (by omega), Bool.and_false, Bool.or_false,
      Bool.or_false, decide_eq_true (by omega), Bool.true_and]
    congr 1
    omega
  · simp only [h1]
    rw [hbyte data[2] _ (by omega), decide_eq_false (by omega), Bool.false_and, Bool.false_or,
      Bool.or_false, decide_eq_true (by omega), Bool.true_and]
    congr 1
    omega
  · simp only [h2]
    rw [decide_eq_false (by omega), decide_eq_false (by omega), Bool.false_and, Bool.false_and,
      Bool.false_or, Bool.false_or]
    congr 1
    omega

/-- The positions in which two words differ are the bits of their sum. -/
theorem weight_golayCode (data data' : Vector UInt8 3) :
    weight 19 ((golayCode data).toNat ^^^ (golayCode data').toNat) =
      hammingDist (golayBits data) (golayBits data') := by
  have hrev : ∀ data : Vector UInt8 3, (fun i : Fin 19 => (golayCode data).toNat.testBit i) =
      golayBits data ∘ Fin.revPerm := by
    intro data
    funext i
    have htest := testBit_golayCode data i.rev
    have hi : 18 - i.rev.val = i.val := by
      rw [Fin.val_rev]
      omega
    rw [hi] at htest
    exact htest
  rw [weight_xor, hrev, hrev, hammingDist_comp_equiv]

/-! ## Syndromes -/

/-- `GENPOL` generates words of 32 bits. -/
theorem generator_GENPOL : Generator 32 11 GENPOL.toNat := ⟨by decide, by decide, by decide⟩

theorem toNat_shifted_GENPOL (j : Fin 23) (hj : 11 ≤ j.val) :
    ((UInt32.ofNat (2 ^ j.val) / X11) * GENPOL).toNat = GENPOL.toNat * 2 ^ (j.val - 11) := by
  revert j
  decide

/-- The syndrome of a word is its remainder. -/
theorem dmrGolay20_8Syndrome_spec {pattern : UInt32} (hp : pattern.toNat < 2 ^ 23) :
    ∃ s, dmrGolay20_8Syndrome pattern = some s ∧ s.toNat < 2 ^ 11 ∧
      CongruentMod 32 GENPOL.toNat pattern.toNat s.toNat := by
  refine dmrGolay20_8Syndrome_inv
    (P := fun q => CongruentMod 32 GENPOL.toNat pattern.toNat q.toNat) ?_ hp
    (CongruentMod.refl _ _ _)
  intro q j hj hq
  rw [UInt32.toNat_xor, toNat_shifted_GENPOL j hj]
  exact hq.reduce generator_GENPOL (by omega)

theorem dmrGolay20_8Syndrome_xor {a b s t : UInt32} (ha : a.toNat < 2 ^ 23) (hb : b.toNat < 2 ^ 23)
    (hs : dmrGolay20_8Syndrome a = some s) (ht : dmrGolay20_8Syndrome b = some t) :
    dmrGolay20_8Syndrome (a ^^^ b) = some (s ^^^ t) := by
  have hab : (a ^^^ b).toNat < 2 ^ 23 := by
    rw [UInt32.toNat_xor]
    exact Nat.xor_lt_two_pow ha hb
  obtain ⟨s', hs', hslt, hscong⟩ := dmrGolay20_8Syndrome_spec ha
  obtain ⟨t', ht', htlt, htcong⟩ := dmrGolay20_8Syndrome_spec hb
  obtain ⟨u, hu, hult, hucong⟩ := dmrGolay20_8Syndrome_spec hab
  obtain rfl : s' = s := Option.some.inj (hs'.symm.trans hs)
  obtain rfl : t' = t := Option.some.inj (ht'.symm.trans ht)
  rw [UInt32.toNat_xor] at hucong
  have hsum := remainder_xor generator_GENPOL hscong hslt htcong htlt hucong hult
  rw [← UInt32.toNat_xor] at hsum
  rw [hu, UInt32.toNat_inj.mp hsum]

/-- The first nineteen bits of what the encoder writes. -/
theorem golayCode_encode (data : Vector UInt8 3) :
    golayCode (dmrGolay20_8Encode data) =
      ((data.get 0).toUInt32 <<< 11) |||
        ((golayChecksum (data.get 0)).toUInt8.toUInt32 <<< 3) |||
        ((golayChecksum (data.get 0) >>> 8).toUInt8.toUInt32 >>> 5) := by
  have h0 : (dmrGolay20_8Encode data)[0] = data[0] := by simp [dmrGolay20_8Encode]
  have h1 : (dmrGolay20_8Encode data)[1] = (golayChecksum data[0]).toUInt8 := by
    simp [dmrGolay20_8Encode]
  have h2 : (dmrGolay20_8Encode data)[2] = (golayChecksum data[0] >>> 8).toUInt8 := by
    simp [dmrGolay20_8Encode]
  simp [golayCode, h0, h1, h2]

/-- It is a multiple of the generator. -/
theorem dmrGolay20_8Syndrome_encode (data : Vector UInt8 3) :
    dmrGolay20_8Syndrome (golayCode (dmrGolay20_8Encode data)) = some 0 := by
  have hall : ∀ v : BitVec 8, dmrGolay20_8Syndrome
      (((UInt8.ofBitVec v).toUInt32 <<< 11) |||
        ((golayChecksum (UInt8.ofBitVec v)).toUInt8.toUInt32 <<< 3) |||
        ((golayChecksum (UInt8.ofBitVec v) >>> 8).toUInt8.toUInt32 >>> 5)) = some 0 := by
    decide +kernel
  rw [golayCode_encode]
  exact hall data[0].toBitVec

/-! ## The table -/

/-- The syndrome of a word with one bit set. -/
def golayUnit (n : Nat) : Nat :=
  [0x001, 0x002, 0x004, 0x008, 0x010, 0x020, 0x040, 0x080, 0x100, 0x200, 0x400,
    0x475, 0x49f, 0x54b, 0x6e3, 0x1b3, 0x366, 0x6cc, 0x1ed].getD n 0

/-- The syndrome of a word, as a number. -/
def golaySyndrome (e : Nat) : Nat := ((dmrGolay20_8Syndrome (UInt32.ofNat e)).getD 0).toNat

theorem golaySyndrome_unit (n : Fin 19) : golaySyndrome (2 ^ n.val) = golayUnit n := by
  revert n
  decide +kernel

theorem golaySyndrome_xor {a b : Nat} (ha : a < 2 ^ 23) (hb : b < 2 ^ 23) :
    golaySyndrome (a ^^^ b) = golaySyndrome a ^^^ golaySyndrome b := by
  have hword : ∀ n < 2 ^ 23, (UInt32.ofNat n).toNat = n := fun n hn =>
    UInt32.toNat_ofNat_of_lt' (hn.trans (by decide))
  have hxor : UInt32.ofNat (a ^^^ b) = UInt32.ofNat a ^^^ UInt32.ofNat b := by
    refine UInt32.toNat_inj.mp ?_
    rw [UInt32.toNat_xor, hword a ha, hword b hb, hword _ (Nat.xor_lt_two_pow ha hb)]
  have ha' : (UInt32.ofNat a).toNat < 2 ^ 23 := by rwa [hword a ha]
  have hb' : (UInt32.ofNat b).toNat < 2 ^ 23 := by rwa [hword b hb]
  obtain ⟨s, hs, -⟩ := dmrGolay20_8Syndrome_spec ha'
  obtain ⟨t, ht, -⟩ := dmrGolay20_8Syndrome_spec hb'
  rw [golaySyndrome, golaySyndrome, golaySyndrome, hxor, dmrGolay20_8Syndrome_xor ha' hb' hs ht, hs,
    ht]
  exact UInt32.toNat_xor s t

theorem additive_golaySyndrome : Additive (· ^^^ ·) golayUnit 19 golaySyndrome where
  step k hk e he := by
    have hpow : 2 ^ k < 2 ^ 19 := Nat.pow_lt_pow_right Nat.one_lt_two hk
    rw [two_pow_add_eq_xor he, golaySyndrome_xor (hpow.trans (by decide))
      (he.trans (hpow.trans (by decide))), golaySyndrome_unit ⟨k, hk⟩]

/-- Up to three errors in the first nineteen bits are found in the table. -/
theorem golayPattern_golaySyndrome {e : Nat} (he : e < 2 ^ 19) (hweight : weight 19 e ≤ 3) :
    golayPattern (UInt32.ofNat (golaySyndrome e)) = some (UInt32.ofNat e) := by
  have htable : ∀ p ∈ errors (· ^^^ ·) (golaySyndrome 0) golayUnit 19 3,
      golayPattern (UInt32.ofNat p.2) = some (UInt32.ofNat p.1) := by
    decide +kernel
  have hmem := mem_errors additive_golaySyndrome he hweight
  exact htable (e, golaySyndrome e) hmem

/-! ## The decoder -/

/-- The byte is in the highest bits. -/
theorem golayCode_shiftRight (data : Vector UInt8 3) :
    (golayCode data >>> 11).toUInt8 = data.get 0 := by
  have h0 := data[0].toNat_lt
  have h1 := data[1].toNat_lt
  have h2 := data[2].toNat_lt
  refine UInt8.toNat_inj.mp ?_
  rw [UInt32.toNat_toUInt8, UInt32.toNat_shiftRight]
  show (golayCode data).toNat >>> 11 % 2 ^ 8 = _
  have hlow1 : data[1].toNat <<< 3 >>> 11 = 0 := by
    rw [Nat.shiftLeft_eq, Nat.shiftRight_eq_div_pow]
    omega
  have hlow2 : data[2].toNat >>> 5 >>> 11 = 0 := by
    rw [Nat.shiftRight_eq_div_pow, Nat.shiftRight_eq_div_pow]
    omega
  rw [toNat_golayCode, Nat.shiftRight_or_distrib, Nat.shiftRight_or_distrib, hlow1, hlow2,
    Nat.or_zero, Nat.or_zero, Nat.shiftLeft_shiftRight]
  exact Nat.mod_eq_of_lt h0

/-- The table holds the difference to an encoded word that is near. -/
theorem golayPattern_near (data : Vector UInt8 3) {word : UInt32} (hword : word.toNat < 2 ^ 19)
    (hweight : weight 19 (word.toNat ^^^ (golayCode (dmrGolay20_8Encode data)).toNat) ≤ 3) :
    ∃ s, dmrGolay20_8Syndrome word = some s ∧
      golayPattern s = some (word ^^^ golayCode (dmrGolay20_8Encode data)) := by
  have hsent := golayCode_lt (dmrGolay20_8Encode data)
  have hpattern := golayPattern_golaySyndrome (Nat.xor_lt_two_pow hword hsent) hweight
  -- the error, as a word
  have herror : UInt32.ofNat (word.toNat ^^^ (golayCode (dmrGolay20_8Encode data)).toNat) =
      word ^^^ golayCode (dmrGolay20_8Encode data) := by
    rw [← UInt32.toNat_xor, UInt32.ofNat_toNat]
  obtain ⟨s, hs, -⟩ := dmrGolay20_8Syndrome_spec (hword.trans (by decide))
  have hsyndrome : dmrGolay20_8Syndrome (word ^^^ golayCode (dmrGolay20_8Encode data)) =
      some s := by
    rw [dmrGolay20_8Syndrome_xor (hword.trans (by decide)) (hsent.trans (by decide)) hs
      (dmrGolay20_8Syndrome_encode data), UInt32.xor_zero]
  rw [golaySyndrome, herror, hsyndrome, Option.getD_some, UInt32.ofNat_toNat] at hpattern
  exact ⟨s, hs, hpattern⟩

theorem dmrGolay20_8Decode_near (data received : Vector UInt8 3)
    (h : hammingDist (golayBits received) (golayBits (dmrGolay20_8Encode data)) ≤ 3) :
    dmrGolay20_8Decode received = some data[0] := by
  obtain ⟨s, hs, hpattern⟩ := golayPattern_near data (golayCode_lt received)
    (by rwa [weight_golayCode])
  have hdecode : dmrGolay20_8Decode received = some
      ((if golayCode received ^^^ golayCode (dmrGolay20_8Encode data) ≠ 0 then
        golayCode received ^^^ (golayCode received ^^^ golayCode (dmrGolay20_8Encode data))
      else golayCode received) >>> 11).toUInt8 := by
    show ((dmrGolay20_8Syndrome (golayCode received)).bind fun s => (golayPattern s).bind _) = _
    rw [hs, Option.bind_some, hpattern]
    rfl
  have hcode : (if golayCode received ^^^ golayCode (dmrGolay20_8Encode data) ≠ 0 then
      golayCode received ^^^ (golayCode received ^^^ golayCode (dmrGolay20_8Encode data))
    else golayCode received) = golayCode (dmrGolay20_8Encode data) := by
    split
    · rw [← UInt32.xor_assoc, UInt32.xor_self, UInt32.zero_xor]
    · next hzero => exact UInt32.xor_eq_zero_iff.mp (not_not.mp hzero)
  rw [hdecode, hcode, golayCode_shiftRight]
  simp [dmrGolay20_8Encode]

/-- **Golay(20,8).** Up to three wrong bits among the first nineteen are corrected, whatever
the last bit and the unused ones are. The syndrome is found for every word of 23 bits, is
additive, and vanishes on what the encoder writes. -/
theorem dmrGolay20_8_corrects :
    (∀ data received : Vector UInt8 3,
      hammingDist (golayBits received) (golayBits (dmrGolay20_8Encode data)) ≤ 3 →
        dmrGolay20_8Decode received = some (data.get 0)) ∧
    (∀ word : UInt32, word < 2 ^ 23 →
      ∃ s, dmrGolay20_8Syndrome word = some s ∧ s < 2048) ∧
    (∀ a b : UInt32, a < 2 ^ 23 → b < 2 ^ 23 →
      dmrGolay20_8Syndrome (a ^^^ b) =
        (dmrGolay20_8Syndrome a).bind fun s => (dmrGolay20_8Syndrome b).map (s ^^^ ·)) ∧
    ∀ data : Vector UInt8 3,
      dmrGolay20_8Syndrome (golayCode (dmrGolay20_8Encode data)) = some 0 := by
  refine ⟨dmrGolay20_8Decode_near, fun word hword => ?_, fun a b ha hb => ?_,
    dmrGolay20_8Syndrome_encode⟩
  · obtain ⟨s, hs, hlt, -⟩ := dmrGolay20_8Syndrome_spec (UInt32.lt_iff_toNat_lt.mp hword)
    exact ⟨s, hs, UInt32.lt_iff_toNat_lt.mpr hlt⟩
  · have ha' := UInt32.lt_iff_toNat_lt.mp ha
    have hb' := UInt32.lt_iff_toNat_lt.mp hb
    obtain ⟨s, hs, -⟩ := dmrGolay20_8Syndrome_spec ha'
    obtain ⟨t, ht, -⟩ := dmrGolay20_8Syndrome_spec hb'
    rw [dmrGolay20_8Syndrome_xor ha' hb' hs ht, hs, ht]
    rfl

end Dmrlib
