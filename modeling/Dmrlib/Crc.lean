import Dmrlib.Bits
import Dmrlib.Lib.Distance
import Dmrlib.Lib.ShiftRegister

/-!
# Cyclic redundancy checks (`src/dmr/crc.c`)

The checksums are computed a bit at a time, in registers of 9, 16 and 32 bits that
`dmr_crc*_finish` clears at the end. `dmr_crc16` and `dmr_crc32` feed the bits of a byte into
the register (`toNat_crcByte`), which so holds the remainder of the message.
But both `finish` functions feed eight zeros, as many as `dmr_data_block_decode` asks of
`dmr_crc9_finish`, whatever the register's width: the checksum is the remainder of the message
times `X ^ 8`, and the standard one only for few messages (`crc_remainder_iff`). As an error
check it is none the worse (`crc_burst`).

- `crcByte`, `crcFinish`: what `dmr_crc16` and `dmr_crc32` do to a register of any width, with
  the generator for a parameter.
- `dmrCrc9`, `dmrCrc9Finish`: the checksum of nine bits, which feeds its message in another way.
- `crc16`, `crc32`: the checksum of a whole message, as a caller gets it.
- `crc_remainder_iff`: the messages whose checksum is the standard one.
- `DifferInBurst`, `crc_burst`: two messages that differ in a burst no longer than the register
  have different checksums.
-/

namespace Dmrlib

open Loop ShiftRegister BitPolynomial Polynomial

/-! ## The registers -/

section Register

variable {w : Nat} (poly : BitVec w)

/-- A round of `dmr_crc16` and of `dmr_crc32`; `v` picks the bit of the byte. -/
def crcRound (byte : UInt8) : BitVec w × UInt8 → BitVec w × UInt8
  | (crc, v) =>
    let xor := crc.msb
    let crc := crc <<< 1
    let crc := if byte &&& v > 0 then crc + 1 else crc
    let crc := if xor then crc ^^^ poly else crc
    (crc, v >>> 1)

/-- What `dmr_crc16` and `dmr_crc32` share. -/
def crcByte (crc : BitVec w) (byte : UInt8) : BitVec w :=
  (forLoop 8 (fun _ => crcRound poly byte) (crc, 0x80)).1

/-- A round of the functions that clear the register. -/
def crcFinishRound (crc : BitVec w) : BitVec w :=
  let xor := crc.msb
  let crc := crc <<< 1
  if xor then crc ^^^ poly else crc

/-- What `dmr_crc16_finish` and `dmr_crc32_finish` share. -/
def crcFinish (crc : BitVec w) : BitVec w := forLoop 8 (fun _ => crcFinishRound poly) crc

end Register

/-- `dmr_crc16` -/
def dmrCrc16 (crc : UInt16) (byte : UInt8) : UInt16 := ⟨crcByte 0x1021#16 crc.toBitVec byte⟩

/-- `dmr_crc16_finish` -/
def dmrCrc16Finish (crc : UInt16) : UInt16 := ⟨crcFinish 0x1021#16 crc.toBitVec⟩

/-- `dmr_crc32` -/
def dmrCrc32 (crc : UInt32) (byte : UInt8) : UInt32 := ⟨crcByte 0x04c11db7#32 crc.toBitVec byte⟩

/-- `dmr_crc32_finish` -/
def dmrCrc32Finish (crc : UInt32) : UInt32 := ⟨crcFinish 0x04c11db7#32 crc.toBitVec⟩

/-- A round of `dmr_crc9`, whose register is the lower nine of sixteen bits. -/
def crc9Round (byte : UInt8) : UInt16 × UInt8 → UInt16 × UInt8
  | (crc, v) =>
    let xor := crc &&& 0x0100 = 0x0100
    let crc := (crc <<< 1) &&& 0x01ff
    let crc := if byte &&& v ≠ 0 then crc + 1 else crc
    let crc := if xor then crc ^^^ 0x59 else crc
    (crc, v >>> 1)

/-- `dmr_crc9`: the bit that the rounds begin with is shifted by `bitlen`, and there are always
eight rounds. -/
def dmrCrc9 (crc : UInt16) (byte bitlen : UInt8) : UInt16 :=
  let v := forLoop bitlen.toNat (fun _ (v : UInt8) => v >>> 1) 0x80
  (forLoop 8 (fun _ => crc9Round byte) (crc, v)).1

/-- A round of `dmr_crc9_finish`. -/
def crc9FinishRound (crc : UInt16) : UInt16 :=
  let xor := crc &&& 0x0100 = 0x0100
  let crc := (crc <<< 1) &&& 0x01ff
  if xor then crc ^^^ 0x59 else crc

/-- `dmr_crc9_finish` -/
def dmrCrc9Finish (crc : UInt16) (bitlen : UInt8) : UInt16 :=
  forLoop bitlen.toNat (fun _ => crc9FinishRound) crc

/-! ## A byte is eight bits fed -/

section Feed

variable {w : Nat} (poly : BitVec w) (hw : 0 < w)

include hw

/-- A round is a bit fed. -/
theorem toNat_crcShift (crc : BitVec w) (bit : Bool) :
    (if crc.msb then ((if bit then crc <<< 1 + 1 else crc <<< 1) ^^^ poly)
      else if bit then crc <<< 1 + 1 else crc <<< 1).toNat =
        feed w (2 ^ w + poly.toNat) crc.toNat bit := by
  have hlt := crc.isLt
  have hpow : 2 ^ w = 2 * 2 ^ (w - 1) := by
    rw [← Nat.pow_succ', Nat.succ_eq_add_one, Nat.sub_add_cancel hw]
  have hshift : (if bit then crc <<< 1 + 1 else crc <<< 1).toNat =
      (2 * crc.toNat + bit.toNat) % 2 ^ w := by
    have hdouble : (crc <<< 1).toNat = 2 * crc.toNat % 2 ^ w := by
      rw [BitVec.toNat_shiftLeft, Nat.shiftLeft_eq, Nat.mul_comm]
    have hone : (1 : BitVec w).toNat = 1 := BitVec.toNat_one hw
    cases bit with
    | false => exact hdouble
    | true =>
      rw [if_pos rfl, BitVec.toNat_add, hdouble, hone, Nat.mod_add_mod]
      rfl
  have hbit := bit.toNat_lt
  unfold feed
  -- the bit that leaves the register is taken off with the rest of the generator
  cases htop : crc.msb with
  | false =>
    rw [BitVec.msb_eq_false_iff_two_mul_lt] at htop
    have hsmall : 2 * crc.toNat + bit.toNat < 2 ^ w := by omega
    rw [if_neg Bool.false_ne_true, hshift, Nat.mod_eq_of_lt hsmall,
      Nat.testBit_lt_two_pow hsmall, if_neg Bool.false_ne_true]
  | true =>
    rw [BitVec.msb_eq_true_iff_two_mul_ge] at htop
    obtain ⟨low, hlow⟩ := Nat.exists_eq_add_of_le (show 2 ^ w ≤ 2 * crc.toNat + bit.toNat by omega)
    have hsmall : low < 2 ^ w := by omega
    rw [if_pos rfl, BitVec.toNat_xor, hshift, hlow, Nat.add_mod_left, Nat.mod_eq_of_lt hsmall,
      Nat.testBit_two_pow_add_eq, Nat.testBit_lt_two_pow hsmall, Bool.not_false, if_pos rfl,
      Distance.two_pow_add_eq_xor hsmall, Distance.two_pow_add_eq_xor poly.isLt,
      Nat.xor_comm (2 ^ w) low, Nat.xor_assoc, ← Nat.xor_assoc (2 ^ w), Nat.xor_self, Nat.zero_xor]

theorem crcRound_spec (byte : UInt8) (crc : BitVec w) (v : UInt8) :
    (crcRound poly byte (crc, v)).1.toNat =
      feed w (2 ^ w + poly.toNat) crc.toNat (decide (byte &&& v > 0)) ∧
      (crcRound poly byte (crc, v)).2 = v >>> 1 := by
  refine ⟨?_, rfl⟩
  rw [← toNat_crcShift poly hw]
  simp only [crcRound, decide_eq_true_eq]

theorem toNat_crcByte (crc : BitVec w) (byte : UInt8) :
    (crcByte poly crc byte).toNat =
      run w (2 ^ w + poly.toNat) (dmrByteToBits byte).toList crc.toNat := by
  have hloop := forLoop_inv (f := fun _ : Fin 8 => crcRound poly byte) (s := (crc, 0x80))
    (fun i s => s.1.toNat =
      run w (2 ^ w + poly.toNat) ((dmrByteToBits byte).toList.take i) crc.toNat ∧
        s.2 = UInt8.ofNat (128 / 2 ^ i)) ⟨rfl, rfl⟩ ?_
  · rw [List.take_of_length_le (by simp)] at hloop
    exact hloop.1
  · rintro i ⟨c, v⟩ ⟨hc, rfl⟩
    obtain ⟨hcrc, hnext⟩ := crcRound_spec poly hw byte c (UInt8.ofNat (128 / 2 ^ i.val))
    have hbit : decide (byte &&& UInt8.ofNat (128 / 2 ^ i.val) > 0) = (dmrByteToBits byte)[i] := by
      fin_cases i <;> rfl
    have htake : (dmrByteToBits byte).toList.take (i.val + 1) =
        (dmrByteToBits byte).toList.take i.val ++ [(dmrByteToBits byte)[i]] := by
      rw [List.take_succ_eq_append_getElem (by simp)]
      rfl
    refine ⟨?_, ?_⟩
    · rw [hcrc, htake, hbit, run_concat]
      exact congrArg (fun r => feed _ _ r _) hc
    · rw [hnext]
      fin_cases i <;> rfl

theorem toNat_crcFinish (crc : BitVec w) :
    (crcFinish poly crc).toNat =
      run w (2 ^ w + poly.toNat) (List.replicate 8 false) crc.toNat := by
  refine forLoop_inv (fun i (c : BitVec w) => c.toNat =
    run w (2 ^ w + poly.toNat) (List.replicate i false) crc.toNat) rfl fun i c hc => ?_
  rw [List.replicate_succ', run_concat, ← hc, ← toNat_crcShift poly hw]
  simp only [crcFinishRound, Bool.false_eq_true, if_false]

end Feed

/-! ## Checksums -/

/-- The bits of a byte string, most significant bit first. -/
def messageBits (m : List UInt8) : List Bool := m.flatMap fun byte => (dmrByteToBits byte).toList

/-- A byte string fed to `dmr_crc16`, and `dmr_crc16_finish`. -/
def crc16 (m : List UInt8) : UInt16 := dmrCrc16Finish (m.foldl dmrCrc16 0)

/-- A byte string fed to `dmr_crc32`, and `dmr_crc32_finish`. -/
def crc32 (m : List UInt8) : UInt32 := dmrCrc32Finish (m.foldl dmrCrc32 0)

theorem generator_crc16 : Generator (16 + 1) 16 (2 ^ 16 + 0x1021) :=
  ⟨by decide, by decide, by decide⟩

theorem generator_crc32 : Generator (32 + 1) 32 (2 ^ 32 + 0x04c11db7) :=
  ⟨by decide, by decide, by decide⟩

/-- Bytes fed one after the other are their bits fed. -/
theorem foldl_eq_run {σ : Type} (φ : σ → Nat) {k g : Nat} {f : σ → UInt8 → σ}
    (hf : ∀ crc byte, φ (f crc byte) = run k g (dmrByteToBits byte).toList (φ crc))
    (m : List UInt8) (crc : σ) : φ (m.foldl f crc) = run k g (messageBits m) (φ crc) := by
  induction m generalizing crc with
  | nil => rfl
  | cons byte m ih =>
    rw [List.foldl_cons, ih, hf, ← run_append]
    rfl

theorem toNat_crc16 (m : List UInt8) :
    (crc16 m).toNat = run 16 (2 ^ 16 + 0x1021) (messageBits m ++ List.replicate 8 false) 0 := by
  have hbytes := foldl_eq_run UInt16.toNat (f := dmrCrc16)
    (fun crc byte => toNat_crcByte 0x1021#16 (by decide) crc.toBitVec byte) m 0
  rw [run_append]
  exact (toNat_crcFinish 0x1021#16 (by decide) _).trans (congrArg _ hbytes)

theorem toNat_crc32 (m : List UInt8) :
    (crc32 m).toNat = run 32 (2 ^ 32 + 0x04c11db7) (messageBits m ++ List.replicate 8 false) 0 := by
  have hbytes := foldl_eq_run UInt32.toNat (f := dmrCrc32)
    (fun crc byte => toNat_crcByte 0x04c11db7#32 (by decide) crc.toBitVec byte) m 0
  rw [run_append]
  exact (toNat_crcFinish 0x04c11db7#32 (by decide) _).trans (congrArg _ hbytes)

/-! ## The remainder -/

/-- The polynomial of a byte string. -/
noncomputable def messagePoly (m : List UInt8) : Bool[X] := message (messageBits m)

/-- The CCITT polynomial. -/
noncomputable def ccittPoly : Bool[X] := X ^ 16 + X ^ 12 + X ^ 5 + 1

/-- What is left of it without the factor `X + 1`. -/
noncomputable def ccittFactor : Bool[X] :=
  X ^ 15 + X ^ 14 + X ^ 13 + X ^ 12 + X ^ 4 + X ^ 3 + X ^ 2 + X + 1

/-- The CRC-32 polynomial. -/
noncomputable def crc32Poly : Bool[X] := toPoly 33 0x104c11db7

theorem toPoly_ccitt : toPoly 17 (2 ^ 16 + 0x1021) = ccittPoly := by
  have hword : 2 ^ 16 + 0x1021 = 2 ^ 16 ^^^ 2 ^ 12 ^^^ 2 ^ 5 ^^^ 2 ^ 0 := by decide
  rw [hword, toPoly_xor, toPoly_xor, toPoly_xor, toPoly_two_pow (by decide),
    toPoly_two_pow (by decide), toPoly_two_pow (by decide), toPoly_two_pow (by decide), pow_zero]
  rfl

theorem ccittPoly_eq : ccittPoly = (X + 1) * ccittFactor := by
  have htwo : (2 : Bool[X]) = 0 := CharTwo.two_eq_zero
  unfold ccittPoly ccittFactor
  linear_combination -(X ^ 15 + X ^ 14 + X ^ 13 + X ^ 4 + X ^ 3 + X ^ 2 + X) * htwo

theorem isCoprime_ccittFactor : IsCoprime ccittFactor (X + 1) := by
  -- the value at 1
  have heval : ccittFactor.eval 1 = 1 := by
    simp only [ccittFactor, eval_add, eval_pow, eval_X, eval_one]
    decide
  obtain ⟨q, hq⟩ := X_sub_C_dvd_sub_C_eval (p := ccittFactor) (a := 1)
  have htwo : (2 : Bool[X]) = 0 := CharTwo.two_eq_zero
  rw [heval, C_1] at hq
  exact ⟨1, q, by linear_combination hq + q * (X : Bool[X]) * htwo⟩

theorem isCoprime_crc32Poly : IsCoprime crc32Poly (X ^ 24 + 1) := by
  have hgen : Generator (3 + 1) 3 0b1001 := ⟨by decide, by decide, by decide⟩
  have hrun : run 3 0b1001 (wordBits 33 0x104c11db7 ++ [false]) 0 = 1 := by decide +kernel
  have hcoprime := isCoprime_of_run hgen hrun
  have hpoly : toPoly (3 + 1) 0b1001 = X ^ 3 + 1 := by
    rw [show 0b1001 = 2 ^ 3 ^^^ 2 ^ 0 from rfl, toPoly_xor, toPoly_two_pow (by decide),
      toPoly_two_pow (by decide), pow_zero]
  rw [message_concat, message_wordBits, hpoly] at hcoprime
  have hzero : C false = (0 : Bool[X]) := C_0
  have hpow : (X ^ 24 + 1 : Bool[X]) = (X ^ 3 + 1) ^ 2 ^ 3 := by
    rw [add_pow_char_pow, one_pow, ← pow_mul]
    rfl
  rw [hzero, add_zero] at hcoprime
  rw [hpow]
  exact hcoprime.of_mul_left_left.pow_right

/-- What the 16 bit checksum is, and where it is the standard one. -/
theorem toPoly_crc16 (m : List UInt8) :
    toPoly 16 (crc16 m).toNat = (messagePoly m * X ^ 8) %ₘ ccittPoly := by
  have hlt := (crc16 m).toNat_lt
  rw [← toPoly_of_lt hlt (Nat.le_succ 16), toNat_crc16, toPoly_run_zero generator_crc16,
    message_append, message_replicate_false, add_zero, List.length_replicate, toPoly_ccitt]
  rfl

theorem toPoly_crc32 (m : List UInt8) :
    toPoly 32 (crc32 m).toNat = (messagePoly m * X ^ 8) %ₘ crc32Poly := by
  have hlt := (crc32 m).toNat_lt
  rw [← toPoly_of_lt hlt (Nat.le_succ 32), toNat_crc32, toPoly_run_zero generator_crc32,
    message_append, message_replicate_false, add_zero, List.length_replicate]
  rfl

theorem crc16_remainder_iff (m : List UInt8) :
    toPoly 16 (crc16 m).toNat = (messagePoly m * X ^ 16) %ₘ ccittPoly ↔
      ccittFactor ∣ messagePoly m := by
  have hmonic : ccittPoly.Monic := toPoly_ccitt ▸ generator_crc16.monic
  have hX : IsCoprime X ccittPoly := toPoly_ccitt ▸ isCoprime_X (by decide) 16
  rw [toPoly_crc16, modByMonic_mul_X_pow_iff hmonic hX 8 8]
  have hpow : (X ^ 8 + 1 : Bool[X]) = (X + 1) * (X + 1) ^ 7 := by
    rw [← pow_succ', show 7 + 1 = 2 ^ 3 from rfl, add_pow_char_pow, one_pow]
    rfl
  have hcancel : (X + 1 : Bool[X]).Monic := monic_X_add_C 1
  rw [hpow, ccittPoly_eq, mul_left_comm, hcancel.isRegular.left.dvd_cancel_left]
  exact ⟨isCoprime_ccittFactor.pow_right.dvd_of_dvd_mul_right, fun hdvd => hdvd.mul_right _⟩

theorem crc32_remainder_iff (m : List UInt8) :
    toPoly 32 (crc32 m).toNat = (messagePoly m * X ^ 32) %ₘ crc32Poly ↔
      crc32Poly ∣ messagePoly m := by
  have hmonic : crc32Poly.Monic := generator_crc32.monic
  have hX : IsCoprime X crc32Poly := isCoprime_X (by decide) 32
  rw [toPoly_crc32, modByMonic_mul_X_pow_iff hmonic hX 8 24]
  exact ⟨isCoprime_crc32Poly.dvd_of_dvd_mul_right, fun hdvd => hdvd.mul_right _⟩

/-- **Remainders.** The checksums are those of the standard only for the messages whose
polynomials have almost the whole generator as a factor, or all of it. -/
theorem crc_remainder_iff (m : List UInt8) :
    (toPoly 16 (crc16 m).toNat = (messagePoly m * X ^ 16) %ₘ ccittPoly ↔
        ccittFactor ∣ messagePoly m) ∧
      (toPoly 32 (crc32 m).toNat = (messagePoly m * X ^ 32) %ₘ crc32Poly ↔
        crc32Poly ∣ messagePoly m) :=
  ⟨crc16_remainder_iff m, crc32_remainder_iff m⟩

/-- The byte 01: its 16 bit checksum is 0100 and should be 1021. -/
theorem not_crc_remainder :
    toPoly 16 (crc16 [1]).toNat ≠ (messagePoly [1] * X ^ 16) %ₘ ccittPoly := by
  intro hremainder
  have hrun := toPoly_run_zero generator_crc16 (messageBits [1] ++ List.replicate 16 false)
  rw [message_append, message_replicate_false, add_zero, List.length_replicate,
    toPoly_ccitt] at hrun
  have hsame := hremainder.trans hrun.symm
  rw [← toPoly_of_lt (crc16 [1]).toNat_lt (Nat.le_succ 16)] at hsame
  have hword := toPoly_injective (by decide +kernel) (by decide +kernel) hsame
  exact absurd hword (by decide +kernel)

/-! ## Bursts -/

/-- The strings differ, and only in some of `n` consecutive bits. -/
structure DifferInBurst (n : Nat) (m m' : List UInt8) : Prop where
  length_eq : m.length = m'.length
  ne : m ≠ m'
  burst : ∃ i, ∀ j, (messageBits m)[j]? ≠ (messageBits m')[j]? → i ≤ j ∧ j < i + n

theorem length_messageBits (m : List UInt8) : (messageBits m).length = 8 * m.length := by
  induction m with
  | nil => rfl
  | cons byte m ih =>
    rw [messageBits, List.flatMap_cons, List.length_append, Vector.length_toList]
    rw [messageBits] at ih
    rw [ih, List.length_cons]
    omega

theorem messageBits_injective : Function.Injective messageBits := by
  intro m
  induction m with
  | nil =>
    intro m' h
    have hlen := congrArg List.length h
    rw [length_messageBits, length_messageBits] at hlen
    have hnil : m'.length = 0 := by
      rw [List.length_nil] at hlen
      omega
    exact (List.eq_nil_of_length_eq_zero hnil).symm
  | cons byte m ih =>
    intro m' h
    cases m' with
    | nil => cases h
    | cons byte' m' =>
      obtain ⟨hbyte, hrest⟩ := List.append_inj h (by simp)
      have hbits := Vector.toList_inj.mp hbyte
      rw [ih hrest, byte_ext (a := byte) (b := byte') fun j => by rw [hbits]]

theorem DifferInBurst.run_ne {k g : Nat} {m m' : List UInt8} (h : DifferInBurst k m m')
    (hg : Generator (k + 1) k g) (hodd : g.testBit 0 = true) :
    run k g (messageBits m ++ List.replicate 8 false) 0 ≠
      run k g (messageBits m' ++ List.replicate 8 false) 0 := by
  obtain ⟨i, hi⟩ := h.burst
  have hlen : (messageBits m).length = (messageBits m').length := by
    rw [length_messageBits, length_messageBits, h.length_eq]
  refine run_ne_of_burst hg hodd (i := i) ?_ ?_ fun j hj => ?_
  · rw [List.length_append, List.length_append, hlen]
  · exact fun heq => h.ne (messageBits_injective (List.append_cancel_right heq))
  · refine hi j fun heq => hj ?_
    rw [List.getElem?_append, List.getElem?_append, hlen, heq]

/-- **Burst errors.** The checksums of two strings of one length are different if the strings
differ in a burst no longer than the register. -/
theorem crc_burst (m m' : List UInt8) :
    (DifferInBurst 16 m m' → crc16 m ≠ crc16 m') ∧
      (DifferInBurst 32 m m' → crc32 m ≠ crc32 m') := by
  refine ⟨fun h heq => ?_, fun h heq => ?_⟩
  · refine h.run_ne generator_crc16 (by decide) ?_
    rw [← toNat_crc16, ← toNat_crc16, heq]
  · refine h.run_ne generator_crc32 (by decide) ?_
    rw [← toNat_crc32, ← toNat_crc32, heq]

/-- A burst of 16 bits over three bytes, and one of 32 bits over five. -/
theorem crc_burst_bytes :
    crc16 [0x12, 0x34, 0x56, 0x78, 0x9a, 0xbc] ≠ crc16 [0x12, 0x0b, 0xf3, 0xb8, 0x9a, 0xbc] ∧
      crc32 [0x12, 0x34, 0x56, 0x78, 0x9a, 0xbc] ≠
        crc32 [0x12, 0x0b, 0xa9, 0xf9, 0x82, 0x7c] := by
  have hburst : ∀ (n : Nat) (m m' : List UInt8), m.length = 6 → m'.length = 6 →
      messageBits m ≠ messageBits m' →
      (∀ j < 48, (messageBits m)[j]? ≠ (messageBits m')[j]? → 10 ≤ j ∧ j < 10 + n) →
      DifferInBurst n m m' := by
    intro n m m' hm hm' hne hbits
    refine ⟨hm.trans hm'.symm, fun heq => hne (congrArg messageBits heq), 10, fun j hj => ?_⟩
    refine hbits j ?_ hj
    by_contra hge
    refine hj ?_
    rw [List.getElem?_eq_none (by rw [length_messageBits, hm]; omega),
      List.getElem?_eq_none (by rw [length_messageBits, hm']; omega)]
  constructor
  · exact (crc_burst _ _).1 (hburst 16 _ _ rfl rfl (by decide +kernel) (by decide +kernel))
  · exact (crc_burst _ _).2 (hburst 32 _ _ rfl rfl (by decide +kernel) (by decide +kernel))

end Dmrlib
