import Dmrlib.Fec.VbptcTransport
import Dmrlib.Payload.Emb

/-!
# Reading a fragment of embedded link control (`src/dmr/payload/emb.c`)

A fragment is 32 bits, from the low nibble of byte 14 of the packet to the high nibble of byte
18. The decoder puts the first sixteen together again; into the other two of its four bytes it
stores nothing.

- `fragmentBit`: a bit of a fragment of the matrix.
- `fragmentByteBit`: a bit of the bytes that the decoder returns.
- `FragmentRead`: they agree, and the fragment is null if it has no set bit.
- `fragmentRead_iff`: this is so exactly when the last two bytes were right before the call.
-/

namespace Dmrlib

open Loop DmrVbptc16_11

/-- `dmr_emb_null` -/
def dmrEmbNull (bytes : Vector UInt8 4) : Bool :=
  (List.finRange 4).all fun i => bytes[i] = 0

/-- The first nibble of a fragment shares its byte with the EMB. -/
theorem gather_first (p e a b : UInt8) :
    ((((p &&& (0xf0 : UInt8)) ||| (a >>> 4)) &&& (0x0f : UInt8) ||| (e <<< 4)) <<< 4) &&&
        (0xf0 : UInt8) ||| ((((a <<< 4) ||| (b >>> 4)) >>> 4) &&& (0x0f : UInt8)) = a := by
  refine UInt8.eq_of_toBitVec_eq ?_
  ext i hi
  interval_cases i <;> simp

/-- The others do not. -/
theorem gather_next (a b c : UInt8) :
    (((a <<< 4) ||| (b >>> 4)) <<< 4) &&& (0xf0 : UInt8) |||
      ((((b <<< 4) ||| (c >>> 4)) >>> 4) &&& (0x0f : UInt8)) = b := by
  refine UInt8.eq_of_toBitVec_eq ?_
  ext i hi
  interval_cases i <;> simp

/-- The EMB around the fragment does not matter. -/
theorem dmrEmbBytesDecode_scatter (packet : DmrPacket) (lcBytes : Vector UInt8 4)
    (embBytes : Vector UInt8 2) (bytes : Vector UInt8 4) (i : Fin 4) :
    (dmrEmbBytesDecode (scatterEmb (scatterFragment packet lcBytes) embBytes) bytes).2[i] =
      if i.val < 2 then lcBytes[i] else bytes[i] := by
  have h14 : (scatterEmb (scatterFragment packet lcBytes) embBytes)[14] =
      ((packet[14] &&& (0xf0 : UInt8)) ||| (lcBytes[0] >>> 4)) &&& (0x0f : UInt8) |||
        (embBytes[0] <<< 4) := by
    simp [scatterEmb, scatterFragment]
  have h15 : (scatterEmb (scatterFragment packet lcBytes) embBytes)[15] =
      (lcBytes[0] <<< 4) ||| (lcBytes[1] >>> 4) := by
    simp [scatterEmb, scatterFragment]
  have h16 : (scatterEmb (scatterFragment packet lcBytes) embBytes)[16] =
      (lcBytes[1] <<< 4) ||| (lcBytes[2] >>> 4) := by
    simp [scatterEmb, scatterFragment]
  rw [dmrEmbBytesDecode_getElem, h14, h15, h16]
  fin_cases i
  · exact gather_first _ _ _ _
  · exact gather_next _ _ _
  · rfl
  · rfl

/-! ## A fragment as a whole -/

/-- Bit `q` of four bytes. -/
def fragmentByteBit (bytes : Vector UInt8 4) (q : Fin 32) : Bool :=
  (dmrByteToBits bytes[q.val / 8])[q.val % 8]

/-- Bit `q` of a fragment, in the order of transmission. -/
def fragmentBit {rows : Nat} (v : DmrVbptc16_11 rows) (fragment : UInt8) (q : Fin 32) : Bool :=
  transmitted v.matrix (fragment.toNat * 32 + q.val)

theorem dmrEmbNull_iff (bytes : Vector UInt8 4) :
    dmrEmbNull bytes = true ↔ ∀ q, fragmentByteBit bytes q = false := by
  have hzero : ∀ j : Fin 8, (dmrByteToBits 0)[j] = false := by decide
  rw [dmrEmbNull, List.all_eq_true]
  constructor
  · intro h q
    have hbyte : bytes[q.val / 8] = 0 :=
      of_decide_eq_true (h ⟨q.val / 8, by omega⟩ (List.mem_finRange _))
    rw [fragmentByteBit, hbyte]
    exact hzero ⟨q.val % 8, Nat.mod_lt _ (by decide)⟩
  · intro h i _
    refine decide_eq_true (byte_ext fun j => ?_)
    have hbit := h ⟨8 * i + j, by omega⟩
    have hdiv : (8 * i.val + j.val) / 8 = i := by omega
    have hmod : (8 * i.val + j.val) % 8 = j := by omega
    simp only [fragmentByteBit, hdiv, hmod] at hbit
    exact hbit.trans (hzero j).symm

section Fragment

variable {rows : Nat} (v : DmrVbptc16_11 rows) (fragment : UInt8)

/-- What is decoded behind the encoder: the first half of the fragment, and the second half of
what was in the buffer. -/
theorem fragmentByteBit_decode (packet : DmrPacket) (emb : DmrEmb) (bytes : Vector UInt8 4)
    (hroom : 32 * (fragment.toNat + 1) ≤ 16 * rows) (q : Fin 32) :
    fragmentByteBit (dmrEmbBytesDecode
      (dmrEmbLcssFragmentEncode packet emb (some v) fragment).2 bytes).2 q =
        if q.val < 16 then fragmentBit v fragment q else fragmentByteBit bytes q := by
  have hfit : fragment.toNat * 32 + 32 ≤ 16 * rows := by omega
  obtain ⟨bits, hget, hbits⟩ := getFragment_spec v (Vector.replicate 32 false) hfit
  have hencode : (dmrEmbLcssFragmentEncode packet emb (some v) fragment).2 =
      scatterEmb (scatterFragment packet (dmrBitsToBytes bits (Vector.replicate 4 0)))
        (dmrQr16_7Encode #v[embByte emb, 0]) := by
    unfold dmrEmbLcssFragmentEncode
    simp only [hget, ne_eq, not_true, if_false]
    rfl
  have hbyte := dmrEmbBytesDecode_scatter packet (dmrBitsToBytes bits (Vector.replicate 4 0))
    (dmrQr16_7Encode #v[embByte emb, 0]) bytes ⟨q.val / 8, by omega⟩
  simp only [Fin.getElem_fin] at hbyte
  rw [fragmentByteBit, hencode, hbyte]
  by_cases hq : q.val < 16
  · have hpacked := dmrByteToBits_dmrBitsToByte (fun j => bits[q.val / 8 * 8 + j.val])
      ⟨q.val % 8, Nat.mod_lt _ (by decide)⟩
    simp only [Fin.getElem_fin, Nat.div_add_mod'] at hpacked
    rw [if_pos hq, if_pos (by omega), dmrBitsToBytes_getElem _ _ (by omega) (by omega), hpacked]
    exact hbits q.val q.isLt
  · rw [if_neg hq, if_neg (by omega)]
    rfl

/-- The four bytes are the fragment, and count as null if it has no bit set. -/
def FragmentRead (packet : DmrPacket) (emb : DmrEmb) (bytes : Vector UInt8 4) : Prop :=
  let out := (dmrEmbBytesDecode
    (dmrEmbLcssFragmentEncode packet emb (some v) fragment).2 bytes).2
  (∀ q, fragmentByteBit out q = fragmentBit v fragment q) ∧
    (dmrEmbNull out = true ↔ ∀ q, fragmentBit v fragment q = false)

/-- **Reading a fragment back.** It is read as a whole exactly when its second half was in the
buffer before. -/
theorem fragmentRead_iff (packet : DmrPacket) (emb : DmrEmb) (bytes : Vector UInt8 4)
    (hroom : 32 * (fragment.toNat + 1) ≤ 16 * rows) :
    FragmentRead v fragment packet emb bytes ↔
      ∀ q : Fin 32, 16 ≤ q.val → fragmentByteBit bytes q = fragmentBit v fragment q := by
  have hbit := fragmentByteBit_decode v fragment packet emb bytes hroom
  constructor
  · rintro ⟨hall, -⟩ q hq
    rw [← hall q, hbit, if_neg (Nat.not_lt.mpr hq)]
  · intro hsecond
    have hall : ∀ q, fragmentByteBit (dmrEmbBytesDecode
        (dmrEmbLcssFragmentEncode packet emb (some v) fragment).2 bytes).2 q =
          fragmentBit v fragment q := by
      intro q
      rw [hbit]
      split
      · rfl
      · next hq => exact hsecond q (Nat.not_lt.mp hq)
    refine ⟨hall, ?_⟩
    rw [dmrEmbNull_iff]
    simp only [hall]

end Fragment

/-- The third fragment of a matrix in which every third bit is set, read into a buffer that is not
clear. -/
theorem fragmentRead_iff_third :
    let v : DmrVbptc16_11 8 := ⟨Vector.ofFn fun i => decide (i.val % 3 = 0), 0, 0⟩
    let bytes : Vector UInt8 4 := #v[0x12, 0x34, 0x24, 0x92]
    FragmentRead v 2 (Vector.replicate 33 0xa5) ⟨5, true, DMR_EMB_LCSS_CONTINUATION, 0⟩ bytes ↔
      ∀ q : Fin 32, 16 ≤ q.val → fragmentByteBit bytes q = fragmentBit v 2 q := by
  intro v bytes
  exact fragmentRead_iff v 2 _ _ bytes (by decide)

/-- An empty fragment, read into a buffer that is not clear. -/
theorem not_fragmentRead_stale :
    ¬ FragmentRead (⟨Vector.replicate _ false, 0, 0⟩ : DmrVbptc16_11 2) 0 (Vector.replicate 33 0)
      ⟨1, false, DMR_EMB_LCSS_SINGLE_FRAGMENT, 0⟩ #v[0, 0, 0x80, 0] := by
  rintro ⟨hbits, -⟩
  have h16 := hbits 16
  rw [fragmentByteBit_decode _ _ _ _ _ (by decide)] at h16
  exact absurd h16 (by decide)

end Dmrlib
