import Dmrlib.Payload.Emb
import Dmrlib.Payload.Lc

/-!
# Embedded link control (`src/dmr/payload/emb.c`)

The nine octets of a link control are unpacked into 72 bits and summed up to a checksum of
five. The length that is passed on for the octets is the `sizeof` of a pointer, so as many
octets are unpacked as an address has bytes; and a checksum bit is set when what is left of
the sum after a shift is not zero, rather than when its last bit is set.

The octets come from a `dmr_lc`, or from a `dmr_full_lc` through the encoder that also marks a
private call with a flag.

- `dmrEmbEncodeSignallingLc`, `dmrEmbEncodeSignallingLcFromFullLc`: the two encoders, with the
  size of a pointer for a parameter.
- `octetSum`: the sum that the checksum is taken of.
- `EncodesOctets`: the bits and the checksum are those of the octets.
- `Encodable`, `encodesOctets_iff`: the condition under which they are.
- `SameCall`, `signallingLc_agree_iff`: the calls that both encoders send alike.
-/

namespace Dmrlib

open Loop

/-- `dmr_lc` -/
structure DmrLc where
  flco : DmrFlco
  dstId : DmrId
  srcId : DmrId

/-- `dmr_emb_signalling_lc_bits` -/
structure DmrEmbSignallingLcBits where
  bits : Vector Bool 72
  checksum : Vector Bool 5

/-! ## Unpacking with other lengths -/

/-- A round of `dmr_bytes_to_bits`. `none` is an access behind the end of an array. -/
def unpackByte {n m : Nat} (bytes : Vector UInt8 n) (i : Nat) (bits : Vector Bool m) :
    Option (Vector Bool m) :=
  if h : i < n ∧ i * 8 + 7 < m then
    some (forLoop 8 (fun j bits =>
      bits.set (i * 8 + j) ((dmrByteToBits bytes[i]).get j)) bits)
  else none

/-- `dmr_bytes_to_bits` on arrays whose lengths need not be the ones it is given. -/
def dmrBytesToBitsOfLength {n m : Nat} (bytes : Vector UInt8 n) (bytesLength : Nat)
    (bits : Vector Bool m) (bitsLength : Nat) : Option (Vector Bool m) :=
  tryLoop (min (bitsLength / 8) bytesLength) (fun i bits => unpackByte bytes i bits) bits

/-- As many bytes are unpacked as it is told. -/
theorem dmrBytesToBitsOfLength_spec {n m k : Nat} (bytes : Vector UInt8 n) (bits : Vector Bool m)
    (hn : k ≤ n) (hm : 8 * k ≤ m) :
    ∃ out, dmrBytesToBitsOfLength bytes k bits (k * 8) = some out ∧
      ∀ (i : Nat) (hi : i < n) (j : Fin 8) (hq : i * 8 + j.val < m),
        out[i * 8 + j.val] =
          if i < k then bytes[i].toBitVec.getMsbD j else bits[i * 8 + j.val] := by
  have hcount : min (k * 8 / 8) k = k := by omega
  unfold dmrBytesToBitsOfLength
  rw [hcount]
  refine tryLoop_inv (fun l (out : Vector Bool m) =>
    ∀ (i : Nat) (hi : i < n) (j : Fin 8) (hq : i * 8 + j.val < m), out[i * 8 + j.val] =
      if i < l then bytes[i].toBitVec.getMsbD j else bits[i * 8 + j.val])
    (fun i _ _ _ => (if_neg (Nat.not_lt_zero i)).symm) fun l out hout => ?_
  refine ⟨_, dif_pos ⟨by omega, by omega⟩, fun i hi j hq => ?_⟩
  have hdiv : (i * 8 + j.val) / 8 = i := by omega
  have hmod : (i * 8 + j.val) % 8 = j.val := by omega
  refine (unpackByte_getElem _ out (by omega) hq).trans ?_
  simp only [hdiv, hmod]
  by_cases hnew : i = l.val
  · subst hnew
    rw [if_pos rfl, if_pos (Nat.lt_succ_self _)]
    exact dmrByteToBits_getElem bytes[l.val] j
  · have hiff : i < l.val + 1 ↔ i < l.val := by omega
    rw [if_neg hnew, hout i hi j hq]
    simp only [hiff]

theorem dmrBytesToBitsOfLength_eq_none {n m k : Nat} (bytes : Vector UInt8 n)
    (bits : Vector Bool m) (h : m < 8 * k) :
    dmrBytesToBitsOfLength bytes k bits (k * 8) = none := by
  refine tryLoop_eq_none (i := ⟨m / 8, by omega⟩) fun t => dif_neg fun hin => ?_
  have hlast : m / 8 * 8 + 7 < m := hin.2
  omega

/-! ## The encoders -/

/-- `checksum` -/
def signallingLcChecksum {n : Nat} (bytes : Vector UInt8 n) (hn : 9 ≤ n) : UInt16 :=
  forLoop 9 (fun i checksum => checksum + bytes[i.val].toUInt16) 0 % 31

/-- `dmr_emb_encode_signalling_lc_bytes`, where an address has `sizeofPtr` bytes: the return
value and the bits. -/
def dmrEmbEncodeSignallingLcBytes {n : Nat} (sizeofPtr : Nat) (bytes : Vector UInt8 n)
    (hn : 9 ≤ n) (embBits : DmrEmbSignallingLcBits) : Option (Int × DmrEmbSignallingLcBits) :=
  let checksum := forLoop 5 (fun i (checksum : Vector Bool 5) =>
    checksum.set i (signallingLcChecksum bytes hn >>> UInt16.ofNat (4 - i.val) > 0))
    embBits.checksum
  (dmrBytesToBitsOfLength bytes sizeofPtr embBits.bits (sizeofPtr * 8)).map fun bits =>
    (0, ⟨bits, checksum⟩)

/-- `dmr_emb_encode_signalling_lc_from_full_lc` -/
def dmrEmbEncodeSignallingLcFromFullLc (sizeofPtr : Nat) (lc : DmrFullLc)
    (embBits : DmrEmbSignallingLcBits) (dataType : DmrDataType) :
    Option (Int × DmrEmbSignallingLcBits) :=
  if dataType ≥ DMR_DATA_TYPE_INVALID then some (-1, embBits)
  else dmrEmbEncodeSignallingLcBytes sizeofPtr (dmrFullLcEncodeBytes lc) (by decide) embBits

/-- `bytes`, as `dmr_emb_encode_signalling_lc` fills it. -/
def lcBytes (lc : DmrLc) : Vector UInt8 9 :=
  #v[if lc.flco = DMR_FLCO_PRIVATE then 3 else 0, 0, 0,
    (lc.dstId >>> 16).toUInt8, (lc.dstId >>> 8).toUInt8, lc.dstId.toUInt8,
    (lc.srcId >>> 16).toUInt8, (lc.srcId >>> 8).toUInt8, lc.srcId.toUInt8]

/-- `dmr_emb_encode_signalling_lc` -/
def dmrEmbEncodeSignallingLc (sizeofPtr : Nat) (embBits : DmrEmbSignallingLcBits) (lc : DmrLc) :
    Option (Int × DmrEmbSignallingLcBits) :=
  dmrEmbEncodeSignallingLcBytes sizeofPtr (lcBytes lc) (le_refl 9) embBits

/-! ## What they write -/

/-- The sum of the octets, as it is transmitted. -/
def octetSum (octets : Fin 9 → UInt8) : Nat := (∑ i, (octets i).toNat) % 31

/-- What is left in `embBits`: the first octets, and those bits of the sum that are not
higher than its highest. -/
structure Written (sizeofPtr : Nat) (embBits : DmrEmbSignallingLcBits) (octets : Fin 9 → UInt8)
    (out : DmrEmbSignallingLcBits) : Prop where
  bits : ∀ (i : Fin 9) (j : Fin 8), out.bits[i.val * 8 + j.val] =
    if i.val < sizeofPtr then (octets i).toBitVec.getMsbD j else embBits.bits[i.val * 8 + j.val]
  checksum : ∀ i : Fin 5,
    getElem out.checksum i i.isLt = decide (0 < octetSum octets >>> (4 - i.val))

theorem toNat_signallingLcChecksum {n : Nat} (bytes : Vector UInt8 n) (hn : 9 ≤ n) :
    (signallingLcChecksum bytes hn).toNat = octetSum fun i => bytes[i.val] := by
  have hsum := forLoop_add_mod (φ := UInt16.toNat) rfl UInt16.toNat_add
    fun i : Fin 9 => bytes[i.val].toUInt16
  -- nine octets do not make the sum wrap around
  have hsmall : ∑ i : Fin 9, bytes[i.val].toUInt16.toNat < 2 ^ 16 := by
    refine (Finset.sum_le_card_nsmul _ _ 255 fun i _ => ?_).trans_lt
      (show 9 * 255 < 2 ^ 16 by decide)
    rw [UInt8.toNat_toUInt16]
    exact Nat.le_of_lt_succ bytes[i.val].toNat_lt
  rw [Nat.mod_eq_of_lt hsmall] at hsum
  rw [signallingLcChecksum, UInt16.toNat_mod, hsum]
  rfl

theorem dmrEmbEncodeSignallingLcBytes_spec {n sizeofPtr : Nat} (bytes : Vector UInt8 n)
    (hn : 9 ≤ n) (embBits : DmrEmbSignallingLcBits) (hptr : sizeofPtr ≤ 9) :
    ∃ out, dmrEmbEncodeSignallingLcBytes sizeofPtr bytes hn embBits = some (0, out) ∧
      Written sizeofPtr embBits (fun i => bytes[i.val]) out := by
  obtain ⟨bits, hloop, hbits⟩ := dmrBytesToBitsOfLength_spec bytes embBits.bits
    (show sizeofPtr ≤ n by omega) (by omega)
  have hshift : ∀ i : Fin 5, (UInt16.ofNat (4 - i.val)).toNat % 16 = 4 - i.val := by decide
  have hbit : ∀ i : Fin 5, signallingLcChecksum bytes hn >>> UInt16.ofNat (4 - i.val) > 0 ↔
      0 < octetSum (fun i => bytes[i.val]) >>> (4 - i.val) := by
    intro i
    rw [gt_iff_lt, UInt16.lt_iff_toNat_lt, UInt16.toNat_shiftRight, toNat_signallingLcChecksum,
      hshift, UInt16.toNat_zero]
  unfold dmrEmbEncodeSignallingLcBytes
  rw [hloop]
  refine ⟨_, rfl, fun i j => hbits i.val (by omega) j (by omega), fun i => ?_⟩
  have hset := forLoop_set Function.injective_id (fun i : Fin 5 => decide
    (signallingLcChecksum bytes hn >>> UInt16.ofNat (4 - i.val) > 0)) embBits.checksum i
  exact hset.trans (decide_eq_decide.mpr (hbit i))

/-- With addresses of more than nine bytes the bits do not fit. -/
theorem dmrEmbEncodeSignallingLcBytes_eq_none {n sizeofPtr : Nat} (bytes : Vector UInt8 n)
    (hn : 9 ≤ n) (embBits : DmrEmbSignallingLcBits) (hptr : ¬ sizeofPtr ≤ 9) :
    dmrEmbEncodeSignallingLcBytes sizeofPtr bytes hn embBits = none := by
  unfold dmrEmbEncodeSignallingLcBytes
  rw [dmrBytesToBitsOfLength_eq_none bytes embBits.bits (by omega)]
  rfl

/-! ## Right bits -/

/-- The 72 bits are those of the octets, and the others those of their sum. -/
structure EncodesOctets (octets : Fin 9 → UInt8) (out : DmrEmbSignallingLcBits) : Prop where
  bits : ∀ (i : Fin 9) (j : Fin 8), out.bits[i.val * 8 + j.val] = (octets i).toBitVec.getMsbD j
  checksum : ∀ i : Fin 5, getElem out.checksum i i.isLt = (octetSum octets).testBit (4 - i.val)

/-- The octets behind the unpacked ones are in place already, and below the highest bit of
their sum all bits are set. -/
structure Encodable (sizeofPtr : Nat) (embBits : DmrEmbSignallingLcBits)
    (octets : Fin 9 → UInt8) : Prop where
  pointer : sizeofPtr ≤ 9
  inPlace : ∀ (i : Fin 9) (j : Fin 8), sizeofPtr ≤ i.val →
    embBits.bits[i.val * 8 + j.val] = (octets i).toBitVec.getMsbD j
  checksum : octetSum octets ∈ [0, 1, 3, 7, 15]

/-- The shift and the comparison give the right bits for these sums. -/
theorem checksum_iff (octets : Fin 9 → UInt8) :
    (∀ i : Fin 5, decide (0 < octetSum octets >>> (4 - i.val)) =
      (octetSum octets).testBit (4 - i.val)) ↔ octetSum octets ∈ [0, 1, 3, 7, 15] := by
  have hall : ∀ s : Fin 31, (∀ i : Fin 5, decide (0 < s.val >>> (4 - i.val)) =
      s.val.testBit (4 - i.val)) ↔ s.val ∈ [0, 1, 3, 7, 15] := by
    decide
  exact hall ⟨octetSum octets, Nat.mod_lt _ (by decide)⟩

theorem Written.encodesOctets_iff_encodable {sizeofPtr : Nat} {embBits out : DmrEmbSignallingLcBits}
    {octets : Fin 9 → UInt8} (h : Written sizeofPtr embBits octets out) (hptr : sizeofPtr ≤ 9) :
    EncodesOctets octets out ↔ Encodable sizeofPtr embBits octets := by
  constructor
  · intro henc
    refine ⟨hptr, fun i j hi => ?_, (checksum_iff octets).mp fun i => ?_⟩
    · rw [← henc.bits, h.bits, if_neg (Nat.not_lt.mpr hi)]
    · rw [← h.checksum, henc.checksum]
  · intro henc
    refine ⟨fun i j => ?_, fun i => ?_⟩
    · rw [h.bits]
      split
      · rfl
      · next hi => exact henc.inPlace i j (Nat.not_lt.mp hi)
    · rw [h.checksum, (checksum_iff octets).mpr henc.checksum i]

/-- Octets that were unpacked are read back. -/
theorem Written.octet_eq {sizeofPtr : Nat} {embBits embBits' out : DmrEmbSignallingLcBits}
    {octets octets' : Fin 9 → UInt8} (h : Written sizeofPtr embBits octets out)
    (h' : Written sizeofPtr embBits' octets' out) {i : Fin 9} (hi : i.val < sizeofPtr) :
    octets i = octets' i := by
  refine byte_ext fun j => ?_
  have hbit := h.bits i j
  rw [h'.bits, if_pos hi, if_pos hi] at hbit
  rw [dmrByteToBits_getElem, dmrByteToBits_getElem, hbit]

/-- What is written depends on the octets and on what is not unpacked. -/
theorem Written.unique {sizeofPtr : Nat} {embBits embBits' out out' : DmrEmbSignallingLcBits}
    {octets : Fin 9 → UInt8} (h : Written sizeofPtr embBits octets out)
    (h' : Written sizeofPtr embBits' octets out')
    (hsame : ∀ (i : Fin 9) (j : Fin 8), sizeofPtr ≤ i.val →
      embBits.bits[i.val * 8 + j.val] = embBits'.bits[i.val * 8 + j.val]) : out = out' := by
  obtain ⟨bits, checksum⟩ := out
  obtain ⟨bits', checksum'⟩ := out'
  have hbits : bits = bits' := by
    refine Vector.ext fun q hq => ?_
    have hbit := h.bits ⟨q / 8, by omega⟩ ⟨q % 8, Nat.mod_lt q (by decide)⟩
    have hbit' := h'.bits ⟨q / 8, by omega⟩ ⟨q % 8, Nat.mod_lt q (by decide)⟩
    simp only [Nat.div_add_mod'] at hbit hbit'
    rw [hbit, hbit']
    split
    · rfl
    · next hi =>
      have hkept := hsame ⟨q / 8, by omega⟩ ⟨q % 8, Nat.mod_lt q (by decide)⟩ (Nat.not_lt.mp hi)
      simpa only [Nat.div_add_mod'] using hkept
  have hchecksum : checksum = checksum' := by
    refine Vector.ext fun i hi => ?_
    exact (h.checksum ⟨i, hi⟩).trans (h'.checksum ⟨i, hi⟩).symm
  rw [hbits, hchecksum]

theorem encodesOctets_bytes_iff {n : Nat} (sizeofPtr : Nat) (bytes : Vector UInt8 n) (hn : 9 ≤ n)
    (embBits : DmrEmbSignallingLcBits) :
    (∃ out, dmrEmbEncodeSignallingLcBytes sizeofPtr bytes hn embBits = some (0, out) ∧
      EncodesOctets (fun i => bytes[i.val]) out) ↔
        Encodable sizeofPtr embBits fun i => bytes[i.val] := by
  by_cases hptr : sizeofPtr ≤ 9
  · obtain ⟨out, hout, hwritten⟩ := dmrEmbEncodeSignallingLcBytes_spec bytes hn embBits hptr
    rw [← hwritten.encodesOctets_iff_encodable hptr, hout]
    simp only [Option.some.injEq, Prod.mk.injEq, true_and, exists_eq_left']
  · rw [dmrEmbEncodeSignallingLcBytes_eq_none bytes hn embBits hptr]
    exact iff_of_false (fun h => by simp at h) fun h => hptr h.pointer

/-- The octets of a link control. -/
def lcOctets (lc : DmrLc) (i : Fin 9) : UInt8 := (lcBytes lc).get i

/-- The octets of a full link control. -/
def fullLcOctets (lc : DmrFullLc) (i : Fin 9) : UInt8 :=
  (dmrFullLcEncodeBytes lc).get (i.castAdd 3)

theorem dmrEmbEncodeSignallingLc_spec {sizeofPtr : Nat} (hptr : sizeofPtr ≤ 9)
    (embBits : DmrEmbSignallingLcBits) (lc : DmrLc) :
    ∃ out, dmrEmbEncodeSignallingLc sizeofPtr embBits lc = some (0, out) ∧
      Written sizeofPtr embBits (lcOctets lc) out :=
  dmrEmbEncodeSignallingLcBytes_spec (lcBytes lc) (le_refl 9) embBits hptr

theorem dmrEmbEncodeSignallingLcFromFullLc_spec {sizeofPtr : Nat} (hptr : sizeofPtr ≤ 9)
    (lc : DmrFullLc) (embBits : DmrEmbSignallingLcBits) {dataType : DmrDataType}
    (ht : dataType < DMR_DATA_TYPE_INVALID) :
    ∃ out, dmrEmbEncodeSignallingLcFromFullLc sizeofPtr lc embBits dataType = some (0, out) ∧
      Written sizeofPtr embBits (fullLcOctets lc) out := by
  unfold dmrEmbEncodeSignallingLcFromFullLc
  rw [if_neg (UInt32.not_le.mpr ht)]
  exact dmrEmbEncodeSignallingLcBytes_spec (dmrFullLcEncodeBytes lc) (by decide) embBits hptr

/-- **The bits of a link control.** Both encoders write the octets and the binary expansion of
their sum exactly when the octets are `Encodable`: for no others does the mistake in the
length and the one in the checksum make no difference. -/
theorem encodesOctets_iff (sizeofPtr : Nat) (embBits : DmrEmbSignallingLcBits) (lc : DmrLc)
    (fullLc : DmrFullLc) {dataType : DmrDataType} (ht : dataType < DMR_DATA_TYPE_INVALID) :
    ((∃ out, dmrEmbEncodeSignallingLc sizeofPtr embBits lc = some (0, out) ∧
        EncodesOctets (lcOctets lc) out) ↔ Encodable sizeofPtr embBits (lcOctets lc)) ∧
      ((∃ out, dmrEmbEncodeSignallingLcFromFullLc sizeofPtr fullLc embBits dataType =
          some (0, out) ∧ EncodesOctets (fullLcOctets fullLc) out) ↔
        Encodable sizeofPtr embBits (fullLcOctets fullLc)) := by
  refine ⟨encodesOctets_bytes_iff sizeofPtr (lcBytes lc) _ embBits, ?_⟩
  unfold dmrEmbEncodeSignallingLcFromFullLc
  rw [if_neg (UInt32.not_le.mpr ht)]
  exact encodesOctets_bytes_iff sizeofPtr (dmrFullLcEncodeBytes fullLc) _ embBits

/-- No bit set. -/
def zeroBits : DmrEmbSignallingLcBits := ⟨Vector.replicate 72 false, Vector.replicate 5 false⟩

theorem encodesOctets_iff_groupCall :
    ((∃ out, dmrEmbEncodeSignallingLc 8 zeroBits ⟨DMR_FLCO_GROUP, 1, 0⟩ = some (0, out) ∧
        EncodesOctets (lcOctets ⟨DMR_FLCO_GROUP, 1, 0⟩) out) ↔
          Encodable 8 zeroBits (lcOctets ⟨DMR_FLCO_GROUP, 1, 0⟩)) ∧
      ((∃ out, dmrEmbEncodeSignallingLcFromFullLc 8
          ⟨DMR_FLCO_PDU_GROUP, false, false, 0, 0, 1, 0, #v[0, 0, 0]⟩ zeroBits
          DMR_DATA_TYPE_VOICE_LC = some (0, out) ∧
        EncodesOctets (fullLcOctets
          ⟨DMR_FLCO_PDU_GROUP, false, false, 0, 0, 1, 0, #v[0, 0, 0]⟩) out) ↔
        Encodable 8 zeroBits
          (fullLcOctets ⟨DMR_FLCO_PDU_GROUP, false, false, 0, 0, 1, 0, #v[0, 0, 0]⟩)) :=
  encodesOctets_iff 8 zeroBits _ _ (by decide)

/-- A call from station 2: the last octet is not unpacked, and 2 is sent as 3. -/
theorem not_encodesOctets_station :
    let lc : DmrLc := ⟨DMR_FLCO_GROUP, 0, 2⟩
    ¬ ∃ out, dmrEmbEncodeSignallingLc 8 zeroBits lc = some (0, out) ∧
      EncodesOctets (lcOctets lc) out := by
  intro lc hencodes
  have hpossible : Encodable 8 zeroBits (lcOctets lc) :=
    (encodesOctets_bytes_iff 8 (lcBytes lc) (le_refl 9) zeroBits).mp hencodes
  exact absurd hpossible.checksum (by decide)

/-! ## One call, two encoders -/

/-- The two link controls are about the same call. -/
structure SameCall (lc : DmrLc) (fullLc : DmrFullLc) : Prop where
  callType : lc.flco = DMR_FLCO_GROUP ∧ fullLc.flcoPdu = DMR_FLCO_PDU_GROUP ∨
    lc.flco = DMR_FLCO_PRIVATE ∧ fullLc.flcoPdu = DMR_FLCO_PDU_PRIVATE
  fid : fullLc.fid = 0
  dstId : fullLc.dstId = lc.dstId
  srcId : fullLc.srcId = lc.srcId

variable {lc : DmrLc} {fullLc : DmrFullLc}

/-- The octets before the parity. -/
theorem fullLcOctets_eq (lc : DmrFullLc) (i : Fin 9) :
    fullLcOctets lc i = getElem (#v[lc.flcoPdu.toUInt8 |||
        (if lc.flcoPdu = DMR_FLCO_PDU_PRIVATE then 0x80 else 0x00),
      lc.fid.toUInt8, 0,
      (lc.dstId >>> 16).toUInt8, (lc.dstId >>> 8).toUInt8, lc.dstId.toUInt8,
      (lc.srcId >>> 16).toUInt8, (lc.srcId >>> 8).toUInt8, lc.srcId.toUInt8] :
        Vector UInt8 9) i i.isLt := by
  refine (dmrRs12_9_4Encode_data _ i).trans ?_
  fin_cases i <;> rfl

/-- The encoder of a full link control sets the flag of a private call. -/
theorem SameCall.octet_zero (h : SameCall lc fullLc) :
    (lcOctets lc 0 = 0 ∧ fullLcOctets fullLc 0 = 0 ∧ lc.flco = DMR_FLCO_GROUP) ∨
      (lcOctets lc 0 = 0x03 ∧ fullLcOctets fullLc 0 = 0x83 ∧ lc.flco = DMR_FLCO_PRIVATE) := by
  have hfull : fullLcOctets fullLc 0 = fullLc.flcoPdu.toUInt8 |||
      (if fullLc.flcoPdu = DMR_FLCO_PDU_PRIVATE then 0x80 else 0x00) :=
    fullLcOctets_eq fullLc 0
  have hlc : lcOctets lc 0 = if lc.flco = DMR_FLCO_PRIVATE then 3 else 0 := rfl
  rw [hfull, hlc]
  obtain ⟨hflco, hpdu⟩ | ⟨hflco, hpdu⟩ := h.callType
  · rw [hflco, hpdu]
    decide
  · rw [hflco, hpdu]
    decide

/-- The other octets are the same. -/
theorem SameCall.octet_succ (h : SameCall lc fullLc) (i : Fin 8) :
    lcOctets lc i.succ = fullLcOctets fullLc i.succ := by
  have hfid : fullLc.fid.toUInt8 = 0 := by
    rw [h.fid]
    decide
  rw [fullLcOctets_eq, hfid, h.dstId, h.srcId]
  fin_cases i <;> rfl

theorem SameCall.octets_eq_iff (h : SameCall lc fullLc) :
    lcOctets lc = fullLcOctets fullLc ↔ lc.flco = DMR_FLCO_GROUP := by
  obtain ⟨hlc, hfull, hflco⟩ | ⟨hlc, hfull, hflco⟩ := h.octet_zero
  · refine iff_of_true (funext fun i => ?_) hflco
    cases i using Fin.cases with
    | zero => rw [hlc, hfull]
    | succ i => exact h.octet_succ i
  · refine iff_of_false (fun heq => ?_) (by rw [hflco]; decide)
    rw [← congrFun heq 0, hlc] at hfull
    exact absurd hfull (by decide)

/-- A private call tells the encoders apart. -/
theorem SameCall.group_of_agree (h : SameCall lc fullLc) {sizeofPtr : Nat} (hpos : 0 < sizeofPtr)
    (hptr : sizeofPtr ≤ 9) {embBits embBits' out : DmrEmbSignallingLcBits} {dataType : DmrDataType}
    (ht : dataType < DMR_DATA_TYPE_INVALID)
    (hout : dmrEmbEncodeSignallingLc sizeofPtr embBits lc = some (0, out))
    (hout' : dmrEmbEncodeSignallingLcFromFullLc sizeofPtr fullLc embBits' dataType =
      some (0, out)) : lc.flco = DMR_FLCO_GROUP := by
  obtain ⟨written, hwrites, hwritten⟩ := dmrEmbEncodeSignallingLc_spec hptr embBits lc
  obtain ⟨written', hwrites', hwritten'⟩ :=
    dmrEmbEncodeSignallingLcFromFullLc_spec hptr fullLc embBits' ht
  obtain ⟨-, rfl⟩ := Prod.mk.inj (Option.some.inj (hwrites.symm.trans hout))
  obtain ⟨-, rfl⟩ := Prod.mk.inj (Option.some.inj (hwrites'.symm.trans hout'))
  have hzero := hwritten.octet_eq hwritten' (i := 0) hpos
  obtain ⟨-, -, hgroup⟩ | ⟨hlc, hfull, -⟩ := h.octet_zero
  · exact hgroup
  · -- the first octet would be both 03 and 83
    exact absurd (hlc.symm.trans (hzero.trans hfull)) (by decide)

/-- **Two encoders.** The same bits come from both exactly for group calls, with what is not
unpacked the same in both buffers. -/
theorem signallingLc_agree_iff {sizeofPtr : Nat} (hpos : 0 < sizeofPtr)
    (embBits embBits' : DmrEmbSignallingLcBits) (h : SameCall lc fullLc) {dataType : DmrDataType}
    (ht : dataType < DMR_DATA_TYPE_INVALID) :
    (∃ out, dmrEmbEncodeSignallingLc sizeofPtr embBits lc = some (0, out) ∧
        dmrEmbEncodeSignallingLcFromFullLc sizeofPtr fullLc embBits' dataType = some (0, out)) ↔
      lc.flco = DMR_FLCO_GROUP ∧ sizeofPtr ≤ 9 ∧
        ∀ (i : Fin 9) (j : Fin 8), sizeofPtr ≤ i.val →
          embBits.bits[i.val * 8 + j.val] = embBits'.bits[i.val * 8 + j.val] := by
  by_cases hptr : sizeofPtr ≤ 9
  · obtain ⟨out, hout, hwritten⟩ := dmrEmbEncodeSignallingLc_spec hptr embBits lc
    obtain ⟨out', hout', hwritten'⟩ :=
      dmrEmbEncodeSignallingLcFromFullLc_spec hptr fullLc embBits' ht
    constructor
    · rintro ⟨both, hboth, hboth'⟩
      -- both have written the same, so they agree where neither has written
      refine ⟨h.group_of_agree hpos hptr ht hboth hboth', hptr, fun i j hi => ?_⟩
      obtain ⟨-, rfl⟩ := Prod.mk.inj (Option.some.inj (hout.symm.trans hboth))
      obtain ⟨-, rfl⟩ := Prod.mk.inj (Option.some.inj (hout'.symm.trans hboth'))
      have hbit := hwritten.bits i j
      rw [hwritten'.bits i j, if_neg (Nat.not_lt.mpr hi), if_neg (Nat.not_lt.mpr hi)] at hbit
      exact hbit.symm
    · rintro ⟨hgroup, -, hkept⟩
      rw [← h.octets_eq_iff.mpr hgroup] at hwritten'
      obtain rfl := hwritten.unique hwritten' hkept
      exact ⟨out, hout, hout'⟩
  -- with a longer pointer the loop leaves its array
  · refine iff_of_false ?_ fun h => hptr h.2.1
    rintro ⟨out, hout, -⟩
    rw [dmrEmbEncodeSignallingLc, dmrEmbEncodeSignallingLcBytes_eq_none _ _ _ hptr] at hout
    cases hout

theorem signallingLc_agree_iff_groupCall :
    (∃ out, dmrEmbEncodeSignallingLc 8 zeroBits ⟨DMR_FLCO_GROUP, 1, 2⟩ = some (0, out) ∧
        dmrEmbEncodeSignallingLcFromFullLc 8
          ⟨DMR_FLCO_PDU_GROUP, false, false, 0, 0, 1, 2, #v[0, 0, 0]⟩ zeroBits
          DMR_DATA_TYPE_VOICE_LC = some (0, out)) ↔
      (⟨DMR_FLCO_GROUP, 1, 2⟩ : DmrLc).flco = DMR_FLCO_GROUP ∧ 8 ≤ 9 ∧
        ∀ (i : Fin 9) (j : Fin 8), 8 ≤ i.val →
          zeroBits.bits[i.val * 8 + j.val] = zeroBits.bits[i.val * 8 + j.val] :=
  signallingLc_agree_iff (by decide) zeroBits zeroBits
    ⟨.inl ⟨rfl, rfl⟩, rfl, rfl, rfl⟩ (by decide)

/-- In a private call the first octet is 03 from one and 83 from the other. -/
theorem not_signallingLc_agree_privateCall :
    let lc : DmrLc := ⟨DMR_FLCO_PRIVATE, 1, 2⟩
    let fullLc : DmrFullLc := ⟨DMR_FLCO_PDU_PRIVATE, false, false, 0, 0, 1, 2, #v[0, 0, 0]⟩
    SameCall lc fullLc ∧ ¬ ∃ out, dmrEmbEncodeSignallingLc 8 zeroBits lc = some (0, out) ∧
      dmrEmbEncodeSignallingLcFromFullLc 8 fullLc zeroBits DMR_DATA_TYPE_VOICE_LC =
        some (0, out) := by
  intro lc fullLc
  have hcall : SameCall lc fullLc := ⟨.inr ⟨rfl, rfl⟩, rfl, rfl, rfl⟩
  refine ⟨hcall, ?_⟩
  rintro ⟨out, hout, hout'⟩
  have hgroup := hcall.group_of_agree (by decide) (by decide) (by decide) hout hout'
  exact absurd (show DMR_FLCO_PRIVATE = DMR_FLCO_GROUP from hgroup) (by decide)

end Dmrlib
