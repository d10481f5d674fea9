import Dmrlib.Fec.Bptc19696
import Dmrlib.Fec.Rs129
import Dmrlib.Packet
import Dmrlib.Payload.Sync

/-!
# Full link control (`src/dmr/payload/lc.c`)

A full link control is packed into nine bytes, followed by three Reed-Solomon
parity bytes that are masked with a constant of the data type, and sent as the
data block of a BPTC(196,96) burst. The decoder takes the mask off again, so a
burst read under the wrong data type fails the parity check unless the two masks
agree: `dmrFullLcDecode_encode`.

- `DmrFullLc`: the link control; `DmrFullLc.Fits` says that its fields have room in the block.
- `dmrFullLcEncode`, `dmrFullLcDecode`: encoder and decoder.
- `dmrFullLcDecode_encode`: the round trip; under another data type the burst is refused.
- `Reencodable`, `lcBlock_reencoded_iff`: the blocks that survive being decoded and encoded.
- `MiddlePreserved`, `middlePreserved_encode_iff`: the bits in the middle, and when the encoders
  leave them alone.
-/

namespace Dmrlib

/-- `dmr_flco_pdu` -/
abbrev DmrFlcoPdu := UInt32

abbrev DMR_FLCO_PDU_GROUP : DmrFlcoPdu := 0x00
abbrev DMR_FLCO_PDU_PRIVATE : DmrFlcoPdu := 0x03

/-- `dmr_full_lc` -/
structure DmrFullLc where
  flcoPdu : DmrFlcoPdu
  r : Bool
  pf : Bool
  fid : UInt32
  serviceOptions : UInt8
  dstId : DmrId
  srcId : DmrId
  crc : Vector UInt8 3

/-- `dmr_crc_mask_lc` -/
def dmrCrcMaskLc : Vector UInt8 10 :=
  #v[0x69, 0x96, 0x99, 0xa5, 0xaa, 0x00, 0xcc, 0xf0, 0xff, 0x00]

/-- `dmr_crc_mask_lc[data_type]`; encoder and decoder have checked the data type. -/
def crcMaskLc (dataType : DmrDataType) : UInt8 :=
  if h : dataType.toNat < 10 then dmrCrcMaskLc[dataType.toNat] else 0

/-- The mask over the three parity bytes. -/
def applyCrcMask (dataType : DmrDataType) (bytes : Vector UInt8 12) : Vector UInt8 12 :=
  ((bytes.set 9 (bytes[9] ^^^ crcMaskLc dataType)).set 10
    (bytes[10] ^^^ crcMaskLc dataType)).set 11 (bytes[11] ^^^ crcMaskLc dataType)

/-- `dmr_full_lc_encode_bytes` -/
def dmrFullLcEncodeBytes (lc : DmrFullLc) : Vector UInt8 12 :=
  dmrRs12_9_4Encode
    #v[lc.flcoPdu.toUInt8 ||| (if lc.flcoPdu = DMR_FLCO_PDU_PRIVATE then 0x80 else 0x00),
      lc.fid.toUInt8, 0,
      (lc.dstId >>> 16).toUInt8, (lc.dstId >>> 8).toUInt8, lc.dstId.toUInt8,
      (lc.srcId >>> 16).toUInt8, (lc.srcId >>> 8).toUInt8, lc.srcId.toUInt8,
      0, 0, 0]

/-- `dmr_full_lc_encode`: the return value and the packet. The local `bptc` and the
local bit array of the BPTC encoder are not initialised; their content is given
by the last two arguments. -/
def dmrFullLcEncode (packet : DmrPacket) (lc : DmrFullLc) (dataType : DmrDataType)
    (bptc : DmrBptc196_96) (bits : Vector Bool 264) : Int × DmrPacket :=
  if dataType ≠ DMR_DATA_TYPE_VOICE_LC ∧ dataType ≠ DMR_DATA_TYPE_TERMINATOR_WITH_LC then
    (-1, packet)
  else
    let bytes := applyCrcMask dataType (dmrFullLcEncodeBytes lc)
    (0, (dmrBptc196_96Encode packet bptc bytes bits).2.1)

/-- The fields that the decoder takes from an accepted data block. -/
def fullLcOfBytes (lc : DmrFullLc) (bytes : Vector UInt8 12) : DmrFullLc :=
  { lc with
    flcoPdu := (bytes[0] &&& 0x3f).toUInt32
    pf := false
    fid := bytes[1].toUInt32
    dstId := (bytes[3].toUInt32 <<< 16) ||| (bytes[4].toUInt32 <<< 8) ||| bytes[5].toUInt32
    srcId := (bytes[6].toUInt32 <<< 16) ||| (bytes[7].toUInt32 <<< 8) ||| bytes[8].toUInt32
    crc := #v[bytes[9], bytes[10], bytes[11]] }

/-- `dmr_full_lc_decode`: the return value and the link control, for a caller whose
struct held `lc` before. -/
def dmrFullLcDecode (packet : DmrPacket) (lc : DmrFullLc) (dataType : DmrDataType) :
    Int × DmrFullLc :=
  if dataType ≥ DMR_DATA_TYPE_INVALID then (-1, lc)
  else
    -- `talloc_zero` clears the work struct
    let bptc : DmrBptc196_96 := ⟨Vector.replicate 196 false, Vector.replicate 196 false⟩
    let (ret, _, bytes) := dmrBptc196_96Decode packet bptc (Vector.replicate 12 0)
    if ret ≠ 0 then (-1, lc)
    else
      let bytes := applyCrcMask dataType bytes
      if dmrRs12_9_4Decode bytes ≠ 0 then (-1, lc)
      else (0, fullLcOfBytes lc bytes)

/-- Link control is written under two data types. -/
def LcDataType (t : DmrDataType) : Prop :=
  t = DMR_DATA_TYPE_VOICE_LC ∨ t = DMR_DATA_TYPE_TERMINATOR_WITH_LC

/-- … and the encoder takes no other. -/
theorem LcDataType.supported {t : DmrDataType} (ht : LcDataType t) :
    ¬ (t ≠ DMR_DATA_TYPE_VOICE_LC ∧ t ≠ DMR_DATA_TYPE_TERMINATOR_WITH_LC) := by
  rcases ht with rfl | rfl <;> decide

/-! ## The mask and the parity check

The mask lies on the parity bytes only, so under another mask the check fails unless the masks are
equal.
-/

theorem applyCrcMask_data (dataType : DmrDataType) (bytes : Vector UInt8 12) (i : Fin 9) :
    (applyCrcMask dataType bytes)[i] = bytes[i] := by
  have h9 : (9 : Nat) ≠ i := by omega
  have h10 : (10 : Nat) ≠ i := by omega
  have h11 : (11 : Nat) ≠ i := by omega
  simp [applyCrcMask, h9, h10, h11]

theorem applyCrcMask_parity (dataType : DmrDataType) (bytes : Vector UInt8 12) (r : Fin 3) :
    getElem (applyCrcMask dataType bytes) (11 - r.val) (Nat.sub_lt_succ 11 r) =
      getElem bytes (11 - r.val) (Nat.sub_lt_succ 11 r) ^^^ crcMaskLc dataType := by
  fin_cases r <;> simp [applyCrcMask]

/-- Encoded under `t` and unmasked under `u`, a block passes the parity check when
the masks agree. -/
theorem dmrRs12_9_4Decode_masked (bytes : Vector UInt8 12) (t u : DmrDataType) :
    dmrRs12_9_4Decode (applyCrcMask u (applyCrcMask t (dmrRs12_9_4Encode bytes))) = 0 ↔
      crcMaskLc t = crcMaskLc u := by
  have hpar : rsParity (applyCrcMask u (applyCrcMask t (dmrRs12_9_4Encode bytes))) =
      rsParity bytes :=
    rsParity_congr fun i => by
      rw [applyCrcMask_data, applyCrcMask_data, dmrRs12_9_4Encode_data]
  have hxor : ∀ x m m' : UInt8, x ^^^ m ^^^ m' = x ↔ m = m' := by
    intro x m m'
    rw [UInt8.xor_assoc]
    simp
  rw [dmrRs12_9_4Decode_eq_zero_iff]
  simp only [hpar, applyCrcMask_parity, dmrRs12_9_4Encode_parity, hxor, forall_const]

/-- The two masks in use belong to no other data type. -/
theorem crcMaskLc_inj {t u : DmrDataType} (ht : LcDataType t)
    (hu : u < DMR_DATA_TYPE_INVALID) : crcMaskLc t = crcMaskLc u ↔ u = t := by
  have hfin : ∀ v : Fin 10,
      (crcMaskLc DMR_DATA_TYPE_VOICE_LC = crcMaskLc (UInt32.ofNat v) ↔
          UInt32.ofNat v = DMR_DATA_TYPE_VOICE_LC) ∧
        (crcMaskLc DMR_DATA_TYPE_TERMINATOR_WITH_LC = crcMaskLc (UInt32.ofNat v) ↔
          UInt32.ofNat v = DMR_DATA_TYPE_TERMINATOR_WITH_LC) := by
    decide
  have hv := hfin ⟨u.toNat, UInt32.lt_iff_toNat_lt.mp hu⟩
  simp only [UInt32.ofNat_toNat] at hv
  rcases ht with rfl | rfl
  · exact hv.1
  · exact hv.2

/-! ## Packing and unpacking the fields

The fields of a link control, from its octets and back.
-/

/-- A 24-bit id survives its three bytes. -/
theorem threeBytes_id {id : DmrId} (h : id < 2 ^ 24) :
    ((id >>> 16).toUInt8.toUInt32 <<< 16) ||| ((id >>> 8).toUInt8.toUInt32 <<< 8) |||
      id.toUInt8.toUInt32 = id := by
  have hid : id.toNat < 2 ^ 24 := UInt32.lt_iff_toNat_lt.mp h
  have hhigh : (id >>> 16).toUInt8.toUInt32 = (id >>> 8) >>> 8 := by
    rw [shiftRight_sixteen]
    refine toUInt32_toUInt8_of_lt ?_
    rw [toNat_shiftRight_eight, toNat_shiftRight_eight]
    omega
  calc ((id >>> 16).toUInt8.toUInt32 <<< 16) ||| ((id >>> 8).toUInt8.toUInt32 <<< 8) |||
        id.toUInt8.toUInt32
      = ((id >>> 8).toUInt8.toUInt32 ||| ((id >>> 8) >>> 8) <<< (8 : UInt32)) <<< (8 : UInt32) |||
          id.toUInt8.toUInt32 := by
        rw [hhigh, shiftLeft_sixteen, UInt32.shiftLeft_or, UInt32.or_comm (_ <<< _)]
    _ = id.toUInt8.toUInt32 ||| (id >>> 8) <<< (8 : UInt32) := by
        rw [lowByte_or_shift, UInt32.or_comm]
    _ = id := lowByte_or_shift id

/-- A 6-bit opcode survives its byte, with or without the flag in bit 7. -/
theorem flcoPdu_masked {pdu : DmrFlcoPdu} (h : pdu < 64) {flag : UInt8}
    (hflag : flag = 0x80 ∨ flag = 0x00) : ((pdu.toUInt8 ||| flag) &&& 0x3f).toUInt32 = pdu := by
  have hpdu : pdu.toNat < 64 := UInt32.lt_iff_toNat_lt.mp h
  have hopcode : pdu.toUInt8 &&& 0x3f = pdu.toUInt8 := by
    refine UInt8.toNat_inj.mp ?_
    rw [UInt8.toNat_and, UInt32.toNat_toUInt8]
    show pdu.toNat % 2 ^ 8 &&& (2 ^ 6 - 1) = pdu.toNat % 2 ^ 8
    rw [Nat.and_two_pow_sub_one_eq_mod]
    omega
  have hmask : flag &&& 0x3f = 0 := by
    obtain rfl | rfl := hflag
    · rfl
    · rfl
  rw [or_and_distrib, hopcode, hmask, UInt8.or_zero]
  exact toUInt32_toUInt8_of_lt (by omega)

/-- The link control fields that travel in a data block. -/
structure SameFields (lc lc' : DmrFullLc) : Prop where
  flcoPdu : lc.flcoPdu = lc'.flcoPdu
  fid : lc.fid = lc'.fid
  srcId : lc.srcId = lc'.srcId
  dstId : lc.dstId = lc'.dstId

/-- The fields of a link control fit their places in a data block. -/
structure DmrFullLc.Fits (lc : DmrFullLc) : Prop where
  flcoPdu : lc.flcoPdu < 64
  fid : lc.fid < 256
  srcId : lc.srcId < 2 ^ 24
  dstId : lc.dstId < 2 ^ 24

/-- Whatever happens to the parity bytes, the fields come back. -/
theorem fullLcOfBytes_encodeBytes {lc : DmrFullLc} (hlc : lc.Fits) (out : DmrFullLc)
    {bytes : Vector UInt8 12} (h : ∀ i : Fin 9, bytes[i] = (dmrFullLcEncodeBytes lc)[i]) :
    SameFields (fullLcOfBytes out bytes) lc := by
  have hdata := fun i : Fin 9 => (h i).trans (dmrRs12_9_4Encode_data _ i)
  have h0 := hdata 0
  have h1 := hdata 1
  have h3 := hdata 3
  have h4 := hdata 4
  have h5 := hdata 5
  have h6 := hdata 6
  have h7 := hdata 7
  have h8 := hdata 8
  simp [-UInt32.toUInt8_or] at h0 h1 h3 h4 h5 h6 h7 h8
  constructor
  · rw [fullLcOfBytes, h0]
    refine flcoPdu_masked hlc.flcoPdu ?_
    split
    · exact .inl rfl
    · exact .inr rfl
  · rw [fullLcOfBytes, h1]
    exact toUInt32_toUInt8_of_lt (UInt32.lt_iff_toNat_lt.mp hlc.fid)
  · rw [fullLcOfBytes, h6, h7, h8]
    exact threeBytes_id hlc.srcId
  · rw [fullLcOfBytes, h3, h4, h5]
    exact threeBytes_id hlc.dstId

/-! ## Round trip through a burst

The block is data of the BPTC code, which hands it on as it is.
-/

/-- The decoder looks at the result of the block code, and at its data. -/
theorem dmrFullLcDecode_eq (packet : DmrPacket) (out : DmrFullLc) {t : DmrDataType}
    (ht : t < DMR_DATA_TYPE_INVALID) :
    dmrFullLcDecode packet out t =
      if (dmrBptc196_96Decode packet ⟨Vector.replicate 196 false, Vector.replicate 196 false⟩
        (Vector.replicate 12 0)).1 ≠ 0 then (-1, out)
      else if dmrRs12_9_4Decode (applyCrcMask t (dmrBptc196_96Decode packet
        ⟨Vector.replicate 196 false, Vector.replicate 196 false⟩ (Vector.replicate 12 0)).2.2) ≠ 0
          then (-1, out)
      else (0, fullLcOfBytes out (applyCrcMask t (dmrBptc196_96Decode packet
        ⟨Vector.replicate 196 false, Vector.replicate 196 false⟩
        (Vector.replicate 12 0)).2.2)) := by
  unfold dmrFullLcDecode
  cases hdecode : dmrBptc196_96Decode packet
    ⟨Vector.replicate 196 false, Vector.replicate 196 false⟩ (Vector.replicate 12 0) with
  | mk ret rest => simp only [if_neg (UInt32.not_le.mpr ht), hdecode]

/-- A burst that carries a data block is accepted or not by the block alone. -/
theorem dmrFullLcDecode_of_carries {packet : DmrPacket} {data : Vector UInt8 12}
    (h : Carries packet data) {t : DmrDataType} (ht : t < DMR_DATA_TYPE_INVALID)
    (out : DmrFullLc) :
    dmrFullLcDecode packet out t =
      if dmrRs12_9_4Decode (applyCrcMask t data) ≠ 0 then (-1, out)
      else (0, fullLcOfBytes out (applyCrcMask t data)) := by
  obtain ⟨hret, hdata⟩ := decode_of_carries h
    ⟨Vector.replicate 196 false, Vector.replicate 196 false⟩ (Vector.replicate 12 0)
  rw [dmrFullLcDecode_eq packet out ht, hret, hdata, if_neg (not_not.mpr rfl)]

/-- **Round trip.** A link control written under a supported data type is read back
under that data type and no other, and the fields it carries are the same. -/
theorem dmrFullLcDecode_encode (packet : DmrPacket) {lc : DmrFullLc} (hlc : lc.Fits)
    {t u : DmrDataType} (ht : LcDataType t) (hu : u < DMR_DATA_TYPE_INVALID) (out : DmrFullLc)
    (bptc : DmrBptc196_96)
    (bits : Vector Bool 264) :
    let decoded := dmrFullLcDecode (dmrFullLcEncode packet lc t bptc bits).2 out u
    (decoded.1 = 0 ↔ u = t) ∧ (decoded.1 = 0 → SameFields decoded.2 lc) := by
  have henc : (dmrFullLcEncode packet lc t bptc bits).2 =
      (dmrBptc196_96Encode packet bptc (applyCrcMask t (dmrFullLcEncodeBytes lc)) bits).2.1 := by
    rw [dmrFullLcEncode, if_neg ht.supported]
  -- two masks that differ leave a word that is not in the code
  have hcheck : dmrRs12_9_4Decode
      (applyCrcMask u (applyCrcMask t (dmrFullLcEncodeBytes lc))) = 0 ↔ u = t :=
    (dmrRs12_9_4Decode_masked _ t u).trans (crcMaskLc_inj ht hu)
  have hfields : SameFields
      (fullLcOfBytes out (applyCrcMask u (applyCrcMask t (dmrFullLcEncodeBytes lc)))) lc :=
    fullLcOfBytes_encodeBytes hlc out fun i => by rw [applyCrcMask_data, applyCrcMask_data]
  intro decoded
  have hdec : decoded =
      if dmrRs12_9_4Decode (applyCrcMask u (applyCrcMask t (dmrFullLcEncodeBytes lc))) ≠ 0 then
        (-1, out)
      else (0, fullLcOfBytes out (applyCrcMask u (applyCrcMask t (dmrFullLcEncodeBytes lc)))) := by
    unfold decoded
    rw [henc]
    exact dmrFullLcDecode_of_carries (carries_encode packet bptc _ bits) hu out
  rw [hdec]
  split
  · next hbad =>
    have hneg : ¬ (-1 : Int) = 0 := by decide
    exact ⟨iff_of_false hneg (mt hcheck.mpr hbad), fun h => absurd h hneg⟩
  · next hgood => exact ⟨iff_of_true rfl (hcheck.mp (not_not.mp hgood)), fun _ => hfields⟩

/-- A group call from 1 to 2, written as a voice LC header and read as one. -/
theorem dmrFullLcDecode_encode_groupCall :
    let lc : DmrFullLc := ⟨DMR_FLCO_PDU_GROUP, false, false, 0, 0, 2, 1, #v[0, 0, 0]⟩
    let bptc : DmrBptc196_96 := ⟨Vector.replicate 196 false, Vector.replicate 196 false⟩
    let decoded := dmrFullLcDecode (dmrFullLcEncode (Vector.replicate 33 0) lc
      DMR_DATA_TYPE_VOICE_LC bptc (Vector.replicate 264 false)).2 lc DMR_DATA_TYPE_VOICE_LC
    (decoded.1 = 0 ↔ DMR_DATA_TYPE_VOICE_LC = DMR_DATA_TYPE_VOICE_LC) ∧
      (decoded.1 = 0 → SameFields decoded.2 lc) :=
  dmrFullLcDecode_encode (Vector.replicate 33 0)
    ⟨by decide, by decide, by decide, by decide⟩ (.inl rfl) (by decide) _ _ _

/-! ## Encoding what was decoded

The other way round: a block that was received, decoded, and encoded again.
-/

/-- The data block of a burst, as the decoder's BPTC stage delivers it. -/
def lcBlock (packet : DmrPacket) : Vector UInt8 12 :=
  (dmrBptc196_96Decode packet ⟨Vector.replicate 196 false, Vector.replicate 196 false⟩
    (Vector.replicate 12 0)).2.2

theorem lcBlock_of_carries {packet : DmrPacket} {data : Vector UInt8 12}
    (h : Carries packet data) : lcBlock packet = data := by
  rw [lcBlock]
  exact (decode_of_carries h _ _).2

/-- The link control of an accepted burst is read from its block. -/
theorem dmrFullLcDecode_accepted {packet : DmrPacket} {out : DmrFullLc} {t : DmrDataType}
    (h : (dmrFullLcDecode packet out t).1 = 0) :
    (dmrFullLcDecode packet out t).2 = fullLcOfBytes out (applyCrcMask t (lcBlock packet)) := by
  have hneg : ¬ (-1 : Int) = 0 := by decide
  have htype : t < DMR_DATA_TYPE_INVALID := by
    by_contra htype
    rw [dmrFullLcDecode, if_pos (UInt32.not_lt.mp htype)] at h
    exact hneg h
  rw [dmrFullLcDecode_eq packet out htype] at h ⊢
  rw [lcBlock]
  split at h
  · exact absurd h hneg
  next hret =>
    rw [if_neg hret]
    split at h
    · exact absurd h hneg
    next hcheck =>
      rw [if_neg hcheck]

/-- What the encoder makes of the nine octets that the decoder read. -/
def reencodedOctets (block : Vector UInt8 12) : Vector UInt8 9 :=
  #v[(block[0] &&& 0x3f) ||| (if block[0] &&& 0x3f = 0x03 then 0x80 else 0x00), block[1], 0,
    block[3], block[4], block[5], block[6], block[7], block[8]]

theorem reencodedOctets_congr {block block' : Vector UInt8 12}
    (h : ∀ i : Fin 9, block[i] = block'[i]) : reencodedOctets block = reencodedOctets block' := by
  have h0 : block[0] = block'[0] := h 0
  have h1 : block[1] = block'[1] := h 1
  have h3 : block[3] = block'[3] := h 3
  have h4 : block[4] = block'[4] := h 4
  have h5 : block[5] = block'[5] := h 5
  have h6 : block[6] = block'[6] := h 6
  have h7 : block[7] = block'[7] := h 7
  have h8 : block[8] = block'[8] := h 8
  rw [reencodedOctets, reencodedOctets, h0, h1, h3, h4, h5, h6, h7, h8]

/-- Three bytes survive the 24-bit id. -/
theorem id_threeBytes (a b c : UInt8) :
    let id : DmrId := (a.toUInt32 <<< 16) ||| (b.toUInt32 <<< 8) ||| c.toUInt32
    (id >>> 16).toUInt8 = a ∧ (id >>> 8).toUInt8 = b ∧ id.toUInt8 = c := by
  refine ⟨?_, ?_, ?_⟩
  all_goals
    refine UInt8.eq_of_toBitVec_eq ?_
    ext i hi
    interval_cases i <;> simp

/-- The first octet keeps its opcode; the flags above it are made up. -/
theorem opcode_octet (b : UInt8) :
    (b &&& 0x3f).toUInt32.toUInt8 |||
        (if (b &&& 0x3f).toUInt32 = DMR_FLCO_PDU_PRIVATE then 0x80 else 0x00) =
      (b &&& 0x3f) ||| (if b &&& 0x3f = 0x03 then 0x80 else 0x00) := by
  have hpdu : (b &&& 0x3f).toUInt32 = DMR_FLCO_PDU_PRIVATE ↔ b &&& 0x3f = 0x03 := by
    rw [show DMR_FLCO_PDU_PRIVATE = (0x03 : UInt8).toUInt32 from rfl]
    exact UInt8.toUInt32_inj
  rw [UInt8.toUInt8_toUInt32]
  simp only [hpdu]

theorem dmrFullLcEncodeBytes_fullLcOfBytes (out : DmrFullLc) (bytes : Vector UInt8 12) (i : Fin 9) :
    (dmrFullLcEncodeBytes (fullLcOfBytes out bytes))[i] = (reencodedOctets bytes)[i] := by
  obtain ⟨hd3, hd4, hd5⟩ := id_threeBytes bytes[3] bytes[4] bytes[5]
  obtain ⟨hs6, hs7, hs8⟩ := id_threeBytes bytes[6] bytes[7] bytes[8]
  refine (dmrRs12_9_4Encode_data _ i).trans ?_
  fin_cases i
  · exact opcode_octet bytes[0]
  · exact UInt8.toUInt8_toUInt32 bytes[1]
  · rfl
  · exact hd3
  · exact hd4
  · exact hd5
  · exact hs6
  · exact hs7
  · exact hs8

/-- The block of a burst written back from an accepted one. -/
theorem lcBlock_reencoded {packet : DmrPacket} {out : DmrFullLc} {t : DmrDataType}
    (ht : LcDataType t) (h : (dmrFullLcDecode packet out t).1 = 0) (packet' : DmrPacket)
    (bptc : DmrBptc196_96) (bits : Vector Bool 264) (i : Fin 9) :
    (lcBlock (dmrFullLcEncode packet' (dmrFullLcDecode packet out t).2 t bptc bits).2)[i] =
      (reencodedOctets (lcBlock packet))[i] := by
  rw [dmrFullLcEncode, if_neg ht.supported, lcBlock_of_carries (carries_encode _ _ _ _),
    applyCrcMask_data, dmrFullLcDecode_accepted h, dmrFullLcEncodeBytes_fullLcOfBytes,
    reencodedOctets_congr (applyCrcMask_data t (lcBlock packet))]

/-- The octets that decoder and encoder carry across: no reserved bit and no service options,
and the protect flag set for the opcode that the encoder sets it for, and for no other. -/
structure Reencodable (block : Vector UInt8 12) : Prop where
  reserved : block[0] &&& 0x40 = 0
  protect : block[0] &&& 0x80 = 0x80 ↔ block[0] &&& 0x3f = 0x03
  serviceOptions : block[2] = 0

theorem opcode_octet_iff (b : UInt8) :
    (b &&& 0x3f) ||| (if b &&& 0x3f = 0x03 then 0x80 else 0x00) = b ↔
      b &&& 0x40 = 0 ∧ (b &&& 0x80 = 0x80 ↔ b &&& 0x3f = 0x03) := by
  have h : ∀ v : BitVec 8,
      (UInt8.ofBitVec v &&& 0x3f) ||| (if UInt8.ofBitVec v &&& 0x3f = 0x03 then 0x80 else 0x00) =
          UInt8.ofBitVec v ↔
        UInt8.ofBitVec v &&& 0x40 = 0 ∧
          (UInt8.ofBitVec v &&& 0x80 = 0x80 ↔ UInt8.ofBitVec v &&& 0x3f = 0x03) := by
    decide +kernel
  exact h b.toBitVec

theorem reencodedOctets_eq_iff (block : Vector UInt8 12) :
    (∀ i : Fin 9, (reencodedOctets block)[i] = block[i]) ↔ Reencodable block := by
  constructor
  · intro h
    obtain ⟨hreserved, hprotect⟩ := (opcode_octet_iff block[0]).mp (h 0)
    exact ⟨hreserved, hprotect, (h 2).symm⟩
  · intro h i
    fin_cases i
    case «0» => exact (opcode_octet_iff block[0]).mpr ⟨h.reserved, h.protect⟩
    case «2» => exact h.serviceOptions.symm
    all_goals rfl

/-- **Encoding what was decoded.** The nine octets of an accepted burst are written back the
same exactly when they are `Reencodable`: the rest the decoder drops. -/
theorem lcBlock_reencoded_iff {packet : DmrPacket} {out : DmrFullLc} {t : DmrDataType}
    (ht : LcDataType t) (h : (dmrFullLcDecode packet out t).1 = 0) (packet' : DmrPacket)
    (bptc : DmrBptc196_96) (bits : Vector Bool 264) :
    (∀ i : Fin 9,
      (lcBlock (dmrFullLcEncode packet' (dmrFullLcDecode packet out t).2 t bptc bits).2)[i] =
        (lcBlock packet)[i]) ↔ Reencodable (lcBlock packet) := by
  rw [← reencodedOctets_eq_iff]
  refine forall_congr' fun i => ?_
  rw [lcBlock_reencoded ht h]

/-- A voice LC header with the nine octets `data`. -/
def lcBurst (data : Vector UInt8 12) : DmrPacket :=
  (dmrBptc196_96Encode (Vector.replicate 33 0)
    ⟨Vector.replicate 196 false, Vector.replicate 196 false⟩
    (applyCrcMask DMR_DATA_TYPE_VOICE_LC (dmrRs12_9_4Encode data)) (Vector.replicate 264 false)).2.1

/-- The decoder accepts it. -/
theorem dmrFullLcDecode_lcBurst (data : Vector UInt8 12) (out : DmrFullLc) :
    (dmrFullLcDecode (lcBurst data) out DMR_DATA_TYPE_VOICE_LC).1 = 0 := by
  have hcheck : dmrRs12_9_4Decode (applyCrcMask DMR_DATA_TYPE_VOICE_LC
      (applyCrcMask DMR_DATA_TYPE_VOICE_LC (dmrRs12_9_4Encode data))) = 0 :=
    (dmrRs12_9_4Decode_masked data _ _).mpr rfl
  unfold lcBurst
  rw [dmrFullLcDecode_of_carries (carries_encode _ _ _ _) (by decide), hcheck]
  rfl

/-- Its octets are `data`. -/
theorem lcBlock_lcBurst (data : Vector UInt8 12) (i : Fin 9) :
    (lcBlock (lcBurst data))[i] = data[i] := by
  have hblock : lcBlock (lcBurst data) =
      applyCrcMask DMR_DATA_TYPE_VOICE_LC (dmrRs12_9_4Encode data) :=
    lcBlock_of_carries (carries_encode _ _ _ _)
  rw [hblock, applyCrcMask_data, dmrRs12_9_4Encode_data]

/-- Whatever is written back, the service options are not. -/
theorem reencodedOctets_two (block : Vector UInt8 12) :
    (reencodedOctets block)[(2 : Fin 9)] = 0 := rfl

/-- The link control of an emergency call from 2 to 1. -/
def emergencyLc : Vector UInt8 12 := #v[0, 0, 0x80, 0, 0, 1, 0, 0, 2, 0, 0, 0]

theorem lcBlock_reencoded_iff_emergency :
    (∀ i : Fin 9,
      (lcBlock (dmrFullLcEncode (lcBurst emergencyLc)
        (dmrFullLcDecode (lcBurst emergencyLc) ⟨0, false, false, 0, 0, 0, 0, #v[0, 0, 0]⟩
          DMR_DATA_TYPE_VOICE_LC).2 DMR_DATA_TYPE_VOICE_LC
        ⟨Vector.replicate 196 false, Vector.replicate 196 false⟩
        (Vector.replicate 264 false)).2)[i] = (lcBlock (lcBurst emergencyLc))[i]) ↔
      Reencodable (lcBlock (lcBurst emergencyLc)) :=
  lcBlock_reencoded_iff (.inl rfl) (dmrFullLcDecode_lcBurst _ _) _ _ _

/-- The emergency flag is lost. -/
theorem not_lcBlock_reencoded_emergency :
    let out : DmrFullLc := ⟨0, false, false, 0, 0, 0, 0, #v[0, 0, 0]⟩
    let decoded := dmrFullLcDecode (lcBurst emergencyLc) out DMR_DATA_TYPE_VOICE_LC
    decoded.1 = 0 ∧ ¬ ∀ i : Fin 9,
      (lcBlock (dmrFullLcEncode (lcBurst emergencyLc) decoded.2 DMR_DATA_TYPE_VOICE_LC
        ⟨Vector.replicate 196 false, Vector.replicate 196 false⟩
        (Vector.replicate 264 false)).2)[i] = (lcBlock (lcBurst emergencyLc))[i] := by
  dsimp only
  refine ⟨dmrFullLcDecode_lcBurst _ _, fun hall => ?_⟩
  have h := hall 2
  rw [lcBlock_reencoded (.inl rfl) (dmrFullLcDecode_lcBurst _ _), lcBlock_lcBurst,
    reencodedOctets_two] at h
  exact absurd h (by decide)

/-! ## What else the encoder writes

Both encoders write all 33 bytes of the packet back from a local array of 264
bits, of which they fill the 196 information bits. -/

/-- The uninitialised part of the local array happens to hold the middle of the
packet. -/
def HoldsMiddle (bits : Vector Bool 264) (packet : DmrPacket) : Prop :=
  ∀ q : Fin 264, 98 ≤ q.val → q.val < 166 →
    bits.get q = packetBit packet q

/-- Nothing between the payload halves changes, and so neither does what is read
from there. -/
structure MiddlePreserved (packet packet' : DmrPacket) : Prop where
  bits : SameMiddle packet' packet
  sync : dmrSyncPatternDecode packet' = dmrSyncPatternDecode packet
  slotType : dmrSlotTypeDecode packet' = dmrSlotTypeDecode packet

/-- The bits of the burst settle the rest. -/
theorem middlePreserved_iff {packet packet' : DmrPacket} :
    MiddlePreserved packet packet' ↔ SameMiddle packet' packet :=
  ⟨fun h => h.bits, fun h => ⟨h, dmrSyncPatternDecode_congr h, dmrSlotTypeDecode_congr h⟩⟩

theorem sameMiddle_bptcEncode_iff (packet : DmrPacket) (bptc : DmrBptc196_96)
    (data : Vector UInt8 12) (bits : Vector Bool 264) :
    SameMiddle (dmrBptc196_96Encode packet bptc data bits).2.1 packet ↔
      HoldsMiddle bits packet := by
  refine forall_congr' fun q => forall_congr' fun hlo => forall_congr' fun hhi => ?_
  rw [packetBit_encode_middle packet bptc data bits q hlo hhi]
  exact Iff.rfl

/-- **Frame condition.** The BPTC encoder leaves the middle of the burst as it was
exactly when the uninitialised part of its local array held it already; so does the
link control encoder, unless it refuses the data type. -/
theorem middlePreserved_encode_iff (packet : DmrPacket) (bptc : DmrBptc196_96)
    (bits : Vector Bool 264) :
    (∀ data : Vector UInt8 12,
        MiddlePreserved packet (dmrBptc196_96Encode packet bptc data bits).2.1 ↔
          HoldsMiddle bits packet) ∧
      ∀ (lc : DmrFullLc) (t : DmrDataType),
        MiddlePreserved packet (dmrFullLcEncode packet lc t bptc bits).2 ↔
          ¬ LcDataType t ∨ HoldsMiddle bits packet := by
  constructor
  · intro data
    rw [middlePreserved_iff, sameMiddle_bptcEncode_iff]
  · intro lc t
    rw [middlePreserved_iff]
    by_cases ht : LcDataType t
    · rw [dmrFullLcEncode, if_neg ht.supported, sameMiddle_bptcEncode_iff]
      simp only [ht, not_true, false_or]
    · have hsup : t ≠ DMR_DATA_TYPE_VOICE_LC ∧ t ≠ DMR_DATA_TYPE_TERMINATOR_WITH_LC :=
        not_or.mp ht
      rw [dmrFullLcEncode, if_pos hsup]
      exact iff_of_true (fun _ _ _ => rfl) (.inl ht)

/-- An all-zero burst does not keep its middle when the local array is all ones. -/
theorem not_middlePreserved_encode :
    ¬ SameMiddle
      (dmrBptc196_96Encode (Vector.replicate 33 0)
        ⟨Vector.replicate 196 false, Vector.replicate 196 false⟩ (Vector.replicate 12 0)
        (Vector.replicate 264 true)).2.1
      (Vector.replicate 33 0) := by
  intro hsame
  rw [sameMiddle_bptcEncode_iff] at hsame
  exact absurd (hsame 98 (by decide) (by decide)) (by decide)

end Dmrlib
