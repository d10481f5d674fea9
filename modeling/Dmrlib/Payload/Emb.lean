import Dmrlib.PacketTypes
import Dmrlib.Fec.Qr167
import Dmrlib.Fec.Vbptc1611

/-!
# Embedded signalling (`src/dmr/payload/emb.c`)

A voice burst without SYNC carries colour code, privacy indicator and LCSS as a QR(16,7)
word, in four nibbles around the embedded payload.

The encoder puts the colour code at the bottom of the byte and the others above it. The
decoder looks for the colour code at the top, for the privacy indicator in what is the
highest bit of the colour code, and the code itself overwrites the lowest.

- `gatherEmb`, `scatterEmb`: the four nibbles, from the packet and into it.
- `dmrEmbEncode`, `dmrEmbDecode`: encoder and decoder.
- `dmrEmbLcssFragmentEncode`, `dmrEmbBytesDecode`: the 32 bits between the nibbles.
- `embKept_iff`: the signalling that the decoder reads as it was written, in any packet.
-/

namespace Dmrlib

/-- `dmr_emb_lcss` -/
abbrev DmrEmbLcss := UInt32

abbrev DMR_EMB_LCSS_SINGLE_FRAGMENT : DmrEmbLcss := 0x00
abbrev DMR_EMB_LCSS_FIRST_FRAGMENT : DmrEmbLcss := 0x01
abbrev DMR_EMB_LCSS_LAST_FRAGMENT : DmrEmbLcss := 0x02
abbrev DMR_EMB_LCSS_CONTINUATION : DmrEmbLcss := 0x03

/-- `dmr_emb` -/
structure DmrEmb where
  colorCode : DmrColorCode
  pi : Bool
  lcss : DmrEmbLcss
  crc : UInt16
deriving DecidableEq

/-- `emb_bytes`, as `dmr_emb_decode` gathers them. -/
def gatherEmb (packet : DmrPacket) : Vector UInt8 2 :=
  #v[((packet.get 13 <<< 4) &&& (0xf0 : UInt8)) |||
      ((packet[14] >>> 4) &&& (0x0f : UInt8)),
    ((packet[18] <<< 4) &&& (0xf0 : UInt8)) |||
      ((packet.get 19 >>> 4) &&& (0x0f : UInt8))]

/-- `dmr_emb_decode`: the return value and the signalling. -/
def dmrEmbDecode (packet : DmrPacket) (emb : DmrEmb) : Int × DmrEmb :=
  let embBytes := gatherEmb packet
  if dmrQr16_7Decode embBytes = false then (-1, emb)
  else (0, { emb with
    colorCode := (embBytes[0] >>> 4) &&& (0x0f : UInt8)
    pi := embBytes[0] &&& (0x08 : UInt8) = (0x08 : UInt8)
    lcss := ((embBytes[0] >>> 5) &&& (0x07 : UInt8)).toUInt32 })

/-- The byte that `dmr_emb_encode` protects. -/
def embByte (emb : DmrEmb) : UInt8 :=
  (emb.colorCode &&& (0x0f : UInt8)) |||
    (if emb.pi then (0x01 : UInt8) else 0x00) <<< (4 : UInt8) |||
    ((emb.lcss &&& 0x03) <<< 5).toUInt8

/-- The stores of `dmr_emb_encode` into the packet. -/
def scatterEmb (packet : DmrPacket) (embBytes : Vector UInt8 2) : DmrPacket :=
  let packet := packet.set (13 : Fin 33)
    ((packet.get 13 &&& (0xf0 : UInt8)) ||| (embBytes[0] >>> 4))
  let packet := packet.set 14 ((packet[14] &&& (0x0f : UInt8)) ||| (embBytes[0] <<< 4))
  let packet := packet.set 18 ((packet[18] &&& (0xf0 : UInt8)) ||| (embBytes[1] >>> 4))
  packet.set (19 : Fin 33)
    ((packet.get 19 &&& (0x0f : UInt8)) ||| (embBytes[1] <<< 4))

/-- `dmr_emb_encode`: the return value and the packet. -/
def dmrEmbEncode (packet : DmrPacket) (emb : DmrEmb) : Int × DmrPacket :=
  (0, scatterEmb packet (dmrQr16_7Encode #v[embByte emb, 0]))

/-- The stores of `dmr_emb_lcss_fragment_encode` into the packet. The last one leaves the
high nibble of byte 18 in the low one. -/
def scatterFragment (packet : DmrPacket) (lcBytes : Vector UInt8 4) : DmrPacket :=
  let packet := packet.set 14 ((packet[14] &&& (0xf0 : UInt8)) ||| (lcBytes[0] >>> 4))
  let packet := packet.set 15 ((lcBytes[0] <<< 4) ||| (lcBytes[1] >>> 4))
  let packet := packet.set 16 ((lcBytes[1] <<< 4) ||| (lcBytes[2] >>> 4))
  let packet := packet.set 17 ((lcBytes[2] <<< 4) ||| (lcBytes[3] >>> 4))
  packet.set 18 ((lcBytes[3] <<< 4) ||| (packet[18] >>> 4))

/-- `dmr_emb_lcss_fragment_encode`: the return value and the packet. `none` is `vbptc == NULL`,
for a fragment of zeros. -/
def dmrEmbLcssFragmentEncode {rows : Nat} (packet : DmrPacket) (emb : DmrEmb)
    (vbptc : Option (DmrVbptc16_11 rows)) (fragment : UInt8) : Int × DmrPacket :=
  let offset := fragment.toNat * 32
  let (ret, bits) : Int × Vector Bool 32 :=
    match vbptc with
    | none => (0, Vector.replicate 32 false)
    | some v => v.getFragment offset (Vector.replicate 32 false)
  if ret ≠ 0 then (-1, packet)
  else dmrEmbEncode (scatterFragment packet (dmrBitsToBytes bits (Vector.replicate 4 0))) emb

/-! ## The way through the packet -/

/-- Two nibbles that are stored on either side of a byte boundary. -/
theorem gather_nibbles (p q b : UInt8) :
    (((p &&& (0xf0 : UInt8)) ||| (b >>> 4)) <<< 4) &&& (0xf0 : UInt8) |||
      ((((q &&& (0x0f : UInt8)) ||| (b <<< 4)) >>> 4) &&& (0x0f : UInt8)) = b := by
  refine UInt8.eq_of_toBitVec_eq ?_
  ext i hi
  interval_cases i <;> simp

/-- The packet gives back what was stored. -/
theorem gatherEmb_scatterEmb (packet : DmrPacket) (embBytes : Vector UInt8 2) :
    gatherEmb (scatterEmb packet embBytes) = embBytes := by
  have h13 : Vector.get (scatterEmb packet embBytes) 13 =
      (packet.get 13 &&& (0xf0 : UInt8)) ||| (embBytes[0] >>> 4) := by simp [scatterEmb]
  have h14 : (scatterEmb packet embBytes)[14] =
      (packet[14] &&& (0x0f : UInt8)) ||| (embBytes[0] <<< 4) := by simp [scatterEmb]
  have h18 : (scatterEmb packet embBytes)[18] =
      (packet[18] &&& (0xf0 : UInt8)) ||| (embBytes[1] >>> 4) := by simp [scatterEmb]
  have h19 : Vector.get (scatterEmb packet embBytes) 19 =
      (packet.get 19 &&& (0x0f : UInt8)) ||| (embBytes[1] <<< 4) := by simp [scatterEmb]
  simp only [gatherEmb, h13, h14, h18, h19, gather_nibbles]
  refine Vector.ext fun i hi => ?_
  match i with
  | 0 => rfl
  | 1 => rfl

/-- What is decoded depends on the signalling alone, and is never rejected. -/
theorem dmrEmbDecode_dmrEmbEncode (packet : DmrPacket) (emb out : DmrEmb) :
    dmrEmbDecode (dmrEmbEncode packet emb).2 out =
      (0, { out with
        colorCode := ((dmrQr16_7Encode #v[embByte emb, 0])[0] >>> 4) &&& (0x0f : UInt8)
        pi := (dmrQr16_7Encode #v[embByte emb, 0])[0] &&& (0x08 : UInt8) = (0x08 : UInt8)
        lcss :=
          (((dmrQr16_7Encode #v[embByte emb, 0])[0] >>> 5) &&& (0x07 : UInt8)).toUInt32 }) := by
  have hcode := (dmrQr16_7Encode_spec #v[embByte emb, 0]).2
  unfold dmrEmbDecode dmrEmbEncode
  simp only [gatherEmb_scatterEmb, hcode, Bool.true_eq_false, if_false]

/-! ## The round trip -/

/-- Encoding and decoding succeed, and the signalling comes back. -/
def EmbKept (packet : DmrPacket) (emb : DmrEmb) : Prop :=
  (dmrEmbEncode packet emb).1 = 0 ∧
    ∀ out, ∃ emb', dmrEmbDecode (dmrEmbEncode packet emb).2 out = (0, emb') ∧
      emb'.colorCode = emb.colorCode ∧ emb'.pi = emb.pi ∧ emb'.lcss = emb.lcss

/-- The fields of the encoded byte, for every signalling. -/
theorem embByte_fields (colorCode : Fin 16) (pi : Bool) (lcss : Fin 4) :
    let b := (dmrQr16_7Encode #v[embByte ⟨UInt8.ofNat colorCode, pi, UInt32.ofNat lcss, 0⟩, 0])[0]
    ((b >>> 4) &&& (0x0f : UInt8) = UInt8.ofNat colorCode ∧
        decide (b &&& (0x08 : UInt8) = (0x08 : UInt8)) = pi ∧
        ((b >>> 5) &&& (0x07 : UInt8)).toUInt32 = UInt32.ofNat lcss) ↔
      pi = false ∧ colorCode.val = 2 * lcss.val := by
  revert colorCode pi lcss
  decide +kernel

/-- **Embedded signalling.** It survives exactly when the privacy indicator is clear and
the colour code is twice the LCSS, so that what the decoder takes for one is the other. -/
theorem embKept_iff (packet : DmrPacket) {emb : DmrEmb} (hc : emb.colorCode ≤ 15)
    (hl : emb.lcss ≤ DMR_EMB_LCSS_CONTINUATION) :
    EmbKept packet emb ↔ emb.pi = false ∧ emb.colorCode.toNat = 2 * emb.lcss.toNat := by
  have hc' : emb.colorCode.toNat < 16 := by
    have := UInt8.le_iff_toNat_le.mp hc
    exact Nat.lt_succ_of_le this
  have hl' : emb.lcss.toNat < 4 := by
    have := UInt32.le_iff_toNat_le.mp hl
    exact Nat.lt_succ_of_le this
  have hfields := embByte_fields ⟨emb.colorCode.toNat, hc'⟩ emb.pi ⟨emb.lcss.toNat, hl'⟩
  simp only [UInt8.ofNat_toNat, UInt32.ofNat_toNat] at hfields
  rw [← hfields]
  -- what is decoded are three fields of the byte on air, whatever `emb` held
  constructor
  · rintro ⟨-, h⟩
    obtain ⟨emb', hdecode, hcolor, hpi, hlcss⟩ := h emb
    rw [dmrEmbDecode_dmrEmbEncode, Prod.mk.injEq] at hdecode
    obtain ⟨-, rfl⟩ := hdecode
    exact ⟨hcolor, hpi, hlcss⟩
  · rintro ⟨hcolor, hpi, hlcss⟩
    exact ⟨rfl, fun out => ⟨_, dmrEmbDecode_dmrEmbEncode packet emb out, hcolor, hpi, hlcss⟩⟩

/-- A first fragment under colour code 2. -/
theorem embKept_iff_firstFragment :
    EmbKept (Vector.replicate 33 0) ⟨2, false, DMR_EMB_LCSS_FIRST_FRAGMENT, 0⟩ ↔
      (⟨2, false, DMR_EMB_LCSS_FIRST_FRAGMENT, 0⟩ : DmrEmb).pi = false ∧
        (⟨2, false, DMR_EMB_LCSS_FIRST_FRAGMENT, 0⟩ : DmrEmb).colorCode.toNat =
          2 * (⟨2, false, DMR_EMB_LCSS_FIRST_FRAGMENT, 0⟩ : DmrEmb).lcss.toNat :=
  embKept_iff _ (by decide) (by decide)

/-- The signalling of the repository's round-trip test comes back with colour code 5. -/
theorem not_embKept_test :
    ¬ EmbKept (Vector.replicate 33 0) ⟨1, true, DMR_EMB_LCSS_LAST_FRAGMENT, 0⟩ := by
  rintro ⟨-, h⟩
  obtain ⟨emb', hdecode, hcolor, -, -⟩ := h ⟨0, false, 0, 0⟩
  rw [dmrEmbDecode_dmrEmbEncode, Prod.mk.injEq] at hdecode
  obtain ⟨-, rfl⟩ := hdecode
  exact absurd hcolor (by decide)

/-! ## The two bytes that are read of a fragment -/

/-- `dmr_emb_bytes_decode`: the return value and `bytes`. -/
def dmrEmbBytesDecode (packet : DmrPacket) (bytes : Vector UInt8 4) : Int × Vector UInt8 4 :=
  let bytes := bytes.set 0 ((packet[14] <<< 4) &&& (0xf0 : UInt8))
  let bytes := bytes.set 0 (bytes[0] ||| ((packet[15] >>> 4) &&& (0x0f : UInt8)))
  let bytes := bytes.set 1 ((packet[15] <<< 4) &&& (0xf0 : UInt8))
  let bytes := bytes.set 1 (bytes[1] ||| ((packet[16] >>> 4) &&& (0x0f : UInt8)))
  (0, bytes)

theorem dmrEmbBytesDecode_getElem (packet : DmrPacket) (bytes : Vector UInt8 4) (i : Fin 4) :
    getElem (dmrEmbBytesDecode packet bytes).2 i i.isLt =
      if i = 0 then
        ((packet[14] <<< 4) &&& (0xf0 : UInt8)) ||| ((packet[15] >>> 4) &&& (0x0f : UInt8))
      else if i = 1 then
        ((packet[15] <<< 4) &&& (0xf0 : UInt8)) ||| ((packet[16] >>> 4) &&& (0x0f : UInt8))
      else getElem bytes i i.isLt := by
  fin_cases i <;> simp [dmrEmbBytesDecode]

end Dmrlib
