import Dmrlib.PacketTypes
import Dmrlib.Fec.Golay208
import Dmrlib.Payload.Sync

/-!
# Slot type and packet decoding (`src/dmr/packet.c`)

Ten bits on either side of the SYNC field carry the colour code and the data
type of a burst as a Golay(20,8) word. Encoder and decoder shift the word into
and out of packet bytes 12, 13, 19 and 20; each byte is shared with payload or
SYNC bits.

The decoder takes bits 2..7 of byte 19 where the encoder wrote bits 0..3, so two
SYNC bits overlay two check bits and two check bits read as zero
(`slotTypeWord_putSlotType`). The Golay code absorbs up to three wrong bits, which is
why the damage shows only for the pairs of `slotTypeFragile`, and there only
below a SYNC field that begins with two set bits.

`dmr_packet_decode` asks for the slot type only where it finds no SYNC pattern. A burst
that has both is a data header to it, of no colour code.

- `dmrSlotTypeEncode`, `dmrSlotTypeDecode`: the slot type of a burst.
- `dmrSlotTypeDecode_encode_iff`: the decoder returns what the encoder was given unless the pair
  is one of `slotTypeFragile` and the SYNC field begins with two set bits.
- `dmrPacketDecode`: a burst with its colour code and data type.
- `not_parsedTo_dataBurst`: no burst that carries both a slot type and a SYNC pattern of data is
  parsed to the two values that were put into it.
-/

namespace Dmrlib

/-! ## Binary constants (`include/dmr/bits/b.h`) -/

abbrev B00000011 : UInt8 := 0x03
abbrev B00001111 : UInt8 := 0x0f
abbrev B11000000 : UInt8 := 0xc0
abbrev B11110000 : UInt8 := 0xf0
abbrev B11111100 : UInt8 := 0xfc

/-! ## Decoder and encoder -/

/-- The word `dmr_slot_type_decode` assembles from packet bytes 12, 13, 19 and 20.
See Table E.1: Transmit bit order for BPTC general data burst with SYNC. -/
def slotTypeBytes (p12 p13 p19 p20 : UInt8) : Vector UInt8 3 :=
  #v[((p12 <<< 2) &&& B11111100) ||| ((p13 >>> 6) &&& B00000011),
    ((p13 <<< 2) &&& B11000000) ||| ((p19 <<< 2) &&& B11110000) ||| ((p20 >>> 6) &&& B00000011),
    (p20 <<< 2) &&& B11110000]

def slotTypeWord (packet : DmrPacket) : Vector UInt8 3 :=
  slotTypeBytes packet[12] packet[13] packet[19] packet[20]

/-- `dmr_slot_type_decode`: the return value, the colour code and the data type. -/
def dmrSlotTypeDecode (packet : DmrPacket) : Option (Int × DmrColorCode × DmrDataType) := do
  let code ← dmrGolay20_8Decode (slotTypeWord packet)
  return (0, (code &&& B11110000) >>> 4, (code &&& B00001111).toUInt32)

/-- The byte that the slot type protects. -/
def slotTypeByte (colorCode : DmrColorCode) (dataType : DmrDataType) : UInt8 :=
  (colorCode <<< 4) ||| (dataType &&& 0x0f).toUInt8

/-- The stores of `dmr_slot_type_encode` into the packet. -/
def putSlotType (packet : DmrPacket) (bytes : Vector UInt8 3) : DmrPacket :=
  let (byte0, byte1, byte2) := golayBytes bytes
  let packet := packet.set 12
    (packet[12] &&& (0xc0 : UInt8) ||| ((byte0 >>> 2) &&& (0x3f : UInt8)))
  let packet := packet.set 13
    (packet[13] &&& (0x0f : UInt8) ||| ((byte0 <<< 6) &&& (0xc0 : UInt8)) |||
      ((byte1 >>> 2) &&& (0x30 : UInt8)))
  let packet := packet.set 19
    (packet[19] &&& (0xf0 : UInt8) ||| ((byte1 >>> 2) &&& (0x0f : UInt8)))
  packet.set 20
    (packet[20] &&& (0x03 : UInt8) ||| ((byte1 <<< 6) &&& (0xc0 : UInt8)) |||
      ((byte2 >>> 2) &&& (0x3c : UInt8)))

/-- `dmr_slot_type_encode`: the return value and the packet. -/
def dmrSlotTypeEncode (packet : DmrPacket) (colorCode : DmrColorCode) (dataType : DmrDataType) :
    Int × DmrPacket :=
  if dataType ≥ DMR_DATA_TYPE_INVALID then (-1, packet)
  else if colorCode < 1 ∨ colorCode > 15 then (-1, packet)
  else (0, putSlotType packet (dmrGolay20_8Encode #v[slotTypeByte colorCode dataType, 0, 0]))

/-- Of bytes 12 and 20 only the bits inside the burst's middle matter. -/
theorem slotTypeBytes_masked (a b c d : UInt8) :
    slotTypeBytes a b c d = slotTypeBytes (a &&& (0x3f : UInt8)) b c (d &&& (0xfc : UInt8)) := by
  simp [slotTypeBytes]
  refine ⟨?_, ?_, ?_⟩
  all_goals
    refine UInt8.eq_of_toBitVec_eq ?_
    ext i hi
    interval_cases i <;> simp

/-- The slot type is read from the middle of the burst alone. -/
theorem slotTypeWord_congr {p p' : DmrPacket} (h : SameMiddle p p') :
    slotTypeWord p = slotTypeWord p' := by
  have h13 : p[13] = p'[13] := h.byte 0
  have h19 : p[19] = p'[19] := h.byte 6
  rw [slotTypeWord, slotTypeBytes_masked, h.byte12, h13, h19, h.byte20, ← slotTypeBytes_masked]
  rfl

theorem dmrSlotTypeDecode_congr {p p' : DmrPacket} (h : SameMiddle p p') :
    dmrSlotTypeDecode p = dmrSlotTypeDecode p' := by
  rw [dmrSlotTypeDecode, dmrSlotTypeDecode, slotTypeWord_congr h]

/-! ## What survives the trip through the packet -/

/-- The word comes back with bits 2 and 3 of its second byte lost, bits 6 and 7 of
that byte overlaid with bits 4 and 5 of packet byte 19, and its last four bits
cleared. -/
theorem slotTypeWord_putSlotType (packet : DmrPacket) (bytes : Vector UInt8 3) :
    slotTypeWord (putSlotType packet bytes) =
      #v[bytes.get 0,
        (bytes.get 1 &&& (0xf3 : UInt8)) ||| ((packet[19] <<< 2) &&& (0xc0 : UInt8)),
        bytes.get 2 &&& (0xf0 : UInt8)] := by
  simp [slotTypeWord, slotTypeBytes, putSlotType, golayBytes]
  refine ⟨?_, ?_, ?_⟩
  all_goals
    refine UInt8.eq_of_toBitVec_eq ?_
    ext i hi
    interval_cases i <;> simp

/-- What the decoder makes of the slot type `(colorCode, dataType)` in a packet
whose byte 19 carries the SYNC bits `sync` above the field. -/
def slotTypeReceived (colorCode : DmrColorCode) (dataType : DmrDataType) (sync : UInt8) :
    Option (Int × DmrColorCode × DmrDataType) := do
  let (byte0, byte1, byte2) := golayBytes
    (dmrGolay20_8Encode #v[slotTypeByte colorCode dataType, 0, 0])
  let code ← dmrGolay20_8Decode
    #v[byte0, (byte1 &&& (0xf3 : UInt8)) ||| (sync <<< 2), byte2 &&& (0xf0 : UInt8)]
  return (0, (code &&& B11110000) >>> 4, (code &&& B00001111).toUInt32)

/-- An encoded packet is decoded from the slot type and two SYNC bits alone. -/
theorem dmrSlotTypeDecode_encode (packet : DmrPacket) {colorCode : DmrColorCode}
    {dataType : DmrDataType} (hc : 1 ≤ colorCode ∧ colorCode ≤ 15)
    (ht : dataType < DMR_DATA_TYPE_INVALID) :
    (dmrSlotTypeEncode packet colorCode dataType).1 = 0 ∧
      dmrSlotTypeDecode (dmrSlotTypeEncode packet colorCode dataType).2 =
        slotTypeReceived colorCode dataType (packet[19] &&& (0x30 : UInt8)) := by
  have hsync : (packet[19] <<< 2) &&& (0xc0 : UInt8) = (packet[19] &&& (0x30 : UInt8)) <<< 2 := by
    refine UInt8.eq_of_toBitVec_eq ?_
    ext i hi
    interval_cases i <;> simp
  have hc' : ¬ (colorCode < 1 ∨ colorCode > 15) := by
    rw [not_or, UInt8.not_lt]
    exact ⟨hc.1, UInt8.not_lt.mpr hc.2⟩
  have henc : dmrSlotTypeEncode packet colorCode dataType =
      (0, putSlotType packet (dmrGolay20_8Encode #v[slotTypeByte colorCode dataType, 0, 0])) := by
    rw [dmrSlotTypeEncode, if_neg (UInt32.not_le.mpr ht), if_neg hc']
  rw [henc, dmrSlotTypeDecode, slotTypeWord_putSlotType, hsync]
  exact ⟨rfl, rfl⟩

/-- The slot types whose two lost check bits are zero and whose two overlaid check
bits are too, or would be read so: under set SYNC bits the Golay decoder meets more
errors than it can repair. -/
def slotTypeFragile : List (DmrColorCode × DmrDataType) :=
  [(1, DMR_DATA_TYPE_DATA_HEADER), (2, 0x09), (6, DMR_DATA_TYPE_MBC_HEADER),
    (7, DMR_DATA_TYPE_VOICE_LC), (8, DMR_DATA_TYPE_VOICE_PI), (9, 0x05), (13, 0x08), (14, 0x07),
    (15, DMR_DATA_TYPE_TERMINATOR_WITH_LC)]

theorem slotTypeReceived_iff (c : Fin 15) (t : Fin 10) (s : Fin 4) :
    slotTypeReceived (UInt8.ofNat (c + 1)) (UInt32.ofNat t) (UInt8.ofNat (s * 16)) =
        some (0, UInt8.ofNat (c + 1), UInt32.ofNat t) ↔
      ¬ ((UInt8.ofNat (c + 1), UInt32.ofNat t) ∈ slotTypeFragile ∧ s = 3) := by
  revert c t s
  decide +kernel

/-- The two SYNC bits above the slot type in byte 19 take four values. -/
theorem syncBits_cases (b : UInt8) : ∃ s : Fin 4, b &&& (0x30 : UInt8) = UInt8.ofNat (s * 16) := by
  have h : ∀ v : BitVec 8, ∃ s : Fin 4, UInt8.ofBitVec v &&& 0x30 = UInt8.ofNat (s * 16) := by
    decide +kernel
  exact h b.toBitVec

/-- **The slot type.** Encoding succeeds, and decoding gives the colour code and
data type back, unless the pair is fragile and the SYNC field begins with two set
bits. -/
theorem dmrSlotTypeDecode_encode_iff (packet : DmrPacket) {colorCode : DmrColorCode}
    {dataType : DmrDataType} (hc : 1 ≤ colorCode ∧ colorCode ≤ 15)
    (ht : dataType < DMR_DATA_TYPE_INVALID) :
    ((dmrSlotTypeEncode packet colorCode dataType).1 = 0 ∧
        dmrSlotTypeDecode (dmrSlotTypeEncode packet colorCode dataType).2 =
          some (0, colorCode, dataType)) ↔
      ¬ ((colorCode, dataType) ∈ slotTypeFragile ∧
        packet[19] &&& (0x30 : UInt8) = (0x30 : UInt8)) := by
  obtain ⟨hret, hdec⟩ := dmrSlotTypeDecode_encode packet hc ht
  obtain ⟨c, hcol⟩ : ∃ c : Fin 15, colorCode = UInt8.ofNat (c + 1) := by
    have h1 : 1 ≤ colorCode.toNat := UInt8.le_iff_toNat_le.mp hc.1
    have h2 : colorCode.toNat ≤ 15 := UInt8.le_iff_toNat_le.mp hc.2
    refine ⟨⟨colorCode.toNat - 1, by omega⟩, ?_⟩
    rw [Nat.sub_add_cancel h1, UInt8.ofNat_toNat]
  obtain ⟨t, hty⟩ : ∃ t : Fin 10, dataType = UInt32.ofNat t :=
    ⟨⟨dataType.toNat, UInt32.lt_iff_toNat_lt.mp ht⟩, UInt32.ofNat_toNat.symm⟩
  obtain ⟨s, hsync⟩ := syncBits_cases packet[19]
  have hs : ∀ s : Fin 4, UInt8.ofNat (s * 16) = (0x30 : UInt8) ↔ s = 3 := by decide
  rw [hdec, hret, hsync, hs, hcol, hty, slotTypeReceived_iff]
  exact and_iff_right rfl

/-- Any burst round-trips, say, colour code 1 and a terminator. -/
theorem dmrSlotTypeDecode_encode_terminator :
    ((dmrSlotTypeEncode (Vector.replicate 33 0xff) 1 DMR_DATA_TYPE_TERMINATOR_WITH_LC).1 = 0 ∧
        dmrSlotTypeDecode
          (dmrSlotTypeEncode (Vector.replicate 33 0xff) 1 DMR_DATA_TYPE_TERMINATOR_WITH_LC).2 =
          some (0, 1, DMR_DATA_TYPE_TERMINATOR_WITH_LC)) ↔
      ¬ (((1 : DmrColorCode), DMR_DATA_TYPE_TERMINATOR_WITH_LC) ∈ slotTypeFragile ∧
        (Vector.replicate 33 0xff : DmrPacket)[19] &&& (0x30 : UInt8) = (0x30 : UInt8)) :=
  dmrSlotTypeDecode_encode_iff _ (by decide) (by decide)

/-- A voice LC header with colour code 7 is misread when the SYNC bits above the
field are set. -/
theorem dmrSlotTypeDecode_encode_misread :
    ¬ ((dmrSlotTypeEncode (Vector.replicate 33 0xff) 7 DMR_DATA_TYPE_VOICE_LC).1 = 0 ∧
        dmrSlotTypeDecode (dmrSlotTypeEncode (Vector.replicate 33 0xff) 7 DMR_DATA_TYPE_VOICE_LC).2
          = some (0, 7, DMR_DATA_TYPE_VOICE_LC)) := by
  decide +kernel

/-! ## Decoding a burst -/

/-- A `dmr_parsed_packet` from `talloc_zero`. -/
def DmrParsedPacket.zero : DmrParsedPacket where
  packet := Vector.replicate 33 0
  ts := DMR_TS1
  flco := 0
  srcId := 0
  dstId := 0
  repeaterId := 0
  dataType := DMR_DATA_TYPE_VOICE_PI
  colorCode := 0
  sequence := 0
  streamId := 0
  voiceFrame := 0
  parsed := false

/-- The switch of `dmr_packet_decode`. -/
def decodePattern (parsed : DmrParsedPacket) : DmrSyncPattern → Option DmrParsedPacket
  | .bsSourcedData | .msSourcedData => some { parsed with dataType := DMR_DATA_TYPE_DATA_HEADER }
  | .bsSourcedVoice | .msSourcedVoice =>
    some { parsed with dataType := DMR_DATA_TYPE_VOICE_SYNC, voiceFrame := 0 }
  | .directDataTs1 => some { parsed with dataType := DMR_DATA_TYPE_DATA_HEADER, ts := DMR_TS1 }
  | .directDataTs2 => some { parsed with dataType := DMR_DATA_TYPE_DATA_HEADER, ts := DMR_TS2 }
  | .directVoiceTs1 => some { parsed with dataType := DMR_DATA_TYPE_VOICE_SYNC, ts := DMR_TS1 }
  | .directVoiceTs2 => some { parsed with dataType := DMR_DATA_TYPE_VOICE_SYNC, ts := DMR_TS2 }
  | .msSourcedRc | .unknown => do
    let (_, colorCode, dataType) ← dmrSlotTypeDecode parsed.packet
    return { parsed with colorCode, dataType }

/-- `dmr_packet_decode`: the inner `none` is `NULL`, for want of memory. -/
def dmrPacketDecode (allocated : Bool) (packet : DmrPacket) : Option (Option DmrParsedPacket) :=
  if allocated then do
    let parsed ← decodePattern { DmrParsedPacket.zero with packet } (dmrSyncPatternDecode packet)
    return some { parsed with parsed := true }
  else some none

/-- Whatever the pattern, the burst itself is kept. -/
theorem decodePattern_total (parsed : DmrParsedPacket) (pattern : DmrSyncPattern) :
    ∃ parsed', decodePattern parsed pattern = some parsed' ∧ parsed'.packet = parsed.packet := by
  obtain ⟨code, hcode⟩ := dmrGolay20_8Decode_total (slotTypeWord parsed.packet)
  have hslot : dmrSlotTypeDecode parsed.packet =
      some ((0 : Int), (code &&& B11110000) >>> 4, (code &&& B00001111).toUInt32) := by
    rw [dmrSlotTypeDecode, hcode]
    rfl
  cases pattern
  case msSourcedRc | unknown =>
    refine ⟨{ parsed with
      colorCode := (code &&& B11110000) >>> 4
      dataType := (code &&& B00001111).toUInt32 }, ?_, rfl⟩
    show (dmrSlotTypeDecode parsed.packet).bind _ = _
    rw [hslot]
    rfl
  all_goals exact ⟨_, rfl, rfl⟩

/-- With memory for it, any 33 bytes decode to a packet that holds them. -/
theorem dmrPacketDecode_allocated (packet : DmrPacket) :
    ∃ parsed, dmrPacketDecode true packet = some (some parsed) ∧ parsed.packet = packet := by
  obtain ⟨parsed, hparsed, hpacket⟩ :=
    decodePattern_total { DmrParsedPacket.zero with packet } (dmrSyncPatternDecode packet)
  refine ⟨{ parsed with parsed := true }, ?_, hpacket⟩
  rw [dmrPacketDecode, if_pos rfl, hparsed]
  rfl

/-- Any 33 bytes decode to something. -/
theorem dmrPacketDecode_total (allocated : Bool) (packet : DmrPacket) :
    ∃ parsed, dmrPacketDecode allocated packet = some parsed := by
  cases allocated with
  | false => exact ⟨none, rfl⟩
  | true =>
    obtain ⟨parsed, hparsed, -⟩ := dmrPacketDecode_allocated packet
    exact ⟨some parsed, hparsed⟩

/-! ## Data bursts -/

/-- The slot type is stored outside the SYNC field. -/
theorem CarriesSync.putSlotType {packet : DmrPacket} {pattern : DmrSyncPattern}
    (h : CarriesSync packet pattern) (bytes : Vector UInt8 3) :
    CarriesSync (putSlotType packet bytes) pattern := by
  obtain ⟨sync, hmem, hsync⟩ := h
  have h13 : (0x0f : UInt8) &&& (Dmrlib.putSlotType packet bytes)[13] =
      (0x0f : UInt8) &&& packet[13] := by
    simp [Dmrlib.putSlotType, golayBytes]
    refine UInt8.eq_of_toBitVec_eq ?_
    ext i hi
    interval_cases i <;> simp
  have h19 : (0xf0 : UInt8) &&& (Dmrlib.putSlotType packet bytes)[19] =
      (0xf0 : UInt8) &&& packet[19] := by
    simp [Dmrlib.putSlotType, golayBytes]
    refine UInt8.eq_of_toBitVec_eq ?_
    ext i hi
    interval_cases i <;> simp
  -- between the two bytes that are shared, nothing is stored
  have hinner : ∀ j (hj : j < 33), 13 < j → j < 19 →
      (Dmrlib.putSlotType packet bytes)[j] = packet[j] := by
    intro j hj hlo hhi
    simp [Dmrlib.putSlotType, golayBytes, show 20 ≠ j by omega, show 19 ≠ j by omega,
      show 13 ≠ j by omega, show 12 ≠ j by omega]
  refine ⟨sync, hmem, fun i => ?_⟩
  rw [← hsync i]
  by_cases hfirst : i = 0
  · rw [hfirst]
    exact h13
  by_cases hlast : i = 6
  · rw [hlast]
    exact h19
  · have hi : 0 < i.val ∧ i.val < 6 := by
      have := i.isLt
      have h0 : i.val ≠ 0 := fun h => hfirst (Fin.ext h)
      have h6 : i.val ≠ 6 := fun h => hlast (Fin.ext h)
      omega
    rw [hinner (13 + i.val) (by omega) (by omega) (by omega)]

theorem CarriesSync.dmrSlotTypeEncode {packet : DmrPacket} {pattern : DmrSyncPattern}
    (h : CarriesSync packet pattern) (colorCode : DmrColorCode) (dataType : DmrDataType) :
    CarriesSync (dmrSlotTypeEncode packet colorCode dataType).2 pattern := by
  unfold Dmrlib.dmrSlotTypeEncode
  split
  · exact h
  · split
    · exact h
    · exact h.putSlotType _

/-- A data burst is a data header without a colour code, whatever its slot type says. -/
theorem CarriesSync.dmrPacketDecode_data {packet : DmrPacket} {pattern : DmrSyncPattern}
    (hdata : pattern = .bsSourcedData ∨ pattern = .msSourcedData)
    (h : CarriesSync packet pattern) :
    dmrPacketDecode true packet = some (some { DmrParsedPacket.zero with
      packet := packet
      dataType := DMR_DATA_TYPE_DATA_HEADER
      parsed := true }) := by
  rw [dmrPacketDecode, if_pos rfl, h.dmrSyncPatternDecode_eq]
  obtain rfl | rfl := hdata <;> rfl

/-- A burst is parsed to a data type and a colour code. -/
def ParsedTo (packet : DmrPacket) (colorCode : DmrColorCode) (dataType : DmrDataType) : Prop :=
  ∃ parsed, dmrPacketDecode true packet = some (some parsed) ∧ parsed.dataType = dataType ∧
    parsed.colorCode = colorCode

/-- **Data bursts.** None is parsed to its colour code, in whichever order its slot type and
its SYNC pattern were written. -/
theorem not_parsedTo_dataBurst (packet : DmrPacket) {colorCode : DmrColorCode}
    (hc : 1 ≤ colorCode ∧ colorCode ≤ 15) (dataType : DmrDataType) {pattern : DmrSyncPattern}
    (hpattern : pattern = .bsSourcedData ∨ pattern = .msSourcedData) :
    ¬ ParsedTo (dmrSyncPatternEncode (dmrSlotTypeEncode packet colorCode dataType).2 pattern).2
        colorCode dataType ∧
      ¬ ParsedTo (dmrSlotTypeEncode (dmrSyncPatternEncode packet pattern).2 colorCode dataType).2
        colorCode dataType := by
  have hknown : pattern ≠ .unknown := by
    rintro rfl
    obtain h | h := hpattern <;> cases h
  have hnot : ∀ burst, CarriesSync burst pattern → ¬ ParsedTo burst colorCode dataType := by
    rintro burst hburst ⟨parsed, hparsed, -, hcolor⟩
    rw [hburst.dmrPacketDecode_data hpattern, Option.some.injEq, Option.some.injEq] at hparsed
    rw [← hparsed] at hcolor
    rw [← hcolor] at hc
    exact absurd (show (1 : UInt8) ≤ 0 from hc.1) (by decide)
  constructor
  · exact hnot _ (dmrSyncPatternEncode_spec _ hknown).2
  · exact hnot _ ((dmrSyncPatternEncode_spec packet hknown).2.dmrSlotTypeEncode _ _)

/-- A voice LC header of a base station. -/
theorem not_parsedTo_dataBurst_voiceLc :
    ¬ ParsedTo (dmrSyncPatternEncode (dmrSlotTypeEncode (Vector.replicate 33 0) 1
          DMR_DATA_TYPE_VOICE_LC).2 .bsSourcedData).2 1 DMR_DATA_TYPE_VOICE_LC ∧
      ¬ ParsedTo (dmrSlotTypeEncode (dmrSyncPatternEncode (Vector.replicate 33 0)
          .bsSourcedData).2 1 DMR_DATA_TYPE_VOICE_LC).2 1 DMR_DATA_TYPE_VOICE_LC :=
  not_parsedTo_dataBurst _ (by decide) _ (.inl rfl)

/-- The voice LC header is taken for a data header without a colour code. -/
theorem not_parsedTo_voiceLcHeader :
    ¬ ParsedTo
      (dmrSyncPatternEncode
        (dmrSlotTypeEncode (Vector.replicate 33 0) 1 DMR_DATA_TYPE_VOICE_LC).2 .bsSourcedData).2
      1 DMR_DATA_TYPE_VOICE_LC := by
  rintro ⟨parsed, hparsed, hdata, -⟩
  rw [(dmrSyncPatternEncode_spec _ (by decide)).2.dmrPacketDecode_data (.inl rfl),
    Option.some.injEq, Option.some.injEq] at hparsed
  rw [← hparsed] at hdata
  exact absurd (show DMR_DATA_TYPE_DATA_HEADER = DMR_DATA_TYPE_VOICE_LC from hdata) (by decide)

end Dmrlib
