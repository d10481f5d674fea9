import Dmrlib.Bits

/-!
# Packets (`include/dmr/packet.h`)

A DMR burst is 33 bytes on the air interface; `DmrParsedPacket` is the burst
together with what the library knows about it. Enumerations whose values come
off the wire or out of a script keep their C representation, an unsigned
integer, with the enumerators as constants.

- `DmrPacket`: the 33 bytes of a burst.
- `DmrParsedPacket`: a burst with the ids, the slot, the data type and the colour code of it.
- `packetBit`, `flipBit`: one bit of a burst, and the burst with that bit inverted.
- `SameMiddle`: two bursts that agree in the 68 bits between the two halves of the payload, where
  SYNC and slot type are.
-/

namespace Dmrlib

/-- `dmr_packet`: `DMR_PACKET_LEN` is 33 and `DMR_PACKET_BITS` is 264. -/
abbrev DmrPacket := Vector UInt8 33

/-- `dmr_data_type` -/
abbrev DmrDataType := UInt32

abbrev DMR_DATA_TYPE_VOICE_PI : DmrDataType := 0x00
abbrev DMR_DATA_TYPE_VOICE_LC : DmrDataType := 0x01
abbrev DMR_DATA_TYPE_TERMINATOR_WITH_LC : DmrDataType := 0x02
abbrev DMR_DATA_TYPE_CSBK : DmrDataType := 0x03
abbrev DMR_DATA_TYPE_MBC_HEADER : DmrDataType := 0x04
abbrev DMR_DATA_TYPE_DATA_HEADER : DmrDataType := 0x06
abbrev DMR_DATA_TYPE_RATE34_DATA : DmrDataType := 0x08
abbrev DMR_DATA_TYPE_INVALID : DmrDataType := 0x0a
abbrev DMR_DATA_TYPE_VOICE_SYNC : DmrDataType := 0xf0
abbrev DMR_DATA_TYPE_VOICE : DmrDataType := 0xf1

/-- `dmr_color_code` -/
abbrev DmrColorCode := UInt8

/-- `dmr_id` -/
abbrev DmrId := UInt32

/-- `dmr_ts` -/
abbrev DmrTs := UInt32

abbrev DMR_TS1 : DmrTs := 0
abbrev DMR_TS2 : DmrTs := 1

/-- `dmr_flco` -/
abbrev DmrFlco := UInt32

abbrev DMR_FLCO_GROUP : DmrFlco := 0
abbrev DMR_FLCO_PRIVATE : DmrFlco := 1

/-- `dmr_parsed_packet` -/
structure DmrParsedPacket where
  packet : DmrPacket
  ts : DmrTs
  flco : DmrFlco
  srcId : DmrId
  dstId : DmrId
  repeaterId : DmrId
  dataType : DmrDataType
  colorCode : DmrColorCode
  sequence : UInt8
  streamId : UInt32
  voiceFrame : UInt8
  parsed : Bool
deriving DecidableEq

/-! ## Bits of a packet -/

/-- Bit `q` of the burst, in transmission order. -/
def packetBit (packet : DmrPacket) (q : Fin 264) : Bool :=
  (dmrByteToBits packet[q.val / 8])[q.val % 8]

/-- The burst with bit `q` received wrong. -/
def flipBit (packet : DmrPacket) (q : Fin 264) : DmrPacket :=
  packet.set (q.val / 8) (packet[q.val / 8] ^^^ (0x80 >>> UInt8.ofNat (q.val % 8)))

/-- Inverting one bit of a byte. -/
theorem dmrByteToBits_xor_mask (b : UInt8) (i j : Fin 8) :
    getElem (dmrByteToBits (b ^^^ (0x80 >>> UInt8.ofNat i))) j j.isLt =
      (getElem (dmrByteToBits b) j j.isLt ^^ decide (j = i)) := by
  have hmask : ∀ i j : Fin 8,
      ((0x80 : UInt8) >>> UInt8.ofNat i).toBitVec.getMsbD j = decide (j = i) := by
    decide
  rw [dmrByteToBits_getElem, dmrByteToBits_getElem, UInt8.toBitVec_xor, BitVec.getMsbD_xor,
    hmask]

theorem packetBit_flipBit (packet : DmrPacket) (q r : Fin 264) :
    packetBit (flipBit packet q) r = (packetBit packet r ^^ decide (r = q)) := by
  unfold packetBit flipBit
  by_cases hdiv : q.val / 8 = r.val / 8
  · have h := dmrByteToBits_xor_mask packet[r.val / 8] ⟨q.val % 8, Nat.mod_lt _ (by decide)⟩
      ⟨r.val % 8, Nat.mod_lt _ (by decide)⟩
    have hiff : (r.val % 8 = q.val % 8) ↔ r = q :=
      ⟨fun hm => Fin.ext (by omega), fun hrq => by rw [hrq]⟩
    simpa [hdiv, hiff] using h
  · have hne : r ≠ q := fun hrq => hdiv (by rw [hrq])
    simp [hdiv, hne]

/-- Unpacking a packet yields its bits. -/
theorem dmrBytesToBits_packet (packet : DmrPacket) (bits : Vector Bool 264)
    (q : Fin 264) :
    (dmrBytesToBits packet bits)[q] = packetBit packet q :=
  dmrBytesToBits_getElem packet bits q.isLt (by omega) (by omega)

/-- Packing bits yields the packet with those bits. -/
theorem packetBit_dmrBitsToBytes (bits : Vector Bool 264) (packet : DmrPacket)
    (q : Fin 264) :
    packetBit (dmrBitsToBytes bits packet) q = bits[q] := by
  rw [← dmrBytesToBits_packet _ bits, dmrBytesToBits_dmrBitsToBytes (n := 33)]

/-! ## The middle of a burst

Bits 98..165 lie between the two halves of the payload: slot type, SYNC or EMB,
slot type. -/

/-- The two bursts agree between their payload halves. -/
def SameMiddle (p p' : DmrPacket) : Prop :=
  ∀ q : Fin 264, 98 ≤ q.val → q.val < 166 → packetBit p q = packetBit p' q

/-- Bytes whose bits agree wherever a mask is set agree under the mask. -/
theorem and_mask_eq {a b m : UInt8}
    (h : ∀ j : Fin 8, getElem (dmrByteToBits m) j j.isLt = true →
      getElem (dmrByteToBits a) j j.isLt =
      getElem (dmrByteToBits b) j j.isLt) :
    a &&& m = b &&& m := by
  refine byte_ext fun j => ?_
  have hj := h j
  simp only [dmrByteToBits_getElem] at hj ⊢
  rw [UInt8.toBitVec_and, UInt8.toBitVec_and, BitVec.getMsbD_and, BitVec.getMsbD_and]
  cases hm : m.toBitVec.getMsbD j
  · rw [Bool.and_false, Bool.and_false]
  · rw [hj hm]

namespace SameMiddle

variable {p p' : DmrPacket}

theorem bit (h : SameMiddle p p') {i : Nat} (hi : i < 33) {j : Fin 8} (hlo : 98 ≤ 8 * i + j.val)
    (hhi : 8 * i + j.val < 166) : 
      getElem (dmrByteToBits p[i]) j j.isLt = getElem (dmrByteToBits p'[i]) j j.isLt := by
  have hq := h ⟨8 * i + j, by omega⟩ hlo hhi
  have hdiv : (8 * i + (j : Nat)) / 8 = i := by omega
  have hmod : (8 * i + (j : Nat)) % 8 = j := by omega
  simpa only [packetBit, hdiv, hmod, Fin.getElem_fin] using hq

/-- Bytes 13..19 lie in the middle as a whole … -/
theorem byte (h : SameMiddle p p') (i : Fin 7) : 
    getElem p (13 + i.val) (Nat.lt_of_lt_of_le (Nat.add_lt_add_left i.isLt 13) (by decide)) =
      getElem p' (13 + i.val) (Nat.lt_of_lt_of_le (Nat.add_lt_add_left i.isLt 13) (by decide)) :=
  byte_ext fun _ => h.bit (by omega) (by omega) (by omega)

/-- … byte 12 with its last six bits … -/
theorem byte12 (h : SameMiddle p p') : 
    getElem p 12 (by decide) &&& (0x3f : UInt8) = getElem p' 12 (by decide) &&& (0x3f : UInt8) := by
  refine and_mask_eq fun j hj => ?_
  have hj2 : 2 ≤ j.val := by
    revert j
    decide
  exact h.bit (by omega) (by omega) (by omega)

/-- … and byte 20 with its first six. -/
theorem byte20 (h : SameMiddle p p') : 
    getElem p 20 (by decide) &&& (0xfc : UInt8) = getElem p' 20 (by decide) &&& (0xfc : UInt8) := by
  refine and_mask_eq fun j hj => ?_
  have hj6 : j.val < 6 := by
    revert j
    decide
  exact h.bit (by omega) (by omega) (by omega)

end SameMiddle

end Dmrlib
