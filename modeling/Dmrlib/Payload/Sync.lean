import Dmrlib.PacketTypes

/-!
# Payload SYNC data (`src/dmr/payload/sync.c`)

The 48 bits in the middle of a burst hold one of nine SYNC patterns, or embedded
signalling. The decoder compares bytes 13..19 of the packet with each pattern in
turn, ignoring the outer nibble at either end, and takes the first that differs in
fewer than four bits.

- `dmrSyncPatterns`, `dmrSyncPatternMask`: the patterns, and the bits that count.
- `dmrBitDiff`: the number of bits in which a field differs from a pattern.
- `dmrSyncPatternDecode`, `dmrSyncPatternEncode`: decoder and encoder.
- `CarriesSync`: a burst with a pattern in its middle; `CarriesSync.dmrSyncPatternDecode_eq` says
  that the decoder finds it.
-/

namespace Dmrlib

open Loop

/-- `dmr_sync_pattern` -/
inductive DmrSyncPattern where
  | bsSourcedVoice
  | bsSourcedData
  | msSourcedVoice
  | msSourcedData
  | msSourcedRc
  | directVoiceTs1
  | directDataTs1
  | directVoiceTs2
  | directDataTs2
  | unknown
deriving DecidableEq

/-- The patterns, in the order in which they are tried. -/
def dmrSyncPatterns : List (DmrSyncPattern × Vector UInt8 7) :=
  [(.bsSourcedVoice, #v[0x07, 0x55, 0xFD, 0x7D, 0xF7, 0x5F, 0x70]),
    (.bsSourcedData, #v[0x0D, 0xFF, 0x57, 0xD7, 0x5D, 0xF5, 0xD0]),
    (.msSourcedVoice, #v[0x07, 0xF7, 0xD5, 0xDD, 0x57, 0xDF, 0xD0]),
    (.msSourcedData, #v[0x0D, 0x5D, 0x7F, 0x77, 0xFD, 0x75, 0x70]),
    (.msSourcedRc, #v[0x07, 0x7D, 0x55, 0xF7, 0xDF, 0xD7, 0x70]),
    (.directVoiceTs1, #v[0x05, 0xD5, 0x77, 0xF7, 0x75, 0x7F, 0xF0]),
    (.directDataTs1, #v[0x0F, 0x7F, 0xDD, 0x5D, 0xDF, 0xD5, 0x50]),
    (.directVoiceTs2, #v[0x07, 0xDF, 0xFD, 0x5F, 0x55, 0xD5, 0xF0]),
    (.directDataTs2, #v[0x0D, 0x75, 0x57, 0xF5, 0xFF, 0x7F, 0x50])]

/-- `dmr_sync_pattern_mask` -/
def dmrSyncPatternMask : Vector UInt8 7 := #v[0x0F, 0xFF, 0xFF, 0xFF, 0xFF, 0xFF, 0xF0]

/-- `dmr_sync_delta_max` -/
def dmrSyncDeltaMax : UInt8 := 4

/-- `dmr_sync_bits`: the number of set bits of a byte. -/
def dmrSyncBits : Vector (Vector UInt8 16) 16 := #v[
  #v[0, 1, 1, 2, 1, 2, 2, 3, 1, 2, 2, 3, 2, 3, 3, 4],
  #v[1, 2, 2, 3, 2, 3, 3, 4, 2, 3, 3, 4, 3, 4, 4, 5],
  #v[1, 2, 2, 3, 2, 3, 3, 4, 2, 3, 3, 4, 3, 4, 4, 5],
  #v[2, 3, 3, 4, 3, 4, 4, 5, 3, 4, 4, 5, 4, 5, 5, 6],
  #v[1, 2, 2, 3, 2, 3, 3, 4, 2, 3, 3, 4, 3, 4, 4, 5],
  #v[2, 3, 3, 4, 3, 4, 4, 5, 3, 4, 4, 5, 4, 5, 5, 6],
  #v[2, 3, 3, 4, 3, 4, 4, 5, 3, 4, 4, 5, 4, 5, 5, 6],
  #v[3, 4, 4, 5, 4, 5, 5, 6, 4, 5, 5, 6, 5, 6, 6, 7],
  #v[1, 2, 2, 3, 2, 3, 3, 4, 2, 3, 3, 4, 3, 4, 4, 5],
  #v[2, 3, 3, 4, 3, 4, 4, 5, 3, 4, 4, 5, 4, 5, 5, 6],
  #v[2, 3, 3, 4, 3, 4, 4, 5, 3, 4, 4, 5, 4, 5, 5, 6],
  #v[3, 4, 4, 5, 4, 5, 5, 6, 4, 5, 5, 6, 5, 6, 6, 7],
  #v[2, 3, 3, 4, 3, 4, 4, 5, 3, 4, 4, 5, 4, 5, 5, 6],
  #v[3, 4, 4, 5, 4, 5, 5, 6, 4, 5, 5, 6, 5, 6, 6, 7],
  #v[3, 4, 4, 5, 4, 5, 5, 6, 4, 5, 5, 6, 5, 6, 6, 7],
  #v[4, 5, 5, 6, 5, 6, 6, 7, 5, 6, 6, 7, 6, 7, 7, 8]]

/-- `dmr_bit_diff` -/
def dmrBitDiff (a b : Vector UInt8 7) : UInt8 :=
  forLoop 7 (fun i delta =>
    delta + byteTable dmrSyncBits (dmrSyncPatternMask[i] &&& (a[i] ^^^ b[i]))) 0

/-- `buf`: the seven packet bytes that hold the SYNC field. -/
def syncField (packet : DmrPacket) : Vector UInt8 7 :=
  Vector.ofFn fun i => packet[13 + i.val]

/-- `dmr_sync_pattern_decode` -/
def dmrSyncPatternDecode (packet : DmrPacket) : DmrSyncPattern :=
  match dmrSyncPatterns.find? fun p => dmrBitDiff (syncField packet) p.2 < dmrSyncDeltaMax with
  | some p => p.1
  | none => .unknown

/-- `dmr_sync_pattern_encode`: the return value and the packet. -/
def dmrSyncPatternEncode (packet : DmrPacket) (pattern : DmrSyncPattern) : Int × DmrPacket :=
  match dmrSyncPatterns.find? fun p => p.1 = pattern with
  | none => (-1, packet)
  | some (_, syncPattern) =>
    (0, forLoop 7 (fun i (packet : DmrPacket) =>
      packet.set (13 + i.val)
        (packet[13 + i.val] &&& ~~~dmrSyncPatternMask[i] ||| syncPattern[i])) packet)

/-- The SYNC pattern is read from the middle of the burst alone. -/
theorem dmrSyncPatternDecode_congr {p p' : DmrPacket} (h : SameMiddle p p') :
    dmrSyncPatternDecode p = dmrSyncPatternDecode p' := by
  have hfield : syncField p = syncField p' := congrArg Vector.ofFn (funext h.byte)
  unfold dmrSyncPatternDecode
  rw [hfield]

/-! ## Encoding and decoding -/

theorem and_xor_and (m a b : UInt8) : m &&& (a ^^^ b) = (m &&& a) ^^^ (m &&& b) := by
  refine UInt8.toNat_inj.mp ?_
  rw [UInt8.toNat_and, UInt8.toNat_xor, UInt8.toNat_xor, UInt8.toNat_and, UInt8.toNat_and,
    Nat.and_xor_distrib_left]

/-- The decoder looks at the bits under the mask alone. -/
theorem dmrBitDiff_congr {a a' : Vector UInt8 7}
    (h : ∀ i : Fin 7, dmrSyncPatternMask[i] &&& a[i] = dmrSyncPatternMask[i] &&& a'[i])
    (b : Vector UInt8 7) : dmrBitDiff a b = dmrBitDiff a' b := by
  have hxor : ∀ i : Fin 7, dmrSyncPatternMask[i] &&& (a[i] ^^^ b[i]) =
      dmrSyncPatternMask[i] &&& (a'[i] ^^^ b[i]) := by
    intro i
    rw [and_xor_and, h i, ← and_xor_and]
  unfold dmrBitDiff
  simp only [hxor]

/-- The SYNC field of a packet, without the two nibbles outside, is the pattern. -/
def CarriesSync (packet : DmrPacket) (pattern : DmrSyncPattern) : Prop :=
  ∃ bytes, (pattern, bytes) ∈ dmrSyncPatterns ∧
    ∀ i : Fin 7, dmrSyncPatternMask[i] &&& packet[13 + i.val] = bytes[i]

/-- No pattern is taken for an earlier one. -/
theorem find?_dmrSyncPatterns : ∀ p ∈ dmrSyncPatterns,
    dmrSyncPatterns.find? (fun q => dmrBitDiff p.2 q.2 < dmrSyncDeltaMax) = some p := by
  decide +kernel

/-- Under the mask, the SYNC field is a pattern. -/
theorem CarriesSync.exists_bytes {packet : DmrPacket} {pattern : DmrSyncPattern}
    (h : CarriesSync packet pattern) : ∃ bytes, (pattern, bytes) ∈ dmrSyncPatterns ∧
      ∀ i : Fin 7, dmrSyncPatternMask[i] &&& (syncField packet)[i] =
        dmrSyncPatternMask[i] &&& bytes[i] := by
  obtain ⟨bytes, hmem, hbytes⟩ := h
  refine ⟨bytes, hmem, fun i => ?_⟩
  have hi : (syncField packet)[i] = packet[13 + i.val] := Vector.getElem_ofFn _
  rw [hi, ← hbytes i, ← UInt8.and_assoc, UInt8.and_self]

theorem CarriesSync.dmrSyncPatternDecode_eq {packet : DmrPacket} {pattern : DmrSyncPattern}
    (h : CarriesSync packet pattern) : dmrSyncPatternDecode packet = pattern := by
  obtain ⟨bytes, hmem, hfield⟩ := h.exists_bytes
  unfold dmrSyncPatternDecode
  simp only [dmrBitDiff_congr hfield]
  rw [find?_dmrSyncPatterns _ hmem]

/-- Overwriting the bits under a mask. -/
theorem and_overwrite {m v : UInt8} (b : UInt8) (hv : m &&& v = v) :
    m &&& (b &&& ~~~m ||| v) = v := by
  refine UInt8.eq_of_toBitVec_eq (BitVec.eq_of_getLsbD_eq fun i hi => ?_)
  have hbit := congrArg (fun x : UInt8 => x.toBitVec.getLsbD i) hv
  simp only [UInt8.toBitVec_and, UInt8.toBitVec_or, UInt8.toBitVec_not, BitVec.getLsbD_and,
    BitVec.getLsbD_or, BitVec.getLsbD_not] at hbit ⊢
  cases hm : m.toBitVec.getLsbD i
  · rw [← hbit, hm, Bool.false_and, Bool.false_and]
  · simp

/-- Encoding a pattern succeeds, and leaves it in the packet. -/
theorem dmrSyncPatternEncode_spec (packet : DmrPacket) {pattern : DmrSyncPattern}
    (hpattern : pattern ≠ .unknown) :
    (dmrSyncPatternEncode packet pattern).1 = 0 ∧
      CarriesSync (dmrSyncPatternEncode packet pattern).2 pattern := by
  -- no pattern has bits outside the mask, so what is stored can be read back
  obtain ⟨bytes, hfind, hmem, hmask⟩ : ∃ bytes,
      dmrSyncPatterns.find? (fun p => p.1 = pattern) = some (pattern, bytes) ∧
      (pattern, bytes) ∈ dmrSyncPatterns ∧
      ∀ i : Fin 7, dmrSyncPatternMask[i] &&& bytes[i] = bytes[i] := by
    cases pattern with
    | unknown => exact absurd rfl hpattern
    | _ => exact ⟨_, rfl, by decide, by decide⟩
  have hinj : Function.Injective (fun i : Fin 7 => (⟨13 + i.val, by omega⟩ : Fin 33)) := by
    intro i j hij
    have h : 13 + i.val = 13 + j.val := congrArg Fin.val hij
    exact Fin.ext (by omega)
  rw [dmrSyncPatternEncode, hfind]
  refine ⟨rfl, bytes, hmem, fun i => ?_⟩
  have hi := forLoop_modify hinj
    (fun i (b : UInt8) => b &&& ~~~dmrSyncPatternMask[i] ||| bytes[i]) packet i
  exact (congrArg (dmrSyncPatternMask[i] &&& ·) hi).trans (and_overwrite _ (hmask i))

end Dmrlib
