import Dmrlib.Protocol.Mmdvm
import Dmrlib.Raw

/-!
# DMR frames of the MMDVM modem

A burst goes to the modem in a frame of 37 bytes: frame start, length, command, control
byte, and the burst. The command names the time slot. The control byte says what the
SYNC field holds, and for a data burst its data type.

The parser asks the control byte for the slot. No control byte that is sent has the
value of `DMR_MMDVM_DMR_DATA2`, so every frame is taken for one of the first slot.

- `controlByte`: the control byte of a burst.
- `dmrMmdvmSend`: the sender, for both models of modems.
- `mmdvmFrame`: the frame that it writes.
- `SlotCarried`: the parser reads burst and slot from that frame.
- `slotCarried_iff`: it does for bursts of the first slot, to a G4KLX modem.
-/

namespace Dmrlib

/-- `dmr_mmdvm_model` -/
inductive DmrMmdvmModel where
  | g4klx
  | dvmega
deriving DecidableEq

/-- The switch on the SYNC pattern in `dmr_mmdvm_send`. -/
def syncControl (dataType : DmrDataType) : DmrSyncPattern → UInt8
  | .bsSourcedVoice | .msSourcedVoice => 0x20
  | .bsSourcedData | .msSourcedData => 0x40 ||| (dataType &&& 0x0f).toUInt8
  | _ => 0

/-- `control` as `dmr_mmdvm_send` computes it. -/
def controlByte (model : DmrMmdvmModel) (parsed : DmrParsedPacket) : UInt8 :=
  let control := syncControl parsed.dataType (dmrSyncPatternDecode parsed.packet)
  if model = .dvmega ∧ parsed.dataType = DMR_DATA_TYPE_VOICE then control ||| 0x20 else control

/-- `dmr_mmdvm_send`, up to the buffer that it hands to `dmr_mmdvm_send_raw`, if there is
memory for it. The slot of the caller's packet may change. -/
def dmrMmdvmSend (allocated grown : Bool) (model : DmrMmdvmModel) (parsed : DmrParsedPacket) :
    DmrParsedPacket × Option DmrRaw :=
  let control := controlByte model parsed
  -- DVMEGA works on TS2
  let parsed := if model = .dvmega then { parsed with ts := DMR_TS2 } else parsed
  match dmrRawNew allocated 37 with
  | none => (parsed, none)
  | some raw =>
    let (_, raw) := dmrRawAddUint8 grown raw DMR_MMDVM_FRAME_START
    let (_, raw) := dmrRawAddUint8 grown raw 37
    let (_, raw) := dmrRawAddUint8 grown raw
      (if parsed.ts = DMR_TS1 then DMR_MMDVM_DMR_DATA1 else DMR_MMDVM_DMR_DATA2)
    let (_, raw) := dmrRawAddUint8 grown raw control
    let (_, raw) := dmrRawAdd grown raw parsed.packet.toList
    (parsed, some raw)

/-! ## The frame -/

/-- The slot in which a burst goes out. -/
def sentSlot (model : DmrMmdvmModel) (parsed : DmrParsedPacket) : DmrTs :=
  match model with
  | .g4klx => parsed.ts
  | .dvmega => DMR_TS2

/-- The frame of a burst, byte by byte. -/
def mmdvmFrame (model : DmrMmdvmModel) (parsed : DmrParsedPacket) : List UInt8 :=
  [DMR_MMDVM_FRAME_START, 37,
    if sentSlot model parsed = DMR_TS1 then DMR_MMDVM_DMR_DATA1 else DMR_MMDVM_DMR_DATA2,
    controlByte model parsed] ++ parsed.packet.toList

theorem length_mmdvmFrame (model : DmrMmdvmModel) (parsed : DmrParsedPacket) :
    (mmdvmFrame model parsed).length = 37 := by
  rw [mmdvmFrame, List.length_append, Vector.length_toList]
  rfl

theorem dmrMmdvmSend_eq (grown : Bool) (model : DmrMmdvmModel) (parsed : DmrParsedPacket) :
    dmrMmdvmSend true grown model parsed =
      ({ parsed with ts := sentSlot model parsed },
        some (.holding 128 (mmdvmFrame model parsed))) := by
  have hnew : dmrRawNew true 37 = some (.holding 128 []) := rfl
  unfold dmrMmdvmSend
  simp (disch := simp) only [hnew, dmrRawAddUint8, dmrRawAdd_holding]
  cases model <;> rfl

theorem syncControl_cases (dataType : DmrDataType) (pattern : DmrSyncPattern) :
    syncControl dataType pattern = 0 ∨ syncControl dataType pattern = 0x20 ∨
      ∃ x, syncControl dataType pattern = 0x40 ||| x := by
  cases pattern with
  | bsSourcedVoice | msSourcedVoice => exact .inr (.inl rfl)
  | bsSourcedData | msSourcedData => exact .inr (.inr ⟨_, rfl⟩)
  | _ => exact .inl rfl

/-- The control byte never looks like the command for the second slot. -/
theorem controlByte_ne (model : DmrMmdvmModel) (parsed : DmrParsedPacket) :
    controlByte model parsed ≠ 0x1a := by
  have hdata : ∀ v : BitVec 8, 0x40 ||| UInt8.ofBitVec v ≠ 0x1a ∧
      0x40 ||| UInt8.ofBitVec v ||| 0x20 ≠ 0x1a := by decide +kernel
  unfold controlByte
  obtain h | h | ⟨x, h⟩ := syncControl_cases parsed.dataType (dmrSyncPatternDecode parsed.packet)
  · rw [h]
    split <;> decide
  · rw [h]
    split <;> decide
  · rw [h]
    split
    · exact (hdata x.toBitVec).2
    · exact (hdata x.toBitVec).1

/-- Reading a frame that was built: the burst comes back, on the first slot. -/
theorem dmrMmdvmParseFrame_mmdvmFrame {model : DmrMmdvmModel} {parsed : DmrParsedPacket}
    (mmdvm : DmrMmdvm) {frame : DmrMmdvmFrame}
    (hframe : frame.toList.take 37 = mmdvmFrame model parsed) :
    ∃ parsed', dmrMmdvmParseFrame true mmdvm frame = some (0, mmdvm, some parsed') ∧
      parsed'.packet = parsed.packet ∧ parsed'.ts = DMR_TS1 := by
  have hbyte : ∀ i (hi : i < 37), frame[i] = (mmdvmFrame model parsed).getD i 0 := by
    intro i hi
    rw [← hframe, List.getD_eq_getElem _ _ (by
      rw [List.length_take, Vector.length_toList]
      omega), List.getElem_take, Vector.getElem_toList]
  have hpacket : framePacket frame = parsed.packet := by
    refine Vector.ext fun i hi => ?_
    rw [framePacket, Vector.getElem_ofFn, hbyte (4 + i) (by omega), mmdvmFrame,
      List.getD_append_right _ _ _ _ (Nat.le_add_right 4 i)]
    show parsed.packet.toList.getD (4 + i - 4) 0 = _
    rw [Nat.add_sub_cancel_left, List.getD_eq_getElem _ _ (by rwa [Vector.length_toList]),
      Vector.getElem_toList]
  have hstart : frame[0] = DMR_MMDVM_FRAME_START := hbyte 0 (by decide)
  have hcontrol : frame[3] ≠ 0x1a := by
    rw [hbyte 3 (by decide)]
    exact controlByte_ne model parsed
  have hcommand : frame[2] = DMR_MMDVM_DMR_DATA1 ∨ frame[2] = DMR_MMDVM_DMR_DATA2 := by
    have hslot : frame[2] = if sentSlot model parsed = DMR_TS1 then DMR_MMDVM_DMR_DATA1
        else DMR_MMDVM_DMR_DATA2 := hbyte 2 (by decide)
    rw [hslot]
    split
    · exact .inl rfl
    · exact .inr rfl
  -- decoding sets all fields; the slot is set once more behind it
  obtain ⟨decoded, hdecode, hsame⟩ := dmrPacketDecode_allocated (framePacket frame)
  refine ⟨{ decoded with ts := DMR_TS1 }, ?_, hsame.trans hpacket, rfl⟩
  have hversion : frame[2] ≠ DMR_MMDVM_GET_VERSION := by
    rintro h
    rw [h] at hcommand
    exact absurd hcommand (by decide)
  have hstatus : frame[2] ≠ DMR_MMDVM_GET_STATUS := by
    rintro h
    rw [h] at hcommand
    exact absurd hcommand (by decide)
  rw [dmrMmdvmParseFrame, if_neg (not_not.mpr hstart), if_neg hversion, if_neg hstatus,
    if_pos hcommand, hdecode]
  simp only [if_neg hcontrol]

/-! ## The time slot -/

/-- The time slot that a command names. -/
def commandSlot (command : UInt8) : Option DmrTs :=
  if command = DMR_MMDVM_DMR_DATA1 then some DMR_TS1
  else if command = DMR_MMDVM_DMR_DATA2 then some DMR_TS2
  else none

/-- What is sent for a packet is parsed to its burst, on the slot of the command: the
slot of the packet, or the one that the modem works on. -/
def SlotCarried (grown : Bool) (model : DmrMmdvmModel) (parsed : DmrParsedPacket) : Prop :=
  ∃ raw, (dmrMmdvmSend true grown model parsed).2 = some raw ∧ raw.content.length = 37 ∧
    ∀ (mmdvm : DmrMmdvm) (frame : DmrMmdvmFrame), frame.toList.take 37 = raw.content →
      ∃ parsed', dmrMmdvmParseFrame true mmdvm frame = some (0, mmdvm, some parsed') ∧
        parsed'.packet = parsed.packet ∧ some parsed'.ts = commandSlot (raw.content.getD 2 0) ∧
        (model = .g4klx → parsed'.ts = parsed.ts) ∧ (model = .dvmega → parsed'.ts = DMR_TS2)

/-- A buffer that a frame was read into. -/
theorem exists_frame (bytes : List UInt8) (h : bytes.length = 37) :
    ∃ frame : DmrMmdvmFrame, frame.toList.take 37 = bytes := by
  refine ⟨⟨(bytes ++ List.replicate 218 0).toArray, ?_⟩, ?_⟩
  · rw [List.size_toArray, List.length_append, h, List.length_replicate]
  · rw [Vector.toList_mk, List.toList_toArray, ← h, List.take_left]

/-- **The time slot.** It survives the way through the modem's frame exactly for packets
of the first slot that are sent by a G4KLX. -/
theorem slotCarried_iff (grown : Bool) (model : DmrMmdvmModel) (parsed : DmrParsedPacket) :
    SlotCarried grown model parsed ↔ model = .g4klx ∧ parsed.ts = DMR_TS1 := by
  have hsend : (dmrMmdvmSend true grown model parsed).2 =
      some (.holding 128 (mmdvmFrame model parsed)) := by rw [dmrMmdvmSend_eq]
  constructor
  · rintro ⟨raw, hraw, hlen, h⟩
    rw [hsend, Option.some.injEq] at hraw
    subst hraw
    rw [DmrRaw.content_holding] at h
    obtain ⟨frame, hframe⟩ := exists_frame _ (length_mmdvmFrame model parsed)
    obtain ⟨parsed', hparse, -, -, hg4klx, hdvmega⟩ := h .new frame hframe
    -- the parser returns one packet, and its slot is the first
    obtain ⟨parsed'', hparse', -, hts1⟩ := dmrMmdvmParseFrame_mmdvmFrame .new hframe
    obtain rfl : parsed' = parsed'' := by
      rw [hparse, Option.some.injEq, Prod.mk.injEq, Prod.mk.injEq, Option.some.injEq] at hparse'
      exact hparse'.2.2
    cases model with
    | g4klx => exact ⟨rfl, (hg4klx rfl).symm.trans hts1⟩
    | dvmega => exact absurd ((hdvmega rfl).symm.trans hts1) (by decide)
  · rintro ⟨rfl, hts1⟩
    refine ⟨_, hsend, ?_, ?_⟩
    · rw [DmrRaw.content_holding, length_mmdvmFrame]
    · intro mmdvm frame hframe
      rw [DmrRaw.content_holding] at hframe ⊢
      obtain ⟨parsed', hparse, hpacket, hslot⟩ := dmrMmdvmParseFrame_mmdvmFrame mmdvm hframe
      refine ⟨parsed', hparse, hpacket, ?_, fun _ => hslot.trans hts1.symm, fun h => by cases h⟩
      show some parsed'.ts = commandSlot (if parsed.ts = DMR_TS1 then _ else _)
      rw [hslot, if_pos hts1]
      rfl

/-- A burst of the second slot comes back on the first. -/
theorem not_slotCarried_ts2 :
    ¬ SlotCarried true .g4klx { DmrParsedPacket.zero with ts := DMR_TS2 } := by
  rintro ⟨raw, hraw, -, h⟩
  rw [dmrMmdvmSend_eq, Option.some.injEq] at hraw
  subst hraw
  rw [DmrRaw.content_holding] at h
  obtain ⟨frame, hframe⟩ := exists_frame _ (length_mmdvmFrame _ _)
  obtain ⟨parsed', hparse, -, -, hg4klx, -⟩ := h .new frame hframe
  obtain ⟨parsed'', hparse', -, hts1⟩ := dmrMmdvmParseFrame_mmdvmFrame .new hframe
  rw [hparse, Option.some.injEq, Prod.mk.injEq, Prod.mk.injEq, Option.some.injEq] at hparse'
  rw [← hparse'.2.2, hg4klx rfl] at hts1
  exact absurd hts1 (by decide)

end Dmrlib
