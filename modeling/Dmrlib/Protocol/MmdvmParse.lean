import Dmrlib.Protocol.MmdvmBuffer

/-!
# Frames of any length in the parser

The reader hands a frame on as soon as it holds as many bytes as the length byte says,
and `dmrMmdvmParseFrame` takes what its command needs from the buffer, whether that
belongs to the frame or not. `SafelyParsed` says what a safe parser would do with a frame:
stay in the ACK table, copy no negative length, look at nothing behind the frame, and
reject what is too short. The frames that are parsed safely are those that are long
enough for their command.

- `Agree`: two buffers with the same first bytes.
- `fieldsEnd`: the last byte that the parser takes for a command.
- `SafelyParsed`, `LongEnough`: what a parse is to be, and the condition on the frame.
- `safelyParsed_iff`: the two are the same.
-/

namespace Dmrlib

/-! ## Two frames -/

/-- The first `len` bytes are the same. -/
def Agree (len : Nat) (frame frame' : DmrMmdvmFrame) : Prop :=
  ∀ i, (hi : i < 255) → i < len → frame'[i] = frame[i]

/-- Frames that agree carry the same packet, if they hold it. -/
theorem Agree.framePacket {len : Nat} {frame frame' : DmrMmdvmFrame} (h : Agree len frame frame')
    (hlen : 37 ≤ len) : framePacket frame' = framePacket frame := by
  refine Vector.ext fun i hi => ?_
  rw [Dmrlib.framePacket, Dmrlib.framePacket, Vector.getElem_ofFn, Vector.getElem_ofFn]
  exact h (4 + i) (by omega) (by omega)

/-- They carry the same text. -/
theorem Agree.description {len : Nat} {frame frame' : DmrMmdvmFrame} (h : Agree len frame frame') :
    (frame'.toList.drop 4).take (len - 4) = (frame.toList.drop 4).take (len - 4) := by
  refine List.ext_getElem ?_ fun i h1 h2 => ?_
  · simp
  · rw [List.length_take, List.length_drop, Vector.length_toList] at h1
    rw [List.getElem_take, List.getElem_take, List.getElem_drop, List.getElem_drop,
      Vector.getElem_toList, Vector.getElem_toList]
    exact h (4 + i) (by omega) (by omega)

/-! ## What the parser computes -/

/-- The indices at which `dmr_mmdvm_parse_frame` stores to the ACK table. -/
def ackIndices (mmdvm : DmrMmdvm) : List Nat :=
  if frameCommand mmdvm.frame = DMR_MMDVM_ACK then
    [(frameData mmdvm.frame).toNat]
  else []

/-- The lengths that it computes from the length byte: of the memory for the modem's
description, and of the description. -/
def copyLengths (mmdvm : DmrMmdvm) : List Int :=
  if frameCommand mmdvm.frame = DMR_MMDVM_GET_VERSION then
    [((frameLength mmdvm.frame).toNat : Int) - 3,
      ((frameLength mmdvm.frame).toNat : Int) - 4]
  else []

/-- What parsing a frame does, apart from the frame that stays in the buffer: the return
value, the modem, and the packet. -/
def parseOutcome (allocated : Bool) (mmdvm : DmrMmdvm) (frame : DmrMmdvmFrame) :
    Option (Int × DmrMmdvm × Option DmrParsedPacket) :=
  (dmrMmdvmParseFrame allocated { mmdvm with frame } frame).map fun r =>
    (r.1, { r.2.1 with frame := mmdvm.frame }, r.2.2)

/-- Where the fields of a frame end, by its command. -/
def fieldsEnd (command : UInt8) : Nat :=
  if command = DMR_MMDVM_GET_VERSION ∨ command = DMR_MMDVM_ACK then 4
  else if command = DMR_MMDVM_NAK then 5
  else if command = DMR_MMDVM_GET_STATUS then 10
  else if command = DMR_MMDVM_DMR_DATA1 ∨ command = DMR_MMDVM_DMR_DATA2 then 37
  else 3

/-- The frame in the buffer is parsed safely. -/
structure SafelyParsed (allocated : Bool) (mmdvm : DmrMmdvm) : Prop where
  ack : ∀ i ∈ ackIndices mmdvm, i < 15
  lengths : ∀ n ∈ copyLengths mmdvm, 0 ≤ n
  /-- Nothing but the frame matters: what is behind it may be anything. -/
  inside : ∀ frame' : DmrMmdvmFrame, frameStart frame' = frameStart mmdvm.frame →
    frameLength frame' = frameLength mmdvm.frame →
    Agree (frameLength mmdvm.frame).toNat mmdvm.frame frame' →
      parseOutcome allocated mmdvm frame' = parseOutcome allocated mmdvm mmdvm.frame
  /-- A frame that is too short for its fields is rejected. -/
  rejects : 3 < fieldsEnd (frameCommand mmdvm.frame) →
    (frameLength mmdvm.frame).toNat < fieldsEnd (frameCommand mmdvm.frame) →
    ∃ r, dmrMmdvmParseFrame allocated mmdvm mmdvm.frame = some r ∧ r.1 ≠ 0

/-- It is long enough for its command. What a burst needs does not matter when there is
no memory for the packet, as all of them are rejected then. -/
def LongEnough (allocated : Bool) (frame : DmrMmdvmFrame) : Prop :=
  3 ≤ (frameLength frame).toNat ∧
    (¬ ((frameCommand frame = DMR_MMDVM_DMR_DATA1 ∨
        frameCommand frame = DMR_MMDVM_DMR_DATA2) ∧ allocated = false) →
      fieldsEnd (frameCommand frame) ≤ (frameLength frame).toNat) ∧
    (frameCommand frame = DMR_MMDVM_ACK → (frameData frame).toNat < 15)

/-! ## Frames that are long enough -/

section Long

variable {allocated : Bool} {mmdvm : DmrMmdvm} {frame' : DmrMmdvmFrame}

/-- Behind a frame that is long enough there may be anything. -/
theorem parseOutcome_congr (hlong : LongEnough allocated mmdvm.frame)
    (h0 : frameStart frame' = frameStart mmdvm.frame)
    (h1 : frameLength frame' = frameLength mmdvm.frame)
    (hagree : Agree (frameLength mmdvm.frame).toNat mmdvm.frame frame') :
    parseOutcome allocated mmdvm frame' = parseOutcome allocated mmdvm mmdvm.frame := by
  obtain ⟨hmin, hfields, -⟩ := hlong
  have h2 : frameCommand frame' = frameCommand mmdvm.frame := hagree 2 (by decide) hmin
  have h3 : 4 ≤ (frameLength mmdvm.frame).toNat → frameData frame' = frameData mmdvm.frame :=
    hagree 3 (by decide)
  simp only [parseOutcome, dmrMmdvmParseFrame, h0, h1, h2]
  -- command by command, the fields that are read lie inside the frame
  by_cases hstart : frameStart mmdvm.frame ≠ DMR_MMDVM_FRAME_START
  · rw [if_pos hstart, if_pos hstart]
    rfl
  rw [if_neg hstart, if_neg hstart]
  by_cases hversion : frameCommand mmdvm.frame = DMR_MMDVM_GET_VERSION
  · have hend : 4 ≤ (frameLength mmdvm.frame).toNat := by
      rw [hversion] at hfields
      exact hfields fun hc => absurd hc.1 (by decide)
    rw [if_pos hversion, if_pos hversion, h3 hend, hagree.description]
    split <;> rfl
  rw [if_neg hversion, if_neg hversion]
  by_cases hstatus : frameCommand mmdvm.frame = DMR_MMDVM_GET_STATUS
  · have hend : 10 ≤ (frameLength mmdvm.frame).toNat := by
      rw [hstatus] at hfields
      exact hfields fun hc => absurd hc.1 (by decide)
    rw [if_pos hstatus, if_pos hstatus, h3 (by omega),
      hagree 4 (by decide) (by omega), hagree 5 (by decide) (by omega),
      hagree 6 (by decide) (by omega), hagree 7 (by decide) (by omega),
      hagree 8 (by decide) (by omega), hagree 9 (by decide) (by omega)]
    rfl
  rw [if_neg hstatus, if_neg hstatus]
  by_cases hdata : frameCommand mmdvm.frame = DMR_MMDVM_DMR_DATA1 ∨
      frameCommand mmdvm.frame = DMR_MMDVM_DMR_DATA2
  · rw [if_pos hdata, if_pos hdata]
    cases allocated with
    | false => rfl
    | true =>
      have hend : 37 ≤ (frameLength mmdvm.frame).toNat := by
        have hburst : fieldsEnd (frameCommand mmdvm.frame) = 37 := by
          obtain h | h := hdata <;> rw [h] <;> decide
        rw [← hburst]
        exact hfields fun h => by cases h.2
      obtain ⟨parsed, hdecode, -⟩ := dmrPacketDecode_allocated (framePacket mmdvm.frame)
      rw [hagree.framePacket hend, h3 (by omega), hdecode]
      rfl
  rw [if_neg hdata, if_neg hdata]
  by_cases hack : frameCommand mmdvm.frame = DMR_MMDVM_ACK
  · have hend : 4 ≤ (frameLength mmdvm.frame).toNat := by
      rw [hack] at hfields
      exact hfields fun hc => absurd hc.1 (by decide)
    rw [if_pos hack, if_pos hack]
    simp only [h3 hend]
    split <;> rfl
  · rw [if_neg hack, if_neg hack]
    rfl

end Long

/-! ## Frames that are not -/

/-- The only frames that are rejected are bursts without memory for the packet. -/
theorem ret_dmrMmdvmParseFrame {allocated : Bool} {mmdvm : DmrMmdvm}
    (hstart : frameStart mmdvm.frame = DMR_MMDVM_FRAME_START)
    {r : Int × DmrMmdvm × Option DmrParsedPacket}
    (h : dmrMmdvmParseFrame allocated mmdvm mmdvm.frame = some r) (hret : r.1 ≠ 0) :
    (frameCommand mmdvm.frame = DMR_MMDVM_DMR_DATA1 ∨
        frameCommand mmdvm.frame = DMR_MMDVM_DMR_DATA2) ∧
      allocated = false := by
  rw [dmrMmdvmParseFrame, if_neg (not_not.mpr hstart)] at h
  -- every branch but one returns 0 or does not return
  split at h
  · dsimp only at h
    split at h
    · cases h
    · cases h
      exact absurd rfl hret
  split at h
  · cases h
    exact absurd rfl hret
  split at h
  · next hdata =>
    refine ⟨hdata, ?_⟩
    cases allocated with
    | false => rfl
    | true =>
      obtain ⟨parsed, hdecode, -⟩ := dmrPacketDecode_allocated (framePacket mmdvm.frame)
      rw [hdecode] at h
      cases h
      exact absurd rfl hret
  split at h
  · split at h
    · cases h
      exact absurd rfl hret
    · cases h
  · cases h
    exact absurd rfl hret

/-- A burst without memory for the packet is rejected. -/
theorem dmrMmdvmParseFrame_noMemory {mmdvm : DmrMmdvm}
    (hstart : frameStart mmdvm.frame = DMR_MMDVM_FRAME_START)
    (hdata : frameCommand mmdvm.frame = DMR_MMDVM_DMR_DATA1 ∨
      frameCommand mmdvm.frame = DMR_MMDVM_DMR_DATA2) :
    dmrMmdvmParseFrame false mmdvm mmdvm.frame = some (-1, mmdvm, none) := by
  have hversion : frameCommand mmdvm.frame ≠ DMR_MMDVM_GET_VERSION := by
    obtain h | h := hdata <;> rw [h] <;> decide
  have hstatus : frameCommand mmdvm.frame ≠ DMR_MMDVM_GET_STATUS := by
    obtain h | h := hdata <;> rw [h] <;> decide
  rw [dmrMmdvmParseFrame, if_neg (not_not.mpr hstart), if_neg hversion, if_neg hstatus,
    if_pos hdata]
  rfl

/-- A frame without a command is no frame the parser can be safe with: behind it there may
be the command that asks for a description. -/
theorem SafelyParsed.three_le {allocated : Bool} {mmdvm : DmrMmdvm}
    (hstart : frameStart mmdvm.frame = DMR_MMDVM_FRAME_START)
    (h : SafelyParsed allocated mmdvm) :
    3 ≤ (frameLength mmdvm.frame).toNat := by
  by_contra hshort
  have hversion : frameCommand mmdvm.frame ≠ DMR_MMDVM_GET_VERSION := by
    intro hversion
    have hlen : (0 : Int) ≤ ((frameLength mmdvm.frame).toNat : Int) - 4 := by
      refine h.lengths _ ?_
      rw [copyLengths, if_pos hversion]
      simp
    omega
  have hparses : ParsesInside allocated mmdvm.frame.toList := by
    rw [ParsesInside, getD_frame _ (by decide), getD_frame _ (by decide)]
    refine ⟨fun hc => absurd hc hversion, fun hack => h.ack _ ?_⟩
    rw [ackIndices, if_pos hack]
    exact List.mem_singleton_self _
  obtain ⟨ret, mmdvm', parsed, hparse, -, -⟩ := dmrMmdvmParseFrame_spec hparses
  -- the same frame, and another command behind it
  have hother := h.inside (mmdvm.frame.set 2 DMR_MMDVM_GET_VERSION) (by simp) (by simp)
    fun i hi hlt => by rw [Vector.getElem_set_ne _ _ (by omega)]
  have hnone : dmrMmdvmParseFrame allocated
      { mmdvm with frame := mmdvm.frame.set 2 DMR_MMDVM_GET_VERSION }
      (mmdvm.frame.set 2 DMR_MMDVM_GET_VERSION) = none := by
    refine dmrMmdvmParseFrame_none (by simpa using hstart) fun hinside => ?_
    have hlen := (hinside.1 (by rw [getD_frame _ (by decide)]; simp)).1
    rw [lengthByte, getD_frame _ (by decide), Vector.getElem_set_ne _ _ (by decide)] at hlen
    have hfour : 4 ≤ (frameLength mmdvm.frame).toNat := hlen
    omega
  rw [parseOutcome, parseOutcome, hparse, hnone] at hother
  cases hother

/-- **Every frame.** A frame that the reader hands to the parser is parsed safely exactly if
it is long enough for its command, and names an entry of the table if it is an ACK. -/
theorem safelyParsed_iff (allocated : Bool) {mmdvm : DmrMmdvm}
    (hstart : frameStart mmdvm.frame = DMR_MMDVM_FRAME_START) :
    SafelyParsed allocated mmdvm ↔ LongEnough allocated mmdvm.frame := by
  constructor
  · intro h
    have hmin := h.three_le hstart
    refine ⟨hmin, fun hburst => ?_, fun hack => ?_⟩
    · by_contra hshort
      obtain ⟨r, hparse, hret⟩ := h.rejects (by omega) (Nat.not_le.mp hshort)
      exact hburst (ret_dmrMmdvmParseFrame hstart hparse hret)
    · refine h.ack _ ?_
      rw [ackIndices, if_pos hack]
      exact List.mem_singleton_self _
  · intro hlong
    have ⟨hmin, hfields, hindex⟩ := hlong
    refine ⟨fun i hi => ?_, fun n hn => ?_, fun frame' => parseOutcome_congr hlong,
      fun _ hshort => ?_⟩
    · rw [ackIndices] at hi
      split at hi
      · next hack =>
        rw [List.mem_singleton.mp hi]
        exact hindex hack
      · cases hi
    · rw [copyLengths] at hn
      split at hn
      · next hversion =>
        have hend : 4 ≤ (frameLength mmdvm.frame).toNat := by
          rw [hversion] at hfields
          exact hfields fun hc => absurd hc.1 (by decide)
        simp only [List.mem_cons, List.not_mem_nil, or_false] at hn
        omega
      · cases hn
    · -- a burst without memory
      by_cases hburst : (frameCommand mmdvm.frame = DMR_MMDVM_DMR_DATA1 ∨
          frameCommand mmdvm.frame = DMR_MMDVM_DMR_DATA2) ∧ allocated = false
      · obtain ⟨hdata, rfl⟩ := hburst
        exact ⟨_, dmrMmdvmParseFrame_noMemory hstart hdata, show (-1 : Int) ≠ 0 by decide⟩
      · exact absurd (hfields hburst) (Nat.not_le.mpr hshort)

/-- A modem that has read these bytes. -/
def DmrMmdvm.reading (bytes : List UInt8) : DmrMmdvm :=
  { DmrMmdvm.new with frame := Vector.ofFn fun i => bytes.getD i.val 0, pos := bytes.length }

/-- The ACK to a `SET_CONFIG` is parsed safely. -/
theorem safelyParsed_ack : SafelyParsed true (.reading [0xe0, 4, 0x70, 2]) :=
  (safelyParsed_iff true (by decide +kernel)).mpr
    ⟨by decide +kernel, fun _ => by decide +kernel, fun _ => by decide +kernel⟩

/-- An ACK to a command that has no entry in the table, complete and well-formed. -/
theorem not_safelyParsed_ack :
    WellFormed [0xe0, 4, 0x70, 0x10] ∧ ¬ SafelyParsed true (.reading [0xe0, 4, 0x70, 0x10]) := by
  refine ⟨by decide, fun h => ?_⟩
  exact absurd (h.ack 16 (by decide +kernel)) (by decide)

end Dmrlib
