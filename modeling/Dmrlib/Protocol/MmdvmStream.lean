import Dmrlib.Protocol.Mmdvm
import Dmrlib.Lib.Run

/-!
# Frames from the modem, in order

Repeated calls of `dmrMmdvmRead` are to hand on the frames that the modem sent, in
order and byte for byte, however the line cuts the stream. The invariant is
`Framing.Unread`: what the buffer holds and what the line still has are the frames
not handed on yet.

`shiftFrame` keeps it only half way. It moves as many bytes to the front as the
frame had that goes, and zeroes what is further back, while `pos` counts those
bytes still. A short frame that arrives together with a long one destroys the long
one. `Safe` says, before a call, that nothing of this kind will happen in it.

- `Link`, `linkStep`: a modem on its line, and one call of the reader.
- `InOrder`: the call returns, and what was handed on is the beginning of what was sent.
- `Faithful`: the invariant.
- `linkStep_spec`: a call that is safe keeps it.
- `throughout_inOrder`: in a run of safe calls all are in order.
-/

namespace Dmrlib

open Loop Framing Run

/-! ## The line

A read takes what the line has of the next chunk. Calls that end without a byte leave the line as
it is.
-/

/-- What the line will deliver. -/
def portBytes (port : List SerialRead) : List UInt8 :=
  port.flatMap fun
    | .data bytes => bytes
    | .fail _ _ => []

/-- Every read finds something until the line has delivered everything. -/
def Chunks (port : List SerialRead) : Prop := ∀ r ∈ port, ∃ bytes, bytes ≠ [] ∧ r = .data bytes

/-- The chunks of a stream, put on the line. -/
theorem chunks_map {chunks : List (List UInt8)} (hne : ∀ c ∈ chunks, c ≠ []) :
    Chunks (chunks.map .data) := by
  intro r hr
  obtain ⟨c, hc, rfl⟩ := List.mem_map.mp hr
  exact ⟨c, hne c hc, rfl⟩

@[simp]
theorem portBytes_map (chunks : List (List UInt8)) :
    portBytes (chunks.map .data) = chunks.flatten := by
  rw [portBytes, List.flatMap_map, List.flatMap_id']

namespace Chunks

variable {port : List SerialRead}

/-- A read takes the next bytes off the line … -/
theorem portBytes_read (h : Chunks port) (len : Nat) (errno : Option Errno) :
    portBytes port = (serialReadNonblock len errno port).bytes ++
      portBytes (serialReadNonblock len errno port).port := by
  cases port with
  | nil => rfl
  | cons r port =>
    obtain ⟨bytes, -, rfl⟩ := h r List.mem_cons_self
    simp only [serialReadNonblock, portBytes, List.flatMap_cons]
    split
    · rw [List.flatMap_cons, ← List.append_assoc, List.take_append_drop]
    · next hlen => rw [List.take_of_length_le (Nat.not_lt.mp hlen)]

/-- … and leaves it cut into chunks. -/
theorem read (h : Chunks port) (len : Nat) (errno : Option Errno) :
    Chunks (serialReadNonblock len errno port).port := by
  cases port with
  | nil => exact h
  | cons r port =>
    obtain ⟨bytes, -, rfl⟩ := h r List.mem_cons_self
    have hrest : Chunks port := fun s hs => h s (List.mem_cons_of_mem _ hs)
    simp only [serialReadNonblock]
    split
    · next hlen =>
      intro s hs
      rcases List.mem_cons.mp hs with rfl | hs
      · refine ⟨bytes.drop len, ?_, rfl⟩
        intro hnil
        exact absurd (List.drop_eq_nil_iff.mp hnil) (Nat.not_le.mpr hlen)
      · exact hrest s hs
    · exact hrest

/-- The first attempt is the last. -/
theorem serialRetry (h : Chunks port) (len retries : Nat) :
    serialRetry len retries none port = serialReadNonblock len none port := by
  have herrno : (serialReadNonblock len none port).errno = none := by
    cases port with
    | nil => rfl
    | cons r port =>
      obtain ⟨bytes, -, rfl⟩ := h r List.mem_cons_self
      rfl
  cases retries with
  | zero => rfl
  | succ retries => simp [Dmrlib.serialRetry, herrno]

theorem ret_read (h : Chunks port) (len : Nat) (errno : Option Errno) :
    (serialReadNonblock len errno port).ret =
      (serialReadNonblock len errno port).bytes.length := by
  cases port with
  | nil => rfl
  | cons r port =>
    obtain ⟨bytes, -, rfl⟩ := h r List.mem_cons_self
    rfl

theorem length_read (h : Chunks port) (len : Nat) (errno : Option Errno) :
    (serialReadNonblock len errno port).bytes.length ≤ len := by
  cases port with
  | nil => exact Nat.zero_le _
  | cons r port =>
    obtain ⟨bytes, -, rfl⟩ := h r List.mem_cons_self
    exact List.length_take_le _ _

/-- Only a line with nothing left has nothing to read. -/
theorem bytes_read_ne_nil (h : Chunks port) (hne : port ≠ []) {len : Nat} (hlen : 0 < len)
    (errno : Option Errno) : (serialReadNonblock len errno port).bytes ≠ [] := by
  cases port with
  | nil => exact absurd rfl hne
  | cons r port =>
    obtain ⟨bytes, hbytes, rfl⟩ := h r List.mem_cons_self
    simp only [serialReadNonblock, ne_eq, List.take_eq_nil_iff, not_or]
    exact ⟨by omega, hbytes⟩

end Chunks

/-! ## The buffer

Storing appends to what the buffer holds, and the search for a frame start drops what stands in
front of it.
-/

/-- The bytes collected so far. -/
def DmrMmdvm.buffered (mmdvm : DmrMmdvm) : List UInt8 := mmdvm.frame.toList.take mmdvm.pos

theorem DmrMmdvm.length_buffered {mmdvm : DmrMmdvm} (h : mmdvm.pos ≤ 255) :
    mmdvm.buffered.length = mmdvm.pos := by
  rw [buffered, List.length_take, Vector.length_toList, Nat.min_eq_left h]

/-- Bytes that fit are put behind those already there. -/
theorem storeBytes_spec (frame : DmrMmdvmFrame) {pos : Nat} {bytes : List UInt8}
    (h : pos + bytes.length ≤ 255) :
    ∃ frame', storeBytes frame pos bytes = some frame' ∧
      frame'.toList = frame.toList.take pos ++ bytes ++ frame.toList.drop (pos + bytes.length) := by
  refine ⟨_, if_pos h, ?_⟩
  rw [List.append_assoc]
  refine List.ext_getElem ?_ fun i h1 h2 => ?_
  · simp only [Vector.length_toList, List.length_append, List.length_take, List.length_drop]
    omega
  · have hi : i < 255 := by simpa using h1
    have htake : (frame.toList.take pos).length = pos := by simp; omega
    simp only [Vector.getElem_toList, Vector.getElem_ofFn, Fin.getElem_fin]
    -- before, inside or behind the bytes that are stored
    by_cases hlo : pos ≤ i
    · rw [List.getElem_append_right (by omega)]
      by_cases hhi : i < pos + bytes.length
      · rw [if_pos ⟨hlo, hhi⟩, List.getElem_append_left (by omega),
          List.getD_eq_getElem _ _ (by omega)]
        simp only [htake]
      · rw [if_neg fun hc => hhi hc.2, List.getElem_append_right (by omega), List.getElem_drop,
          Vector.getElem_toList]
        congr 1
        omega
    · rw [if_neg fun hc => hlo hc.1, List.getElem_append_left (by omega), List.getElem_take,
        Vector.getElem_toList]

/-- A buffer that begins with a frame start is left as it is. -/
theorem seekStart_eq {past : Nat → UInt8} {frame : DmrMmdvmFrame} {pos : Nat}
    (h : 0 < pos → frameStart frame = DMR_MMDVM_FRAME_START) :
    seekStart past pos frame = (frame, pos) := by
  cases pos with
  | zero => rfl
  | succ pos => rw [seekStart, if_neg (not_not.mpr (h (Nat.succ_pos pos)))]

/-- The loop of `shiftFrame` moves `len` bytes. -/
theorem shiftLoop_getElem (past : Nat → UInt8) {len : Nat} (hlen : len < 256)
    (frame : DmrMmdvmFrame) {j : Nat} (hj : j < 255) (hjl : j < len) :
    (forLoop len (fun i (frame : DmrMmdvmFrame) =>
      frame.set i (byteAt past frame (i.val + len))) frame)[j] = byteAt past frame (j + len) := by
  have key := forLoop_inv (n := len)
    (f := fun i (frame : DmrMmdvmFrame) => frame.set i (byteAt past frame (i.val + len)))
    (s := frame)
    (fun k t => (∀ i, (hi : i < 255) → i < k → t[i] = byteAt past frame (i + len)) ∧
      ∀ i, (hi : i < 255) → k ≤ i → t[i] = frame[i])
    ⟨fun i _ hi => absurd hi (Nat.not_lt_zero i), fun _ _ _ => rfl⟩
    (fun i t ht => by
      obtain ⟨hdone, htodo⟩ := ht
      -- byte `i + len` has not been overwritten yet
      have hread : byteAt past t (i.val + len) = byteAt past frame (i.val + len) := by
        unfold byteAt
        split
        · exact htodo _ _ (by omega)
        · rfl
      refine ⟨fun j hj hjk => ?_, fun j hj hjk => ?_⟩
      · rcases Nat.lt_succ_iff_lt_or_eq.mp hjk with hlt | rfl
        · rw [Vector.getElem_set_ne _ _ (by omega)]
          exact hdone j hj hlt
        · rw [Vector.getElem_set_self, hread]
      · rw [Vector.getElem_set_ne _ _ (by omega)]
        exact htodo j hj (by omega))
  exact key.1 j hj hjl

/-- When nothing but zeros lies beyond twice the frame's length, the shift takes the
frame off the buffer. -/
theorem buffered_shiftFrame {past : Nat → UInt8} {mmdvm : DmrMmdvm} (hpos : mmdvm.pos ≤ 255)
    (hlen : (frameLength mmdvm.frame).toNat ≤ mmdvm.pos)
    (hzero : ∀ b ∈ mmdvm.buffered.drop (2 * (frameLength mmdvm.frame).toNat), b = 0) :
    (shiftFrame past mmdvm).buffered =
      mmdvm.buffered.drop (frameLength mmdvm.frame).toNat := by
  have hlen256 : (frameLength mmdvm.frame).toNat < 256 := (frameLength mmdvm.frame).toNat_lt
  have hpos' : (shiftFrame past mmdvm).pos = mmdvm.pos - (frameLength mmdvm.frame).toNat :=
    if_pos hlen
  refine List.ext_getElem ?_ fun i h1 h2 => ?_
  · rw [DmrMmdvm.length_buffered (by omega), List.length_drop, DmrMmdvm.length_buffered hpos, hpos']
  · have hi : i < mmdvm.pos - (frameLength mmdvm.frame).toNat := by
      rwa [DmrMmdvm.length_buffered (by omega), hpos'] at h1
    have hlhs : (shiftFrame past mmdvm).buffered[i] =
        if i < (frameLength mmdvm.frame).toNat then
          byteAt past mmdvm.frame (i + (frameLength mmdvm.frame).toNat)
        else 0 := by
      simp only [DmrMmdvm.buffered, shiftFrame, List.getElem_take, Vector.getElem_toList,
        Vector.getElem_ofFn, Fin.getElem_fin]
      split
      · next hil => exact shiftLoop_getElem past hlen256 mmdvm.frame (by omega) hil
      · rfl
    have hrhs : (mmdvm.buffered.drop (frameLength mmdvm.frame).toNat)[i] =
        mmdvm.frame[i + (frameLength mmdvm.frame).toNat] := by
      simp [DmrMmdvm.buffered, Nat.add_comm]
    rw [hlhs]
    -- up to the length of the frame bytes are moved, behind it they are cleared
    split
    · rw [hrhs, byteAt, dif_pos (by omega)]
    · next hil =>
      refine (hzero _ (List.mem_iff_getElem.mpr ⟨i - (frameLength mmdvm.frame).toNat, ?_, ?_⟩)).symm
      · rw [List.length_drop, DmrMmdvm.length_buffered hpos]
        omega
      · rw [List.getElem_drop, List.getElem_drop]
        congr 1
        omega

/-! ## One frame

The parser is called with a frame at the front of the buffer, and `shiftFrame` takes it away.
-/

/-- Parsing the frame at the front of the buffer neither copies less than nothing nor
leaves the ACK table. -/
def ParsesInside (allocated : Bool) (frame : List UInt8) : Prop :=
  (frame.getD 2 0 = DMR_MMDVM_GET_VERSION →
      4 ≤ lengthByte frame ∧ (allocated = true ∨ lengthByte frame = 4)) ∧
    (frame.getD 2 0 = DMR_MMDVM_ACK → (frame.getD 3 0).toNat < 15)

instance (allocated : Bool) (frame : List UInt8) : Decidable (ParsesInside allocated frame) :=
  inferInstanceAs (Decidable (_ ∧ _))

theorem getD_frame (frame : DmrMmdvmFrame) {i : Nat} (hi : i < 255) :
    frame.toList.getD i 0 = frame[i] := by
  rw [List.getD_eq_getElem _ _ (by simpa using hi), Vector.getElem_toList]

/-- The parser leaves the buffer alone. -/
theorem dmrMmdvmParseFrame_spec {allocated : Bool} {mmdvm : DmrMmdvm}
    (h : ParsesInside allocated mmdvm.frame.toList) :
    ∃ ret mmdvm' parsed,
      dmrMmdvmParseFrame allocated mmdvm mmdvm.frame = some (ret, mmdvm', parsed) ∧
      mmdvm'.frame = mmdvm.frame ∧ mmdvm'.pos = mmdvm.pos := by
  obtain ⟨hversion, hack⟩ := h
  rw [lengthByte, getD_frame _ (by decide), getD_frame _ (by decide)] at hversion
  rw [getD_frame _ (by decide), getD_frame _ (by decide)] at hack
  unfold dmrMmdvmParseFrame
  -- no branch touches the buffer; the version and the ACK have to be safe
  by_cases hstart : frameStart mmdvm.frame ≠ DMR_MMDVM_FRAME_START
  · exact ⟨_, _, _, if_pos hstart, rfl, rfl⟩
  rw [if_neg hstart]
  by_cases hcmd : frameCommand mmdvm.frame = DMR_MMDVM_GET_VERSION
  · obtain ⟨hmin, halloc⟩ := hversion hcmd
    have hsafe : ¬ ((frameLength mmdvm.frame).toNat < 4 ∨
        (allocated = false ∧ (frameLength mmdvm.frame).toNat ≠ 4)) := by
      rintro (hlt | ⟨hnone, hne⟩)
      · exact absurd hmin (Nat.not_le.mpr hlt)
      · rcases halloc with hsome | hfour
        · rw [hnone] at hsome
          cases hsome
        · exact hne hfour
    rw [if_pos hcmd]
    exact ⟨_, _, _, if_neg hsafe, rfl, rfl⟩
  rw [if_neg hcmd]
  by_cases hstatus : frameCommand mmdvm.frame = DMR_MMDVM_GET_STATUS
  · exact ⟨_, _, _, if_pos hstatus, rfl, rfl⟩
  rw [if_neg hstatus]
  by_cases hdata : frameCommand mmdvm.frame = DMR_MMDVM_DMR_DATA1 ∨
      frameCommand mmdvm.frame = DMR_MMDVM_DMR_DATA2
  · obtain ⟨packet, hpacket⟩ := dmrPacketDecode_total allocated (framePacket mmdvm.frame)
    rw [if_pos hdata, hpacket]
    cases packet <;> exact ⟨_, _, _, rfl, rfl, rfl⟩
  rw [if_neg hdata]
  by_cases hreply : frameCommand mmdvm.frame = DMR_MMDVM_ACK
  · rw [if_pos hreply, dif_pos (hack hreply)]
    exact ⟨_, _, _, rfl, rfl, rfl⟩
  · rw [if_neg hreply]
    exact ⟨_, _, _, rfl, rfl, rfl⟩

/-! ## Runs

One call keeps the invariant if it is safe, and what it hands on is then the next frame of those
sent.
-/

/-- The modem, the line, and the frames handed on so far. -/
structure Link where
  mmdvm : DmrMmdvm
  port : List SerialRead
  handed : List (List UInt8)

/-- A new modem on a line that will deliver the chunks. -/
def Link.start (chunks : List (List UInt8)) : Link := ⟨.new, chunks.map .data, []⟩

/-- One call of the reader. -/
def linkStep (s : Link) (env : ReadEnv) : Option Link :=
  (dmrMmdvmRead env s.mmdvm s.port).map fun r => ⟨r.mmdvm, r.port, s.handed ++ r.handed.toList⟩

/-- The call returns, and what has been handed on is what was sent first. -/
def InOrder (sent : List (List UInt8)) (s : Link) (env : ReadEnv) : Prop :=
  ∃ s' ∈ linkStep s env, s'.handed <+: sent

instance (sent : List (List UInt8)) (s : Link) (env : ReadEnv) : Decidable (InOrder sent s env) :=
  inferInstanceAs (Decidable (∃ s' ∈ linkStep s env, s'.handed <+: sent))

/-- The bytes that the reads of the next call add to the buffer. -/
def arriving (s : Link) : List UInt8 :=
  let first := serialReadNonblock (255 - s.mmdvm.pos) none s.port
  if 3 ≤ s.mmdvm.pos + first.bytes.length then first.bytes
  else first.bytes ++ (serialReadNonblock (255 - s.mmdvm.pos) none first.port).bytes

/-- What the buffer holds then. -/
def arrived (s : Link) : List UInt8 := s.mmdvm.buffered ++ arriving s

/-- The frame buffer with these bytes in it. -/
def arrivedFrame (s : Link) : List UInt8 :=
  arrived s ++ s.mmdvm.frame.toList.drop (arrived s).length

/-- Something comes in, and the frame at the front of the buffer is complete then. -/
def HasFrame (s : Link) : Prop :=
  s.port ≠ [] ∧ 3 ≤ (arrived s).length ∧ lengthByte (arrived s) ≤ (arrived s).length

instance (s : Link) : Decidable (HasFrame s) :=
  inferInstanceAs (Decidable (_ ∧ _ ∧ _))

/-- What a call needs in order to lose nothing: what comes in fits the buffer; a
complete frame can be parsed; and behind it, from twice its length on, there are only
zeros. -/
def Safe (s : Link) (env : ReadEnv) : Prop :=
  (arrived s).length ≤ 255 ∧
    (HasFrame s → ParsesInside env.allocated (arrivedFrame s) ∧
      ∀ b ∈ (arrived s).drop (2 * lengthByte (arrived s)), b = 0)

instance (s : Link) (env : ReadEnv) : Decidable (Safe s env) :=
  inferInstanceAs (Decidable (_ ∧ _))

/-- The invariant of a run in which nothing is lost. -/
structure Faithful (sent : List (List UInt8)) (s : Link) : Prop where
  chunks : Chunks s.port
  pos : s.mmdvm.pos < 255
  unread : Unread mmdvmFormat sent s.handed s.mmdvm.buffered (portBytes s.port)

/-- A buffer that is not empty begins with a frame start. -/
theorem frame_start {sent handed : List (List UInt8)} {frame : DmrMmdvmFrame} {pos : Nat}
    {port : List UInt8} (h : Unread mmdvmFormat sent handed (frame.toList.take pos) port)
    (hpos : 0 < pos) : frameStart frame = DMR_MMDVM_FRAME_START := by
  have hlen : 0 < (frame.toList.take pos).length := by
    rw [List.length_take, Vector.length_toList]
    omega
  obtain ⟨f, hf, hhead⟩ := h.head (List.ne_nil_of_length_pos hlen)
  have hstart : f.head? = some DMR_MMDVM_FRAME_START := WellFormed.start hf
  rw [hstart, List.head?_take, if_neg (by omega), List.head?_eq_getElem?] at hhead
  simpa using hhead.symm

/-- `bytes` have come off the line and into the buffer. -/
structure Filled (sent handed : List (List UInt8)) (old : DmrMmdvm) (bytes : List UInt8)
    (new : DmrMmdvm) (port : List SerialRead) : Prop where
  pos : new.pos = old.pos + bytes.length
  room : new.pos ≤ 255
  frame : new.frame.toList = old.buffered ++ bytes ++ old.frame.toList.drop new.pos
  chunks : Chunks port
  unread : Unread mmdvmFormat sent handed (old.buffered ++ bytes) (portBytes port)

namespace Filled

variable {sent handed : List (List UInt8)} {old mid new : DmrMmdvm} {bytes more : List UInt8}
  {port port' : List SerialRead}

theorem length_buffered (h : Filled sent handed old bytes new port) :
    (old.buffered ++ bytes).length = new.pos := by
  have hroom := h.room
  have hpos := h.pos
  rw [List.length_append, DmrMmdvm.length_buffered (by omega), hpos]

theorem buffered (h : Filled sent handed old bytes new port) :
    new.buffered = old.buffered ++ bytes := by
  rw [DmrMmdvm.buffered, h.frame]
  exact List.take_left' h.length_buffered

theorem trans (h : Filled sent handed old bytes mid port)
    (h' : Filled sent handed mid more new port') :
    Filled sent handed old (bytes ++ more) new port' where
  pos := by rw [h'.pos, h.pos, List.length_append, Nat.add_assoc]
  room := h'.room
  frame := by
    have hle : mid.pos ≤ new.pos := by
      rw [h'.pos]
      exact Nat.le_add_right _ _
    have hdrop : mid.frame.toList.drop new.pos = old.frame.toList.drop new.pos := by
      rw [h.frame, List.drop_append, List.drop_eq_nil_of_le (by rwa [h.length_buffered]),
        h.length_buffered, List.nil_append, List.drop_drop, Nat.add_sub_cancel' hle]
    rw [h'.frame, h.buffered, hdrop, List.append_assoc old.buffered]
  chunks := h'.chunks
  unread := by
    have hunread := h'.unread
    rwa [h.buffered, List.append_assoc] at hunread

end Filled

/-- A read appends what it finds to the buffer, if there is room for it. -/
theorem readAgain_spec {sent handed : List (List UInt8)} {mmdvm : DmrMmdvm}
    {port : List SerialRead} (past : Nat → UInt8) (len : Nat) (hchunks : Chunks port)
    (hpos : mmdvm.pos ≤ 255)
    (hunread : Unread mmdvmFormat sent handed mmdvm.buffered (portBytes port))
    (hfits : mmdvm.pos + (serialReadNonblock len none port).bytes.length ≤ 255) :
    ∃ mmdvm', readAgain past len mmdvm port = some
        (((serialReadNonblock len none port).bytes.length : Int), mmdvm',
          (serialReadNonblock len none port).port) ∧
      Filled sent handed mmdvm (serialReadNonblock len none port).bytes mmdvm'
        (serialReadNonblock len none port).port := by
  have hunread' : Unread mmdvmFormat sent handed
      (mmdvm.buffered ++ (serialReadNonblock len none port).bytes)
      (portBytes (serialReadNonblock len none port).port) := by
    refine Unread.arrive ?_
    rwa [← hchunks.portBytes_read]
  have hport := hchunks.read len none
  rw [readAgain, hchunks.serialRetry, hchunks.ret_read]
  split
  · next hret =>
    -- nothing was read
    have hnil : (serialReadNonblock len none port).bytes = [] :=
      List.length_eq_zero_iff.mp (by omega)
    refine ⟨mmdvm, rfl, ?_, hpos, ?_, hport, hunread'⟩
    · rw [hnil, List.length_nil, Nat.add_zero]
    · rw [hnil, List.append_nil, DmrMmdvm.buffered, List.take_append_drop]
  · obtain ⟨frame, hstore, hframe⟩ := storeBytes_spec mmdvm.frame hfits
    have htake : frame.toList.take (mmdvm.pos + (serialReadNonblock len none port).bytes.length) =
        mmdvm.buffered ++ (serialReadNonblock len none port).bytes := by
      rw [hframe]
      refine List.take_left' ?_
      rw [List.length_append, ← DmrMmdvm.buffered, DmrMmdvm.length_buffered hpos]
    rw [hstore, Option.bind_eq_bind, Option.bind_some,
      seekStart_eq (frame_start (by rwa [htake]))]
    exact ⟨_, rfl, rfl, hfits, hframe, hport, hunread'⟩

/-- The reads of a call together add what is arriving to the buffer. -/
theorem collect_spec {sent : List (List UInt8)} {s : Link} (hinv : Faithful sent s)
    (hfits : (arrived s).length ≤ 255) (past : Nat → UInt8) :
    ∃ ret mmdvm port, collect past s.mmdvm s.port = some (ret, mmdvm, port) ∧
      Filled sent s.handed s.mmdvm (arriving s) mmdvm port ∧
      (ret ≤ 0 → s.port = [] ∨ mmdvm.pos < 3) ∧ (s.port = [] → ret ≤ 0) := by
  have hpos := hinv.pos
  have hlen : (2 ^ 64 + 255 - s.mmdvm.pos) % 2 ^ 64 = 255 - s.mmdvm.pos := by omega
  rw [arrived, List.length_append, DmrMmdvm.length_buffered hpos.le] at hfits
  have hfirst := hinv.chunks.length_read (255 - s.mmdvm.pos) none
  obtain ⟨mid, hread, hmid⟩ := readAgain_spec past (255 - s.mmdvm.pos) hinv.chunks hpos.le
    hinv.unread (by omega)
  have hnil : ∀ h : ((serialReadNonblock (255 - s.mmdvm.pos) none s.port).bytes.length : Int) ≤ 0,
      s.port = [] := by
    intro hle
    by_contra hne
    refine hinv.chunks.bytes_read_ne_nil hne (show 0 < 255 - s.mmdvm.pos by omega) none ?_
    exact List.length_eq_zero_iff.mp (by omega)
  simp only [collect, hlen, hread, Option.bind_eq_bind, Option.bind_some]
  split
  · next hdone =>
    have harr : arriving s = (serialReadNonblock (255 - s.mmdvm.pos) none s.port).bytes := by
      rw [arriving]
      split
      · rfl
      · next hshort =>
        -- nothing came in, and nothing is left to come
        have hport := hnil (hdone.resolve_right (by rwa [hmid.pos]))
        rw [hport]
        rfl
    refine ⟨_, _, _, rfl, ?_, fun hret => .inl (hnil hret), ?_⟩
    · rwa [harr]
    · intro hport
      rw [hport]
      rfl
  · next hmore =>
    obtain ⟨hret, hshort⟩ := not_or.mp hmore
    have harr : arriving s = (serialReadNonblock (255 - s.mmdvm.pos) none s.port).bytes ++
        (serialReadNonblock (255 - s.mmdvm.pos) none
          (serialReadNonblock (255 - s.mmdvm.pos) none s.port).port).bytes :=
      if_neg (by rwa [← hmid.pos])
    rw [harr, List.length_append, ← Nat.add_assoc, ← hmid.pos] at hfits
    have hunread := hmid.unread
    rw [← hmid.buffered] at hunread
    obtain ⟨new, hread', hnew⟩ := readAgain_spec past (255 - s.mmdvm.pos) hmid.chunks hmid.room
      hunread hfits
    rw [harr]
    refine ⟨_, _, _, hread', hmid.trans hnew, fun hle => .inr ?_, ?_⟩
    · have hpos' := hnew.pos
      omega
    · intro hport
      rw [hport] at hret
      exact absurd le_rfl hret

namespace Filled

variable {sent : List (List UInt8)} {s : Link} {mmdvm mmdvm' : DmrMmdvm} {port : List SerialRead}

/-- A call that parses nothing leaves what it collected. -/
theorem wait (h : Filled sent s.handed s.mmdvm (arriving s) mmdvm port) (hpos : mmdvm.pos < 255) :
    Faithful sent ⟨mmdvm, port, s.handed ++ []⟩ := by
  refine ⟨h.chunks, hpos, ?_⟩
  rw [List.append_nil, h.buffered]
  exact h.unread

/-- The length byte, once it is there. -/
theorem lengthByte_eq (h : Filled sent s.handed s.mmdvm (arriving s) mmdvm port)
    (hpos : 2 ≤ mmdvm.pos) : (frameLength mmdvm.frame).toNat = lengthByte (arrived s) := by
  have hbuf : mmdvm.buffered = arrived s := h.buffered
  rw [← hbuf, lengthByte, DmrMmdvm.buffered, List.getD_eq_getElem?_getD,
    List.getElem?_take_of_lt (by omega)]
  simp

/-- A call that hands a frame to the parser, which leaves the buffer alone, moves up
what is behind it. -/
theorem handOver (h : Filled sent s.handed s.mmdvm (arriving s) mmdvm port)
    (hpos : 3 ≤ mmdvm.pos) (hcomplete : (frameLength mmdvm.frame).toNat ≤ mmdvm.pos)
    (hzero : ∀ b ∈ (arrived s).drop (2 * lengthByte (arrived s)), b = 0)
    (hframe : mmdvm'.frame = mmdvm.frame) (hpos' : mmdvm'.pos = mmdvm.pos) (past : Nat → UInt8) :
    Faithful sent ⟨shiftFrame past mmdvm', port,
      s.handed ++ [mmdvm.frame.toList.take (frameLength mmdvm.frame).toNat]⟩ := by
  have hbuf : mmdvm.buffered = arrived s := h.buffered
  have hlen : (arrived s).length = mmdvm.pos := h.length_buffered
  have hlb := h.lengthByte_eq (by omega)
  have hroom : mmdvm'.pos ≤ 255 := hpos' ▸ h.room
  have hbuf' : mmdvm'.buffered = arrived s := by
    rw [DmrMmdvm.buffered, hframe, hpos']
    exact hbuf
  have hlb' : (frameLength mmdvm'.frame).toNat = lengthByte (arrived s) := by rw [hframe, hlb]
  have hinside : lengthByte (arrived s) ≤ (arrived s).length := by omega
  obtain ⟨hwf, hunread⟩ := h.unread.hand (show 2 ≤ (arrived s).length by omega) hinside
  -- a frame is never empty, so there is room in the buffer afterwards
  have hmin : 3 ≤ lengthByte (arrived s) := by
    have hmin : 3 ≤ ((arrived s).take (lengthByte (arrived s))).length := WellFormed.min hwf
    rwa [List.length_take, Nat.min_eq_left hinside] at hmin
  have hhanded : mmdvm.frame.toList.take (frameLength mmdvm.frame).toNat =
      (arrived s).take (lengthByte (arrived s)) := by
    rw [← hbuf, DmrMmdvm.buffered, List.take_take, ← DmrMmdvm.buffered, hbuf, ← hlb,
      Nat.min_eq_left hcomplete]
  refine ⟨h.chunks, ?_, ?_⟩
  · show (if mmdvm'.pos ≥ (frameLength mmdvm'.frame).toNat then
        mmdvm'.pos - (frameLength mmdvm'.frame).toNat else 0) <
      255
    split <;> omega
  · show Unread mmdvmFormat sent
      (s.handed ++ [mmdvm.frame.toList.take (frameLength mmdvm.frame).toNat])
      (shiftFrame past mmdvm').buffered (portBytes port)
    rw [hhanded, buffered_shiftFrame hroom (by omega) (by rwa [hbuf', hlb']), hbuf', hlb']
    exact hunread

end Filled

/-- A call that loses nothing keeps the invariant. -/
theorem linkStep_spec {sent : List (List UInt8)} {s : Link} {env : ReadEnv}
    (hinv : Faithful sent s) (hsafe : Safe s env) :
    ∃ s', linkStep s env = some s' ∧ Faithful sent s' := by
  obtain ⟨hfits, hframe⟩ := hsafe
  obtain ⟨ret, mmdvm, port, hcollect, hfilled, hret, hport⟩ := collect_spec hinv hfits env.past
  have hlen : (arrived s).length = mmdvm.pos := hfilled.length_buffered
  simp only [linkStep, dmrMmdvmRead, hcollect, Option.bind_eq_bind, Option.bind_some]
  by_cases hnone : ret ≤ 0
  · rw [if_pos hnone]
    refine ⟨_, rfl, hfilled.wait ?_⟩
    rcases hret hnone with hnil | hlt
    · have hpos := hfilled.pos
      have hinvpos := hinv.pos
      have harr : arriving s = [] := by
        rw [arriving, hnil]
        split <;> rfl
      rw [harr, List.length_nil] at hpos
      omega
    · omega
  rw [if_neg hnone]
  by_cases h3 : mmdvm.pos < 3
  · rw [if_pos h3]
    exact ⟨_, rfl, hfilled.wait (by omega)⟩
  rw [if_neg h3]
  by_cases hmore : mmdvm.pos < (frameLength mmdvm.frame).toNat
  · rw [if_pos hmore]
    refine ⟨_, rfl, hfilled.wait ?_⟩
    have := (frameLength mmdvm.frame).toNat_lt
    omega
  rw [if_neg hmore]
  -- a frame is complete, and parsing it stays inside the buffer
  have hlb := hfilled.lengthByte_eq (by omega)
  have hhas : HasFrame s := ⟨fun hnil => hnone (hport hnil), by omega, by omega⟩
  obtain ⟨hinside, hzero⟩ := hframe hhas
  have hframe' : mmdvm.frame.toList = arrivedFrame s := by
    rw [hfilled.frame, arrivedFrame, hlen, arrived]
  rw [← hframe'] at hinside
  obtain ⟨ret', mmdvm', parsed, hparse, hsame, hsamepos⟩ := dmrMmdvmParseFrame_spec hinside
  rw [hparse]
  exact ⟨_, rfl, hfilled.handOver (Nat.not_lt.mp h3) (Nat.not_lt.mp hmore) hzero hsame hsamepos _⟩

/-- **In order.** Whatever well-formed frames the modem sends and however the line
cuts them: as long as every call is safe, every call returns, and the frames handed
to the parser are, byte for byte, the first ones sent. -/
theorem throughout_inOrder {sent chunks : List (List UInt8)} (hsent : ∀ f ∈ sent, WellFormed f)
    (hchunks : chunks.flatten = sent.flatten) (hne : ∀ c ∈ chunks, c ≠ []) {envs : List ReadEnv}
    (hsafe : Throughout linkStep Safe (Link.start chunks) envs) :
    Throughout linkStep (InOrder sent) (Link.start chunks) envs := by
  have hstart : Faithful sent (Link.start chunks) := by
    refine ⟨chunks_map hne, show 0 < 255 by decide, ?_⟩
    refine Unread.start hsent ?_
    rw [Link.start, portBytes_map, hchunks]
  refine Throughout.mono (I := Faithful sent) ?_ ?_ hstart hsafe
  · intro s env hinv hsafe
    obtain ⟨s', hs', hinv'⟩ := linkStep_spec hinv hsafe
    exact ⟨s', hs', hinv'.unread.isPrefix⟩
  · intro s env s' hinv hsafe hs'
    obtain ⟨t, ht, hinv'⟩ := linkStep_spec hinv hsafe
    rw [hs', Option.some.injEq] at ht
    rwa [ht]

/-- An ACK in two pieces, the second one together with most of a NAK. -/
theorem throughout_inOrder_ack :
    let sent : List (List UInt8) := [[0xe0, 4, 0x70, 2], [0xe0, 5, 0x7f, 2, 1]]
    let chunks : List (List UInt8) := [[0xe0], [4, 0x70, 2, 0xe0, 5, 0x7f, 2], [1]]
    let env : ReadEnv := ⟨fun _ => 0, true⟩
    Throughout linkStep (InOrder sent) (Link.start chunks) [env, env, env] := by
  intro sent chunks env
  exact throughout_inOrder (by decide) (by decide) (by decide) (by decide +kernel)

/-- An ACK and a NAK that arrive together: the NAK loses its last byte, the reason. -/
theorem not_inOrder_together :
    let sent : List (List UInt8) := [[0xe0, 4, 0x70, 2], [0xe0, 5, 0x7f, 2, 1], [0xe0, 3, 0x1d]]
    let chunks : List (List UInt8) := [[0xe0, 4, 0x70, 2, 0xe0, 5, 0x7f, 2, 1], [0xe0, 3, 0x1d]]
    let env : ReadEnv := ⟨fun _ => 0, true⟩
    (∀ f ∈ sent, WellFormed f) ∧ chunks.flatten = sent.flatten ∧ (∀ c ∈ chunks, c ≠ []) ∧
      ¬ Throughout linkStep (InOrder sent) (Link.start chunks) [env, env] ∧
      (after linkStep (Link.start chunks) [env, env]).map (·.handed) =
        some [[0xe0, 4, 0x70, 2], [0xe0, 5, 0x7f, 2, 0]] := by
  intro sent chunks env
  refine ⟨by decide, by decide, by decide, ?_, ?_⟩
  · decide +kernel
  · decide +kernel

end Dmrlib
