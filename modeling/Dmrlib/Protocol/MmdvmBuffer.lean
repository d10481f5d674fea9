import Dmrlib.Protocol.MmdvmStream

/-!
# The receive buffer of the MMDVM modem

Everything `dmrMmdvmRead` does to its 255 bytes, seen as two lists: the bytes that
`pos` counts (`front`), and those behind them. A read moves bytes from the line to the
end of the first list, the search for a frame start drops bytes from its beginning.

Two things are asked of a call. It must not touch a byte outside of the buffer
(`InBounds`), and it must leave room for another read (`MakesRoom`). Neither holds of
all calls:

- the search moves 255 bytes from index 1 on, and so reads the one behind the buffer;
- the second read of a call asks for as many bytes as the first one did;
- the shift by the length of a frame reads up to twice that length;
- a frame whose length byte is zero stays where it is.
-/

namespace Dmrlib

open Loop Run

/-! ## The buffer as two lists

The bytes in front of the position, and those behind it. Stores and shifts are operations on
lists.
-/

/-- The collection buffer, cut at `pos`. -/
structure Collected where
  front : List UInt8
  behind : List UInt8
deriving DecidableEq

namespace Collected

/-- All of the buffer. -/
def bytes (c : Collected) : List UInt8 := c.front ++ c.behind

/-- A frame buffer that is filled up to `pos`. -/
def ofFrame (frame : DmrMmdvmFrame) (pos : Nat) : Collected :=
  ⟨frame.toList.take pos, frame.toList.drop pos⟩

/-- Bytes come in. -/
def store (c : Collected) (bytes : List UInt8) : Collected :=
  ⟨c.front ++ bytes, c.behind.drop bytes.length⟩

/-- The bytes in front of the first frame start go. For each of them the byte behind the
buffer comes in at the far end. -/
def seek (next : UInt8) (c : Collected) : Collected :=
  ⟨c.front.dropWhile (· ≠ DMR_MMDVM_FRAME_START),
    c.behind ++ List.replicate (c.front.takeWhile (· ≠ DMR_MMDVM_FRAME_START)).length next⟩

@[simp]
theorem bytes_ofFrame (frame : DmrMmdvmFrame) (pos : Nat) :
    (ofFrame frame pos).bytes = frame.toList :=
  List.take_append_drop _ _

theorem length_front_ofFrame (frame : DmrMmdvmFrame) {pos : Nat} (hpos : pos ≤ 255) :
    (ofFrame frame pos).front.length = pos := by
  rw [ofFrame, List.length_take, Vector.length_toList, Nat.min_eq_left hpos]

theorem seek_start (next : UInt8) (front behind : List UInt8) :
    seek next ⟨DMR_MMDVM_FRAME_START :: front, behind⟩ =
      ⟨DMR_MMDVM_FRAME_START :: front, behind⟩ := by
  simp [seek]

theorem seek_skip (next : UInt8) {b : UInt8} (hb : b ≠ DMR_MMDVM_FRAME_START)
    (front behind : List UInt8) :
    seek next ⟨b :: front, behind⟩ = seek next ⟨front, behind ++ [next]⟩ := by
  simp [seek, hb, List.replicate_succ]

/-- A buffer that was searched is empty or begins with a frame start. -/
theorem head?_seek (next : UInt8) (c : Collected) (hne : (c.seek next).front ≠ []) :
    (c.seek next).front.head? = some DMR_MMDVM_FRAME_START := by
  have hnot := List.head?_dropWhile_not (· ≠ DMR_MMDVM_FRAME_START) c.front
  cases hfront : (c.seek next).front with
  | nil => exact absurd hfront hne
  | cons b front =>
    rw [show c.front.dropWhile (· ≠ DMR_MMDVM_FRAME_START) = b :: front from hfront] at hnot
    simpa using hnot

end Collected

/-- A byte that `pos` counts. -/
theorem getD_front {frame : DmrMmdvmFrame} {pos i : Nat} (hpos : pos ≤ 255) (hi : i < pos) :
    (Collected.ofFrame frame pos).front.getD i 0 = frame[i] := by
  rw [Collected.ofFrame, List.getD_eq_getElem _ _ (by simp; omega), List.getElem_take,
    Vector.getElem_toList]

theorem head?_front {frame : DmrMmdvmFrame} {pos : Nat} (hne : pos ≠ 0) :
    (Collected.ofFrame frame pos).front.head? = some (frameStart frame) := by
  rw [Collected.ofFrame, List.head?_take, if_neg hne, List.head?_eq_getElem?]
  simp

/-- The buffer of the modem. -/
def DmrMmdvm.collected (mmdvm : DmrMmdvm) : Collected := .ofFrame mmdvm.frame mmdvm.pos

/-- Bytes that fit are put behind those that are there. -/
theorem ofFrame_storeBytes {frame frame' : DmrMmdvmFrame} {pos : Nat} {bytes : List UInt8}
    (h : storeBytes frame pos bytes = some frame') :
    Collected.ofFrame frame' (pos + bytes.length) = (Collected.ofFrame frame pos).store bytes := by
  have hfits : pos + bytes.length ≤ 255 := by
    by_contra hmore
    rw [storeBytes, if_neg hmore] at h
    cases h
  obtain ⟨frame'', hstore, hframe⟩ := storeBytes_spec frame hfits
  rw [h, Option.some.injEq] at hstore
  subst hstore
  have hlen : (frame.toList.take pos ++ bytes).length = pos + bytes.length := by
    rw [List.length_append, List.length_take, Vector.length_toList, Nat.min_eq_left (by omega)]
  rw [Collected.ofFrame, hframe, List.take_left' hlen, List.drop_left' hlen, Collected.store,
    Collected.ofFrame, List.drop_drop]

/-- What one round of the search moves. -/
theorem toList_moved (past : Nat → UInt8) (frame : DmrMmdvmFrame) :
    (Vector.ofFn fun i : Fin 255 => byteAt past frame (i.val + 1)).toList =
      frame.toList.tail ++ [past 255] := by
  have htail : frame.toList.tail.length = 254 := by simp
  refine List.ext_getElem (by simp) fun i h1 h2 => ?_
  have hi : i < 255 := by simpa using h1
  rw [Vector.getElem_toList, Vector.getElem_ofFn, byteAt]
  by_cases hlast : i < 254
  · rw [dif_pos (show i + 1 < 255 by omega), List.getElem_append_left (by omega),
      List.getElem_tail, Vector.getElem_toList]
  · rw [dif_neg (show ¬ i + 1 < 255 by omega), List.getElem_append_right (by omega),
      List.getElem_singleton]
    congr 1
    show i + 1 = 255
    omega

theorem ofFrame_seekStart (past : Nat → UInt8) {pos : Nat} (hpos : pos ≤ 255)
    (frame : DmrMmdvmFrame) :
    Collected.ofFrame (seekStart past pos frame).1 (seekStart past pos frame).2 =
      (Collected.ofFrame frame pos).seek (past 255) := by
  induction pos generalizing frame with
  | zero => simp [seekStart, Collected.ofFrame, Collected.seek]
  | succ pos ih =>
    have hcons : frame.toList = frameStart frame :: frame.toList.tail := by
      have hdrop := List.getElem_cons_drop (show 0 < frame.toList.length by simp)
      rw [Vector.getElem_toList, List.drop_zero, List.drop_one] at hdrop
      exact hdrop.symm
    have htail : frame.toList.tail.length = 254 := by simp
    have hframe : Collected.ofFrame frame (pos + 1) =
        ⟨frameStart frame :: frame.toList.tail.take pos, frame.toList.tail.drop pos⟩ := by
      rw [Collected.ofFrame, hcons]
      rfl
    rw [seekStart]
    by_cases hstart : frameStart frame = DMR_MMDVM_FRAME_START
    · rw [if_neg (not_not.mpr hstart), hframe, hstart, Collected.seek_start, ← hstart, ← hframe]
    · -- one byte goes in front, one comes in at the far end
      rw [if_pos hstart, ih (by omega), hframe, Collected.seek_skip _ hstart, Collected.ofFrame,
        toList_moved, List.take_append_of_le_length (by omega),
        List.drop_append_of_le_length (by omega)]

/-! ## The line

What a read of a given length gets, and what the line has after it.
-/

/-- A read that finds nothing returns zero or an error, one that finds something how much. -/
theorem serialReadNonblock_ret (len : Nat) (errno : Option Errno) (port : List SerialRead) :
    (serialReadNonblock len errno port).bytes.length ≤ len ∧
      ((serialReadNonblock len errno port).ret ≤ 0 ↔
        (serialReadNonblock len errno port).bytes = []) := by
  match port with
  | [] => exact ⟨Nat.zero_le _, iff_of_true le_rfl rfl⟩
  | .data bytes :: port =>
    refine ⟨List.length_take_le _ _, ?_⟩
    show ((bytes.take len).length : Int) ≤ 0 ↔ bytes.take len = []
    rw [← List.length_eq_zero_iff]
    omega
  | .fail code e :: port =>
    refine ⟨Nat.zero_le _, iff_of_true ?_ rfl⟩
    show -(code : Int) ≤ 0
    omega

theorem serialRetry_ret (len retries : Nat) (errno : Option Errno) (port : List SerialRead) :
    (serialRetry len retries errno port).bytes.length ≤ len ∧
      ((serialRetry len retries errno port).ret ≤ 0 ↔
        (serialRetry len retries errno port).bytes = []) := by
  induction retries generalizing errno port with
  | zero => exact serialReadNonblock_ret len errno port
  | succ retries ih =>
    rw [serialRetry]
    split
    · exact ih _ _
    · exact serialReadNonblock_ret len errno port

/-- The bytes that a read for `len` of them gets, after its retries … -/
def delivered (len : Nat) (port : List SerialRead) : List UInt8 :=
  (serialRetry len 16 none port).bytes

/-- … and the line after it. -/
def lineAfter (len : Nat) (port : List SerialRead) : List SerialRead :=
  (serialRetry len 16 none port).port

/-- What the code from `read_again` on can do. -/
inductive ReadAgain (past : Nat → UInt8) (len : Nat) (mmdvm : DmrMmdvm) (port : List SerialRead) :
    Option (Int × DmrMmdvm × List SerialRead) → Prop where
  | nothing {ret : Int} (hret : ret ≤ 0) (hnil : delivered len port = []) :
    ReadAgain past len mmdvm port (some (ret, mmdvm, lineAfter len port))
  | overrun (hne : delivered len port ≠ [])
    (hmore : 255 < mmdvm.pos + (delivered len port).length) :
    ReadAgain past len mmdvm port none
  | stored {ret : Int} {mmdvm' : DmrMmdvm} (hret : ¬ ret ≤ 0) (hne : delivered len port ≠ [])
    (hfits : mmdvm.pos + (delivered len port).length ≤ 255) (hpos : mmdvm'.pos ≤ 255)
    (hcollected : mmdvm'.collected =
      (mmdvm.collected.store (delivered len port)).seek (past 255)) :
    ReadAgain past len mmdvm port (some (ret, mmdvm', lineAfter len port))

theorem pos_seekStart_le (past : Nat → UInt8) (pos : Nat) (frame : DmrMmdvmFrame) :
    (seekStart past pos frame).2 ≤ pos := by
  induction pos generalizing frame with
  | zero => exact le_rfl
  | succ pos ih =>
    rw [seekStart]
    split
    · exact (ih _).trans (Nat.le_succ pos)
    · exact le_rfl

theorem readAgain_cases (past : Nat → UInt8) (len : Nat) (mmdvm : DmrMmdvm)
    (port : List SerialRead) :
    ReadAgain past len mmdvm port (readAgain past len mmdvm port) := by
  have hempty := (serialRetry_ret len 16 none port).2
  by_cases hret : (serialRetry len 16 none port).ret ≤ 0
  · rw [readAgain, if_pos hret]
    exact .nothing hret (hempty.mp hret)
  rw [readAgain, if_neg hret]
  have hne : delivered len port ≠ [] := fun hnil => hret (hempty.mpr hnil)
  by_cases hfits : mmdvm.pos + (serialRetry len 16 none port).bytes.length ≤ 255
  · obtain ⟨frame, hstore, -⟩ := storeBytes_spec mmdvm.frame hfits
    rw [hstore, Option.bind_eq_bind, Option.bind_some]
    refine .stored hret hne hfits ((pos_seekStart_le past _ _).trans hfits) ?_
    exact (ofFrame_seekStart past hfits frame).trans
      (congrArg (Collected.seek (past 255)) (ofFrame_storeBytes hstore))
  · rw [storeBytes, if_neg hfits]
    exact .overrun hne (Nat.not_le.mp hfits)

/-! ## What the reads of a call come to

A call makes one read or two. Together they store what has arrived, or nothing, or too much.
-/

/-- The buffer once the reads of a call are over. -/
inductive Gathered where
  /-- The last read brought nothing, and the call is over. -/
  | nothing
  /-- They brought more than there is room for. -/
  | overrun
  | bytes (c : Collected)

/-- What the first read of the next call brings. -/
def firstRead (s : Link) : List UInt8 := delivered (255 - s.mmdvm.pos) s.port

/-- What a second one would. -/
def secondRead (s : Link) : List UInt8 :=
  delivered (255 - s.mmdvm.pos) (lineAfter (255 - s.mmdvm.pos) s.port)

/-- The reads of the next call, with `next` as the byte behind the buffer: there is a
second one if the first leaves fewer than three bytes. -/
def gathered (next : UInt8) (s : Link) : Gathered :=
  let first := (s.mmdvm.collected.store (firstRead s)).seek next
  if firstRead s = [] then .nothing
  else if 3 ≤ first.front.length then .bytes first
  else if secondRead s = [] then .nothing
  else if 255 < first.front.length + (secondRead s).length then .overrun
  else .bytes ((first.store (secondRead s)).seek next)

theorem DmrMmdvm.length_collected {mmdvm : DmrMmdvm} (hpos : mmdvm.pos ≤ 255) :
    mmdvm.collected.front.length = mmdvm.pos :=
  Collected.length_front_ofFrame mmdvm.frame hpos

/-- What the reads of a call can come to. -/
inductive Collects (next : UInt8) (s : Link) :
    Option (Int × DmrMmdvm × List SerialRead) → Prop where
  | nothing {ret : Int} {mmdvm : DmrMmdvm} {port : List SerialRead} (hret : ret ≤ 0)
    (hgathered : gathered next s = .nothing) (hpos : mmdvm.pos = s.mmdvm.pos ∨ mmdvm.pos < 3) :
    Collects next s (some (ret, mmdvm, port))
  | overrun (hgathered : gathered next s = .overrun) : Collects next s none
  | bytes {ret : Int} {mmdvm : DmrMmdvm} {port : List SerialRead} (hret : ¬ ret ≤ 0)
    (hgathered : gathered next s = .bytes mmdvm.collected) (hpos : mmdvm.pos ≤ 255) :
    Collects next s (some (ret, mmdvm, port))

/-- The second read of a call, when the first left fewer than three bytes. -/
theorem readAgain_collects (past : Nat → UInt8) {s : Link} {mid : DmrMmdvm}
    (hshort : mid.pos < 3)
    (hgathered : gathered (past 255) s =
      if secondRead s = [] then .nothing
      else if 255 < mid.pos + (secondRead s).length then .overrun
      else .bytes ((mid.collected.store (secondRead s)).seek (past 255))) :
    Collects (past 255) s (readAgain past (255 - s.mmdvm.pos) mid
      (lineAfter (255 - s.mmdvm.pos) s.port)) := by
  have hsecond := readAgain_cases past (255 - s.mmdvm.pos) mid
    (lineAfter (255 - s.mmdvm.pos) s.port)
  cases hread : readAgain past (255 - s.mmdvm.pos) mid
      -- three ways a second read can end
      (lineAfter (255 - s.mmdvm.pos) s.port) with
  | none =>
    rw [hread] at hsecond
    cases hsecond with
    | overrun hne hmore =>
      refine .overrun ?_
      rw [hgathered, if_neg (show secondRead s ≠ [] from hne)]
      exact if_pos hmore
  | some r =>
    rw [hread] at hsecond
    cases hsecond with
    | nothing hret hnil =>
      refine .nothing hret ?_ (.inr hshort)
      rw [hgathered]
      exact if_pos hnil
    | stored hret hne hfits hpos hcollected =>
      refine .bytes hret ?_ hpos
      rw [hgathered, if_neg (show secondRead s ≠ [] from hne),
        if_neg (show ¬ 255 < mid.pos + (secondRead s).length from Nat.not_lt.mpr hfits),
        hcollected]
      rfl

theorem collect_cases (past : Nat → UInt8) {s : Link} (hpos : s.mmdvm.pos ≤ 255) :
    Collects (past 255) s (collect past s.mmdvm s.port) := by
  have hlen : (2 ^ 64 + 255 - s.mmdvm.pos) % 2 ^ 64 = 255 - s.mmdvm.pos := by omega
  simp only [collect, hlen]
  have hfirst := readAgain_cases past (255 - s.mmdvm.pos) s.mmdvm s.port
  cases hread : readAgain past (255 - s.mmdvm.pos) s.mmdvm s.port with
  | none =>
    rw [hread] at hfirst
    cases hfirst with
    | overrun hne hmore =>
      -- the first read asks for what there is room for
      have hle := (serialRetry_ret (255 - s.mmdvm.pos) 16 none s.port).1
      rw [delivered] at hmore
      omega
  | some r =>
    rw [hread] at hfirst
    rw [Option.bind_eq_bind, Option.bind_some]
    cases hfirst with
    | nothing hret hnil =>
      rw [if_pos (.inl hret)]
      exact .nothing hret (if_pos hnil) (.inl rfl)
    | @stored ret mid hret hne hfits hmid hcollected =>
      have hgathered : gathered (past 255) s =
          if 3 ≤ mid.pos then .bytes mid.collected
          else if secondRead s = [] then .nothing
          else if 255 < mid.pos + (secondRead s).length then .overrun
          else .bytes ((mid.collected.store (secondRead s)).seek (past 255)) := by
        rw [← DmrMmdvm.length_collected hmid, hcollected]
        exact if_neg hne
      by_cases henough : 3 ≤ mid.pos
      · rw [if_pos (.inr henough)]
        refine .bytes hret ?_ hmid
        rw [hgathered, if_pos henough]
      · rw [if_neg (not_or.mpr ⟨hret, henough⟩)]
        rw [if_neg henough] at hgathered
        exact readAgain_collects past (Nat.not_le.mp henough) hgathered

/-- Only what begins with a frame start is handed on. -/
theorem head?_gathered {next : UInt8} {s : Link} {c : Collected}
    (h : gathered next s = .bytes c) (hne : c.front ≠ []) :
    c.front.head? = some DMR_MMDVM_FRAME_START := by
  simp only [gathered] at h
  split at h
  · cases h
  split at h
  · obtain rfl := Gathered.bytes.inj h
    exact Collected.head?_seek _ _ hne
  split at h
  · cases h
  split at h
  · cases h
  · obtain rfl := Gathered.bytes.inj h
    exact Collected.head?_seek _ _ hne

theorem frame_start_gathered {next : UInt8} {s : Link} {mmdvm : DmrMmdvm}
    (h : gathered next s = .bytes mmdvm.collected) (hpos : mmdvm.pos ≤ 255)
    (h3 : 3 ≤ mmdvm.pos) : frameStart mmdvm.frame = DMR_MMDVM_FRAME_START := by
  have hcount := DmrMmdvm.length_collected hpos
  have hhead := head?_gathered h (List.ne_nil_of_length_pos (by omega))
  rw [DmrMmdvm.collected, head?_front (by omega), Option.some.injEq] at hhead
  exact hhead

/-! ## What the parser does to the buffer

It leaves it alone; only the description of the version is copied elsewhere.
-/

/-- A frame that the parser does not survive. -/
theorem dmrMmdvmParseFrame_none {allocated : Bool} {mmdvm : DmrMmdvm}
    (hstart : frameStart mmdvm.frame = DMR_MMDVM_FRAME_START)
    (h : ¬ ParsesInside allocated mmdvm.frame.toList) :
    dmrMmdvmParseFrame allocated mmdvm mmdvm.frame = none := by
  rw [ParsesInside, lengthByte, getD_frame _ (by decide), getD_frame _ (by decide),
    getD_frame _ (by decide)] at h
  rw [dmrMmdvmParseFrame, if_neg (not_not.mpr hstart)]
  by_cases hversion : frameCommand mmdvm.frame = DMR_MMDVM_GET_VERSION
  · rw [if_pos hversion]
    refine if_pos ?_
    by_contra hsafe
    obtain ⟨hmin, hmemory⟩ := not_or.mp hsafe
    refine h ⟨fun _ => ⟨Nat.not_lt.mp hmin, ?_⟩, fun hack => ?_⟩
    · cases allocated with
      | true => exact .inl rfl
      | false => exact .inr (by_contra fun hne => hmemory ⟨rfl, hne⟩)
    · exact absurd (hversion.symm.trans hack) (by decide)
  rw [if_neg hversion]
  by_cases hack : frameCommand mmdvm.frame = DMR_MMDVM_ACK
  · rw [if_neg (by rw [hack]; decide), if_neg (by rw [hack]; decide), if_pos hack]
    refine dif_neg fun hindex => h ⟨fun hc => absurd hc hversion, fun _ => hindex⟩
  · exact absurd ⟨fun hc => absurd hc hversion, fun hc => absurd hc hack⟩ h

/-- The parser leaves the buffer alone, whatever it is given. -/
theorem dmrMmdvmParseFrame_same {allocated : Bool} {mmdvm mmdvm' : DmrMmdvm} {ret : Int}
    {parsed : Option DmrParsedPacket}
    (h : dmrMmdvmParseFrame allocated mmdvm mmdvm.frame = some (ret, mmdvm', parsed)) :
    mmdvm'.frame = mmdvm.frame ∧ mmdvm'.pos = mmdvm.pos := by
  by_cases hstart : frameStart mmdvm.frame = DMR_MMDVM_FRAME_START
  · by_cases hinside : ParsesInside allocated mmdvm.frame.toList
    · obtain ⟨ret', mmdvm'', parsed', hparse, hframe, hpos⟩ := dmrMmdvmParseFrame_spec hinside
      rw [h, Option.some.injEq, Prod.mk.injEq, Prod.mk.injEq] at hparse
      rw [hparse.2.1]
      exact ⟨hframe, hpos⟩
    · rw [dmrMmdvmParseFrame_none hstart hinside] at h
      cases h
  · rw [dmrMmdvmParseFrame, if_pos hstart, Option.some.injEq, Prod.mk.injEq, Prod.mk.injEq] at h
    rw [← h.2.1]
    exact ⟨rfl, rfl⟩

/-! ## Calls -/

/-- A call once its reads have brought something: it waits for more, or it hands the frame
at the front to the parser. -/
theorem linkStep_bytes {s : Link} {env : ReadEnv} {ret : Int} {mmdvm : DmrMmdvm}
    {port : List SerialRead} (hcollect : collect env.past s.mmdvm s.port = some (ret, mmdvm, port))
    (hret : ¬ ret ≤ 0) :
    linkStep s env =
      if mmdvm.pos < 3 ∨ mmdvm.pos < (frameLength mmdvm.frame).toNat then
        some ⟨mmdvm, port, s.handed⟩
      else (dmrMmdvmParseFrame env.allocated mmdvm mmdvm.frame).map fun r =>
        ⟨shiftFrame env.past r.2.1, port,
          s.handed ++ [mmdvm.frame.toList.take (frameLength mmdvm.frame).toNat]⟩ := by
  simp only [linkStep, dmrMmdvmRead, hcollect, Option.bind_eq_bind, Option.bind_some, if_neg hret]
  by_cases h3 : mmdvm.pos < 3
  · rw [if_pos h3, if_pos (.inl h3)]
    exact congrArg some (congrArg (Link.mk _ _) (List.append_nil _))
  rw [if_neg h3]
  by_cases hmore : mmdvm.pos < (frameLength mmdvm.frame).toNat
  · rw [if_pos hmore, if_pos (.inr hmore)]
    exact congrArg some (congrArg (Link.mk _ _) (List.append_nil _))
  rw [if_neg hmore, if_neg (not_or.mpr ⟨h3, hmore⟩)]
  cases dmrMmdvmParseFrame env.allocated mmdvm mmdvm.frame <;> rfl

theorem linkStep_nothing {s : Link} {env : ReadEnv} {ret : Int} {mmdvm : DmrMmdvm}
    {port : List SerialRead} (hcollect : collect env.past s.mmdvm s.port = some (ret, mmdvm, port))
    (hret : ret ≤ 0) : linkStep s env = some ⟨mmdvm, port, s.handed⟩ := by
  simp only [linkStep, dmrMmdvmRead, hcollect, Option.bind_eq_bind, Option.bind_some, if_pos hret]
  exact congrArg some (congrArg (Link.mk _ _) (List.append_nil _))

/-- The shift takes the length of the frame off `pos`. -/
theorem pos_shiftFrame (past : Nat → UInt8) {mmdvm mmdvm' : DmrMmdvm}
    (hsame : mmdvm'.frame = mmdvm.frame ∧ mmdvm'.pos = mmdvm.pos)
    (hcomplete : (frameLength mmdvm.frame).toNat ≤ mmdvm.pos) :
    (shiftFrame past mmdvm').pos = mmdvm.pos - (frameLength mmdvm.frame).toNat := by
  rw [← hsame.1, ← hsame.2] at hcomplete ⊢
  exact if_pos hcomplete

/-- Whatever a call does, `pos` stays in the buffer: a store outside of it is not survived. -/
theorem pos_linkStep_le {s s' : Link} {env : ReadEnv} (hpos : s.mmdvm.pos ≤ 255)
    (h : linkStep s env = some s') : s'.mmdvm.pos ≤ 255 := by
  have hcases := collect_cases env.past hpos
  cases hcollect : collect env.past s.mmdvm s.port with
  | none =>
    rw [linkStep, dmrMmdvmRead, hcollect] at h
    cases h
  | some r =>
    rw [hcollect] at hcases
    cases hcases with
    | @nothing ret mmdvm port hret hgathered hpos' =>
      rw [linkStep_nothing hcollect hret, Option.some.injEq] at h
      subst h
      show mmdvm.pos ≤ 255
      omega
    | bytes hret hgathered hpos' =>
      rw [linkStep_bytes hcollect hret] at h
      split at h
      · rw [Option.some.injEq] at h
        subst h
        exact hpos'
      · next hready =>
        obtain ⟨⟨ret', mmdvm', parsed⟩, hparse, rfl⟩ := Option.map_eq_some_iff.mp h
        show (shiftFrame env.past mmdvm').pos ≤ 255
        rw [pos_shiftFrame _ (dmrMmdvmParseFrame_same hparse)
          (Nat.not_lt.mp (not_or.mp hready).2)]
        exact (Nat.sub_le _ _).trans hpos'

theorem pos_after_le {port : List SerialRead} {envs : List ReadEnv} {s : Link}
    (h : after linkStep ⟨.new, port, []⟩ envs = some s) : s.mmdvm.pos ≤ 255 :=
  inv_after (I := fun s : Link => s.mmdvm.pos ≤ 255)
    (fun _ _ _ hpos hs' => pos_linkStep_le hpos hs') (Nat.zero_le 255) h

/-! ## The bytes a call touches

The places that a call loads from or stores to, each with its length.
-/

/-- Bytes of `frame`: `len` of them from index `start` on. -/
structure Span where
  start : Nat
  len : Nat

/-- They are in the buffer. -/
def Span.Inside (span : Span) : Prop := span.start + span.len ≤ 255

instance (span : Span) : Decidable span.Inside := inferInstanceAs (Decidable (_ ≤ _))

/-- The search for a frame start: the load in its condition, and the two sides of each
`memmove`. -/
def seekSpans (past : Nat → UInt8) : (pos : Nat) → DmrMmdvmFrame → List Span
  | 0, _ => [⟨0, 1⟩]
  | pos + 1, frame =>
    if frameStart frame ≠ DMR_MMDVM_FRAME_START then
      ⟨0, 1⟩ :: ⟨1, 255⟩ :: ⟨0, 255⟩ ::
        seekSpans past pos (Vector.ofFn fun i => byteAt past frame (i.val + 1))
    else [⟨0, 1⟩]

/-- From `read_again` to the end of the search: the bytes the serial port is asked to
fill, and those the search touches. -/
def readSpans (past : Nat → UInt8) (len : Nat) (mmdvm : DmrMmdvm) (port : List SerialRead) :
    List Span :=
  let r := serialRetry len 16 none port
  ⟨mmdvm.pos, len⟩ ::
    if r.ret ≤ 0 then []
    else ((storeBytes mmdvm.frame mmdvm.pos r.bytes).map
      (seekSpans past (mmdvm.pos + r.bytes.length))).getD []

/-- `dmr_mmdvm_parse_frame`: its loads, and the bytes it copies. -/
def parseSpans (frame : DmrMmdvmFrame) : List Span :=
  if frameStart frame ≠ DMR_MMDVM_FRAME_START then [⟨0, 1⟩]
  else [⟨0, 1⟩, ⟨1, 1⟩, ⟨2, 1⟩] ++
    if frameCommand frame = DMR_MMDVM_GET_VERSION then
      [⟨3, 1⟩, ⟨4, (2 ^ 64 + (frameLength frame).toNat - 4) % 2 ^ 64⟩]
    else if frameCommand frame = DMR_MMDVM_GET_STATUS then [⟨3, 1⟩, ⟨4, 1⟩, ⟨5, 1⟩, ⟨6, 4⟩]
    else if frameCommand frame = DMR_MMDVM_DMR_DATA1 ∨
        frameCommand frame = DMR_MMDVM_DMR_DATA2 then
      [⟨4, 33⟩, ⟨3, 1⟩]
    else if frameCommand frame = DMR_MMDVM_ACK then [⟨3, 1⟩]
    else if frameCommand frame = DMR_MMDVM_NAK then [⟨3, 1⟩, ⟨4, 1⟩]
    else []

/-- The shift of the buffer by `len` bytes, and `byte_zero` behind them. -/
def shiftSpans (len : Nat) : List Span :=
  (List.range len).flatMap (fun i => [⟨i + len, 1⟩, ⟨i, 1⟩]) ++ [⟨len, 255 - len⟩]

/-- The rest of a call, once its reads are over. -/
def frameSpans (mmdvm : DmrMmdvm) : List Span :=
  if mmdvm.pos < 3 then []
  else ⟨1, 1⟩ ::
    if mmdvm.pos < (frameLength mmdvm.frame).toNat then []
    else parseSpans mmdvm.frame ++ shiftSpans (frameLength mmdvm.frame).toNat

/-- All that a call of `dmr_mmdvm_read` touches in `frame`, in order. It goes as far as
`dmrMmdvmRead` does, and at a frame that the parser does not survive on to the shift. -/
def touched (past : Nat → UInt8) (mmdvm : DmrMmdvm) (port : List SerialRead) : List Span :=
  let len := (2 ^ 64 + 255 - mmdvm.pos) % 2 ^ 64
  readSpans past len mmdvm port ++
    match readAgain past len mmdvm port with
    | none => []
    | some (ret, mmdvm, port) =>
      if ret ≤ 0 then []
      else if 3 ≤ mmdvm.pos then frameSpans mmdvm
      else readSpans past len mmdvm port ++
        match readAgain past len mmdvm port with
        | none => []
        | some (ret, mmdvm, _) => if ret ≤ 0 then [] else frameSpans mmdvm

/-- A call touches bytes of the buffer only, and leaves `pos` in it. Within a call `pos`
moves by what the serial port fills, which is never more than it is asked to. -/
def InBounds (s : Link) (env : ReadEnv) : Prop :=
  (∀ span ∈ touched env.past s.mmdvm s.port, span.Inside) ∧
    ∀ s' ∈ linkStep s env, s'.mmdvm.pos ≤ 255

/-- What a call needs to stay in the buffer. If its read brings anything: the buffer then
begins with a frame start, so that there is no search; it holds three bytes, so that
there is no second read; and a frame that is complete is shorter than 128 bytes and, as
a reply to `GET_VERSION`, has four. -/
def StaysInside (s : Link) : Prop :=
  let front := s.mmdvm.buffered ++ firstRead s
  firstRead s ≠ [] →
    front.head? = some DMR_MMDVM_FRAME_START ∧ 3 ≤ front.length ∧
      (lengthByte front ≤ front.length → lengthByte front < 128 ∧
        (front.getD 2 0 = DMR_MMDVM_GET_VERSION → 4 ≤ lengthByte front))

instance (s : Link) : Decidable (StaysInside s) := inferInstanceAs (Decidable (_ → _))

/-- Where the search finds a frame start at once it touches the first byte only. -/
theorem seekSpans_inside_iff (past : Nat → UInt8) {pos : Nat} (hpos : pos ≠ 0)
    (frame : DmrMmdvmFrame) :
    (∀ span ∈ seekSpans past pos frame, span.Inside) ↔
      frameStart frame = DMR_MMDVM_FRAME_START := by
  obtain ⟨pos, rfl⟩ := Nat.exists_eq_succ_of_ne_zero hpos
  rw [seekSpans]
  split
  · next hstart =>
    refine iff_of_false (fun h => ?_) hstart
    -- the first `memmove` reads the byte behind the buffer
    have hmove : Span.Inside ⟨1, 255⟩ := h _ (by simp)
    exact absurd hmove (by decide)
  · next hstart => exact iff_of_true (by decide) (not_not.mp hstart)

theorem parseSpans_inside_iff {frame : DmrMmdvmFrame}
    (hstart : frameStart frame = DMR_MMDVM_FRAME_START) :
    (∀ span ∈ parseSpans frame, span.Inside) ↔
      (frameCommand frame = DMR_MMDVM_GET_VERSION →
        4 ≤ (frameLength frame).toNat) := by
  have hlen : (frameLength frame).toNat < 256 := (frameLength frame).toNat_lt
  rw [parseSpans, if_neg (not_not.mpr hstart), List.forall_mem_append]
  rw [and_iff_right (by decide)]
  by_cases hversion : frameCommand frame = DMR_MMDVM_GET_VERSION
  · rw [if_pos hversion]
    simp only [List.forall_mem_cons, List.not_mem_nil, false_implies, implies_true, and_true,
      Span.Inside, hversion, true_implies]
    omega
  · rw [if_neg hversion]
    refine iff_of_true ?_ fun h => absurd h hversion
    split
    · decide
    split
    · decide
    split
    · decide
    split
    · decide
    · exact List.forall_mem_nil _

theorem shiftSpans_inside_iff {len : Nat} (hlen : len < 256) :
    (∀ span ∈ shiftSpans len, span.Inside) ↔ len < 128 := by
  rw [shiftSpans, List.forall_mem_append]
  constructor
  · rintro ⟨hloop, -⟩
    by_contra hlong
    -- the last round loads `frame[2 * len - 1]`
    have hlast : len - 1 + len + 1 ≤ 255 := hloop ⟨len - 1 + len, 1⟩ (by
      rw [List.mem_flatMap]
      exact ⟨len - 1, List.mem_range.mpr (by omega), List.mem_cons_self⟩)
    omega
  · intro hshort
    refine ⟨fun span hspan => ?_, ?_⟩
    · obtain ⟨i, hi, hspan⟩ := List.mem_flatMap.mp hspan
      have hi := List.mem_range.mp hi
      simp only [List.mem_cons, List.not_mem_nil, or_false] at hspan
      rcases hspan with rfl | rfl
      · show i + len + 1 ≤ 255
        omega
      · show i + 1 ≤ 255
        omega
    · rw [List.forall_mem_singleton]
      show len + (255 - len) ≤ 255
      omega

theorem frameSpans_inside_iff {mmdvm : DmrMmdvm} (hpos : 3 ≤ mmdvm.pos)
    (hstart : frameStart mmdvm.frame = DMR_MMDVM_FRAME_START) :
    (∀ span ∈ frameSpans mmdvm, span.Inside) ↔
      ((frameLength mmdvm.frame).toNat ≤ mmdvm.pos →
        (frameLength mmdvm.frame).toNat < 128 ∧
          (frameCommand mmdvm.frame = DMR_MMDVM_GET_VERSION →
            4 ≤ (frameLength mmdvm.frame).toNat)) := by
  rw [frameSpans, if_neg (Nat.not_lt.mpr hpos), List.forall_mem_cons, and_iff_right (by decide)]
  split
  · next hmore =>
    exact iff_of_true (List.forall_mem_nil _) fun hle => absurd hmore (Nat.not_lt.mpr hle)
  · next hcomplete =>
    rw [List.forall_mem_append, parseSpans_inside_iff hstart,
      shiftSpans_inside_iff (frameLength mmdvm.frame).toNat_lt, and_comm]
    exact ⟨fun h _ => h, fun h => h (Nat.not_lt.mp hcomplete)⟩

/-- A pass from `read_again` on stays inside if it is asked for no more than there is
room for, and if there is nothing to search. -/
theorem readSpans_inside_iff (past : Nat → UInt8) {len : Nat} {mmdvm : DmrMmdvm}
    (port : List SerialRead) :
    (∀ span ∈ readSpans past len mmdvm port, span.Inside) ↔ mmdvm.pos + len ≤ 255 ∧
      (delivered len port ≠ [] →
        (mmdvm.buffered ++ delivered len port).head? = some DMR_MMDVM_FRAME_START) := by
  obtain ⟨hle, hempty⟩ := serialRetry_ret len 16 none port
  rw [readSpans, List.forall_mem_cons]
  refine and_congr_right fun hroom => ?_
  by_cases hret : (serialRetry len 16 none port).ret ≤ 0
  · rw [if_pos hret]
    exact iff_of_true (List.forall_mem_nil _) fun hne => absurd (hempty.mp hret) hne
  -- something was stored, so the search begins at the first byte of the buffer
  have hne : delivered len port ≠ [] := fun hnil => hret (hempty.mpr hnil)
  have hpos : mmdvm.pos + (delivered len port).length ≤ 255 :=
    (Nat.add_le_add_left hle _).trans hroom
  have hsome : mmdvm.pos + (delivered len port).length ≠ 0 := by
    have := List.length_pos_iff.mpr hne
    omega
  obtain ⟨frame, hstore, -⟩ := storeBytes_spec mmdvm.frame hpos
  have hhead := @head?_front frame _ hsome
  rw [ofFrame_storeBytes hstore] at hhead
  rw [if_neg hret, show (serialRetry len 16 none port).bytes = delivered len port from rfl, hstore,
    Option.map_some, Option.getD_some, seekSpans_inside_iff past hsome]
  refine ⟨fun hstart _ => ?_, fun h => ?_⟩
  · rw [← hstart]
    exact hhead
  · have hstart := h hne
    rw [show mmdvm.buffered ++ delivered len port =
      ((Collected.ofFrame mmdvm.frame mmdvm.pos).store (delivered len port)).front from rfl,
      hhead, Option.some.injEq] at hstart
    exact hstart

/-- What is in the buffer after the first read, if that does not have to be searched. -/
theorem front_first {next : UInt8} {s : Link} {mmdvm : DmrMmdvm}
    (hstart : (s.mmdvm.buffered ++ firstRead s).head? = some DMR_MMDVM_FRAME_START)
    (hcollected : mmdvm.collected = (s.mmdvm.collected.store (firstRead s)).seek next) :
    mmdvm.collected.front = s.mmdvm.buffered ++ firstRead s := by
  obtain ⟨front, hfront⟩ := List.head?_eq_some_iff.mp hstart
  rw [hcollected, Collected.store]
  show (Collected.seek _ ⟨s.mmdvm.buffered ++ firstRead s, _⟩).front = _
  rw [hfront, Collected.seek_start]

theorem inBounds_iff {s : Link} (hpos : s.mmdvm.pos ≤ 255) (env : ReadEnv) :
    InBounds s env ↔ StaysInside s := by
  have hlen : (2 ^ 64 + 255 - s.mmdvm.pos) % 2 ^ 64 = 255 - s.mmdvm.pos := by omega
  have hroom : s.mmdvm.pos + (255 - s.mmdvm.pos) ≤ 255 := by omega
  have hafter : ∀ s' ∈ linkStep s env, s'.mmdvm.pos ≤ 255 := fun s' hs' => pos_linkStep_le hpos hs'
  rw [InBounds, and_iff_left hafter, touched]
  simp only [hlen]
  rw [List.forall_mem_append, readSpans_inside_iff, StaysInside, and_iff_right hroom]
  have hcases := readAgain_cases env.past (255 - s.mmdvm.pos) s.mmdvm s.port
  generalize readAgain env.past (255 - s.mmdvm.pos) s.mmdvm s.port = r at hcases ⊢
  cases hcases with
  | nothing hret hnil =>
    simp only [if_pos hret]
    exact iff_of_true ⟨fun hne => absurd hnil hne, List.forall_mem_nil _⟩ fun hne => absurd hnil hne
  | overrun hne hmore =>
    have hle := (serialRetry_ret (255 - s.mmdvm.pos) 16 none s.port).1
    rw [delivered] at hmore
    omega
  | @stored ret mmdvm hret hne hfits hpos' hcollected =>
    simp only [if_neg hret]
    rw [show (delivered (255 - s.mmdvm.pos) s.port ≠ [] →
        (s.mmdvm.buffered ++ delivered (255 - s.mmdvm.pos) s.port).head? =
          some DMR_MMDVM_FRAME_START) ↔
      (s.mmdvm.buffered ++ firstRead s).head? = some DMR_MMDVM_FRAME_START from
        ⟨fun h => h hne, fun h _ => h⟩, forall_prop_of_true (show firstRead s ≠ [] from hne)]
    refine and_congr_right fun hstart => ?_
    have hfront := front_first hstart hcollected
    have hcount : (s.mmdvm.buffered ++ firstRead s).length = mmdvm.pos := by
      rw [← hfront, DmrMmdvm.length_collected hpos']
    rw [hcount]
    by_cases henough : 3 ≤ mmdvm.pos
    · have hbyte : ∀ i, i < 3 → (hi : i < 255) →
          (s.mmdvm.buffered ++ firstRead s).getD i 0 = mmdvm.frame[i] := by
        intro i hi3 hi
        rw [← hfront]
        exact getD_front hpos' (by omega)
      have hstart' : frameStart mmdvm.frame = DMR_MMDVM_FRAME_START := by
        have hhead := @head?_front mmdvm.frame mmdvm.pos (by omega)
        rw [show (Collected.ofFrame mmdvm.frame mmdvm.pos).front =
          s.mmdvm.buffered ++ firstRead s from hfront, hstart, Option.some.injEq] at hhead
        exact hhead.symm
      rw [if_pos henough, frameSpans_inside_iff henough hstart', and_iff_right henough, lengthByte,
        hbyte 1 (by decide) (by decide), hbyte 2 (by decide) (by decide)]
    · -- the second read asks for more than there is room for
      rw [if_neg henough, List.forall_mem_append, readSpans_inside_iff]
      refine iff_of_false (fun h => ?_) fun h => henough h.1
      have hroom' := h.1.1
      have hsome := List.length_pos_iff.mpr hne
      have hgrown : s.mmdvm.pos + (firstRead s).length = mmdvm.pos := by
        rw [← hcount, List.length_append, DmrMmdvm.length_buffered hpos]
      rw [firstRead] at hgrown
      omega

/-- **Bounds of the receive buffer.** From a new modem, whatever the line delivers and
wherever it fails: a run of calls stays in the buffer exactly if every one of its calls
has what it needs. -/
theorem throughout_inBounds_iff (port : List SerialRead) (envs : List ReadEnv) :
    Throughout linkStep InBounds ⟨.new, port, []⟩ envs ↔
      Throughout linkStep (fun s _ => StaysInside s) ⟨.new, port, []⟩ envs :=
  throughout_congr (I := fun s : Link => s.mmdvm.pos ≤ 255)
    (fun _ env hpos => inBounds_iff hpos env)
    (fun _ _ _ hpos hs' => pos_linkStep_le hpos hs') (Nat.zero_le 255) envs

/-- A frame that arrives in two pieces, of two bytes and one: the second read of the first
call asks for 255 bytes, and there is room for 253. -/
theorem not_inBounds_pieces :
    ¬ Throughout linkStep InBounds ⟨.new, [.data [0xe0, 3], .data [0x1d]], []⟩
      [⟨fun _ => 0, true⟩] := by
  rintro ⟨hinside, -⟩
  exact absurd ((inBounds_iff (Nat.zero_le 255) _).mp hinside) (by decide +kernel)

/-! ## Room for another read

After a call there is room for another byte, unless the buffer is full of a frame that has not
arrived as a whole.
-/

/-- Buffers that the rest of a call neither aborts on nor leaves full: the frame at the
front, if it is complete, can be parsed, and it is not one of length zero at the front
of a full buffer. -/
def Collected.Drains (allocated : Bool) (c : Collected) : Prop :=
  3 ≤ c.front.length → lengthByte c.front ≤ c.front.length →
    ParsesInside allocated c.bytes ∧ ¬ (lengthByte c.front = 0 ∧ c.front.length = 255)

instance (allocated : Bool) (c : Collected) : Decidable (c.Drains allocated) :=
  inferInstanceAs (Decidable (_ → _ → _))

/-- The call returns, and the next one asks for at least one byte. -/
def MakesRoom (s : Link) (env : ReadEnv) : Prop :=
  ∃ s' ∈ linkStep s env, s'.mmdvm.pos < 255

/-- What a call needs for that: its reads bring no more than there is room for, and what
they leave in the buffer drains. -/
def CanDrain (s : Link) (env : ReadEnv) : Prop :=
  match gathered (env.past 255) s with
  | .nothing => True
  | .overrun => False
  | .bytes c => c.Drains env.allocated

instance (s : Link) (env : ReadEnv) : Decidable (CanDrain s env) := by
  unfold CanDrain
  split <;> infer_instance

/-- A call that has a complete frame at the front makes room exactly if the parser survives
the frame, and the frame is not one of length zero in a full buffer. -/
theorem complete_makesRoom_iff {past : Nat → UInt8} {allocated : Bool} {mmdvm : DmrMmdvm}
    {port : List SerialRead} {handed : List (List UInt8)} (hpos : mmdvm.pos ≤ 255)
    (hstart : frameStart mmdvm.frame = DMR_MMDVM_FRAME_START)
    (hcomplete : (frameLength mmdvm.frame).toNat ≤ mmdvm.pos) :
    (∃ s' ∈ (dmrMmdvmParseFrame allocated mmdvm mmdvm.frame).map fun r =>
        (⟨shiftFrame past r.2.1, port, handed⟩ : Link), s'.mmdvm.pos < 255) ↔
      ParsesInside allocated mmdvm.frame.toList ∧
        ¬ ((frameLength mmdvm.frame).toNat = 0 ∧ mmdvm.pos = 255) := by
  by_cases hinside : ParsesInside allocated mmdvm.frame.toList
  · obtain ⟨ret', mmdvm', parsed, hparse, hsame⟩ := dmrMmdvmParseFrame_spec hinside
    have hafter := pos_shiftFrame past hsame hcomplete
    rw [hparse, and_iff_right hinside]
    constructor
    · rintro ⟨s', hs', hroom⟩ ⟨hzero, hfull⟩
      cases hs'
      rw [show (shiftFrame past mmdvm').pos = _ from hafter, hzero, hfull] at hroom
      exact absurd hroom (by decide)
    · intro hnot
      refine ⟨_, rfl, ?_⟩
      show (shiftFrame past mmdvm').pos < 255
      omega
  · rw [dmrMmdvmParseFrame_none hstart hinside]
    refine iff_of_false ?_ fun h => hinside h.1
    rintro ⟨s', hs', -⟩
    cases hs'

theorem makesRoom_iff {s : Link} (hpos : s.mmdvm.pos < 255) (env : ReadEnv) :
    MakesRoom s env ↔ CanDrain s env := by
  have hcases := collect_cases env.past hpos.le
  unfold MakesRoom CanDrain
  cases hcollect : collect env.past s.mmdvm s.port with
  | none =>
    rw [hcollect] at hcases
    cases hcases with
    | overrun hgathered =>
      rw [hgathered, linkStep, dmrMmdvmRead, hcollect]
      exact iff_of_false (by rintro ⟨s', hs', -⟩; cases hs') id
  | some r =>
    rw [hcollect] at hcases
    cases hcases with
    | @nothing ret mmdvm port hret hgathered hpos' =>
      rw [hgathered, linkStep_nothing hcollect hret]
      refine iff_of_true ⟨_, rfl, ?_⟩ trivial
      show mmdvm.pos < 255
      omega
    | @bytes ret mmdvm port hret hgathered hpos' =>
      rw [hgathered, linkStep_bytes hcollect hret]
      show _ ↔ mmdvm.collected.Drains env.allocated
      have hcount := DmrMmdvm.length_collected hpos'
      rw [Collected.Drains, hcount, show mmdvm.collected.bytes = mmdvm.frame.toList from
        Collected.bytes_ofFrame _ _]
      by_cases h3 : mmdvm.pos < 3
      · rw [if_pos (.inl h3)]
        refine iff_of_true ⟨_, rfl, ?_⟩ fun h => absurd h3 (Nat.not_lt.mpr h)
        show mmdvm.pos < 255
        omega
      have hlength : lengthByte mmdvm.collected.front = (frameLength mmdvm.frame).toNat :=
        congrArg UInt8.toNat (getD_front hpos' (by omega))
      have hbyte := (frameLength mmdvm.frame).toNat_lt
      rw [hlength]
      by_cases hmore : mmdvm.pos < (frameLength mmdvm.frame).toNat
      · rw [if_pos (.inr hmore)]
        refine iff_of_true ⟨_, rfl, ?_⟩ fun _ hle => absurd hmore (Nat.not_lt.mpr hle)
        show mmdvm.pos < 255
        omega
      rw [if_neg (not_or.mpr ⟨h3, hmore⟩), forall_prop_of_true (Nat.not_lt.mp h3),
        forall_prop_of_true (Nat.not_lt.mp hmore)]
      -- a frame is complete
      exact complete_makesRoom_iff hpos'
        (frame_start_gathered hgathered hpos' (Nat.not_lt.mp h3)) (Nat.not_lt.mp hmore)

/-- **Progress.** From a new modem, whatever the line delivers and wherever it fails: all
calls of a run return and leave room for another read exactly if each of them can drain
the buffer. -/
theorem throughout_makesRoom_iff (port : List SerialRead) (envs : List ReadEnv) :
    Throughout linkStep MakesRoom ⟨.new, port, []⟩ envs ↔
      Throughout linkStep CanDrain ⟨.new, port, []⟩ envs := by
  have hroom : ∀ s env s', s.mmdvm.pos < 255 → CanDrain s env → linkStep s env = some s' →
      s'.mmdvm.pos < 255 := by
    intro s env s' hpos hdrain hs'
    obtain ⟨t, ht, hlt⟩ := (makesRoom_iff hpos env).mpr hdrain
    rw [hs', Option.mem_def, Option.some.injEq] at ht
    rwa [ht]
  constructor
  · refine Throughout.mono (I := fun s : Link => s.mmdvm.pos < 255) ?_ ?_ (Nat.zero_lt_succ 254)
    · exact fun s env hpos => (makesRoom_iff hpos env).mp
    · exact fun s env s' hpos hmakes => hroom s env s' hpos ((makesRoom_iff hpos env).mp hmakes)
  · refine Throughout.mono (I := fun s : Link => s.mmdvm.pos < 255) ?_ hroom (Nat.zero_lt_succ 254)
    exact fun s env hpos => (makesRoom_iff hpos env).mpr

/-- A frame of length zero at the front of 255 bytes that arrive at once: it stays, and the
next call asks for nothing. -/
theorem not_makesRoom_full :
    ¬ Throughout linkStep MakesRoom
      ⟨.new, [.data (0xe0 :: 0x00 :: 0x1d :: List.replicate 252 0)], []⟩ [⟨fun _ => 0, true⟩] := by
  rintro ⟨hroom, -⟩
  rw [makesRoom_iff (Nat.zero_lt_succ 254)] at hroom
  revert hroom
  decide +kernel

end Dmrlib
