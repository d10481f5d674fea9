import Dmrlib.Fec.Bptc19696
import Dmrlib.Lib.Trellis

/-!
# Rate 3/4 trellis code (`src/dmr/fec/trellis.c`)

A block of 18 bytes is 48 tribits, the states a trellis encoder goes through. The labels of its
edges are constellation points, each sent as two dibits, and the dibits are interleaved over the
196 information bits of a burst.

The decoder's stages are each what they should be, but two of them do not read and write the
arrays meant. It collects the information bits into `info` and then takes the dibits from the
first 196 bits of the burst, the middle included; and it writes the tribits into `bits` and then
packs `info`, which it has cleared. So what it returns is always zeros, and right only where the
information bits are the code word of zeros (`rate34_decode_iff`).

- `bitsToDibits`, `deinterleaveDibits`, `dibitsToPoints`, `extractTribit`, `tribitsToBits`: the
  stages.
- `dmrTrellisRate34Decode`: the decoder, with what its arrays held before it was called.
- `ArePoints`, `IsTrellisPath`, `AreTribits`: what each stage is to return.
- `DecodesTrellis`: the decoder succeeds on the code words, and returns what they encode.
- `rate34_decode_iff`: the packets on which it does.
-/

namespace Dmrlib

open Loop Trellis

/-! ## Tables -/

/-- `state_transition_table`, table B.7 -/
def stateTransitionTable : Vector (Fin 16) 64 := #v[
  0,  8, 4, 12, 2, 10, 6, 14,
  4, 12, 2, 10, 6, 14, 0,  8,
  1,  9, 5, 13, 3, 11, 7, 15,
  5, 13, 3, 11, 7, 15, 1,  9,
  3, 11, 7, 15, 1,  9, 5, 13,
  7, 15, 1,  9, 5, 13, 3, 11,
  2, 10, 6, 14, 0,  8, 4, 12,
  6, 14, 0,  8, 4, 12, 2, 10]

/-- `constellation_point_mapping`, table B.8 -/
def constellationPointMapping : Vector (Int8 × Int8) 16 := #v[
  (1, -1), (-1, -1), (3, -3), (-3, -3),
  (-3, -1), (3, -1), (-1, -3), (1, -3),
  (-3, 3), (3, 3), (-1, 1), (1, 1),
  (1, 3), (-1, 3), (3, 1), (-3, 1)]

/-- `rate_34_interleaving_schedule`, table B.9 -/
def rate34InterleavingSchedule : Vector (Fin 98) 98 := #v[
  0x00, 0x01, 0x08, 0x09, 0x10, 0x11, 0x18, 0x19, 0x20, 0x21, 0x28, 0x29,
  0x30, 0x31, 0x38, 0x39, 0x40, 0x41, 0x48, 0x49, 0x50, 0x51, 0x58, 0x59,
  0x60, 0x61, 0x02, 0x03, 0x0a, 0x0b, 0x12, 0x13, 0x1a, 0x1b, 0x22, 0x23,
  0x2a, 0x2b, 0x32, 0x33, 0x3a, 0x3b, 0x42, 0x43, 0x4a, 0x4b, 0x52, 0x53,
  0x5a, 0x5b, 0x04, 0x05, 0x0c, 0x0d, 0x14, 0x15, 0x1c, 0x1d, 0x24, 0x25,
  0x2c, 0x2d, 0x34, 0x35, 0x3c, 0x3d, 0x44, 0x45, 0x4c, 0x4d, 0x54, 0x55,
  0x5c, 0x5d, 0x06, 0x07, 0x0e, 0x0f, 0x16, 0x17, 0x1e, 0x1f, 0x26, 0x27,
  0x2e, 0x2f, 0x36, 0x37, 0x3e, 0x3f, 0x46, 0x47, 0x4e, 0x4f, 0x56, 0x57,
  0x5e, 0x5f]

/-- `state_transition_table[8 * last + tribit]` -/
def transition (last tribit : Fin 8) : Fin 16 := stateTransitionTable[8 * last.val + tribit.val]

/-! ## The stages of the decoder -/

/-- The dibit of two bits. -/
def dibit (first second : Bool) : Int8 :=
  if first then (if second then -3 else -1) else if second then 3 else 1

/-- The loop over the first 196 of some bits. -/
def bitsToDibits {m : Nat} (bits : Vector Bool m) (hm : 196 ≤ m) (dibits : Vector Int8 98) :
    Vector Int8 98 :=
  forLoop 98 (fun o dibits => dibits.set o (dibit bits[2 * o.val] bits[2 * o.val + 1])) dibits

/-- The deinterleaver loop. -/
def deinterleaveDibits (dibits deint : Vector Int8 98) : Vector Int8 98 :=
  forLoop 98 (fun i deint => deint.set rate34InterleavingSchedule[i] dibits[i]) deint

/-- The search for a point with the two dibits. -/
def findPoint (first second : Int8) : Option (Fin 16) :=
  (List.finRange 16).find? fun j =>
    first = (constellationPointMapping.get j).1 ∧ second = (constellationPointMapping.get j).2

/-- The loop over the points; a pair of dibits of no point leaves its point as it is. -/
def dibitsToPoints (deint : Vector Int8 98) (points : Vector (Fin 16) 49) : Vector (Fin 16) 49 :=
  forLoop 49 (fun o points =>
    match findPoint deint[2 * o.val] deint[2 * o.val + 1] with
    | some j => points.set o j
    | none => points) points

/-- The search of a row of the state table. -/
def findTribit (last : Fin 8) (point : Fin 16) : Option (Fin 8) :=
  (List.finRange 8).find? fun tribit => point = transition last tribit

/-- A round of the state machine, on `tribits` and `last`. -/
def extractTribit (points : Vector (Fin 16) 49) (i : Fin 48) (s : Vector (Fin 8) 48 × Fin 8) :
    Option (Vector (Fin 8) 48 × Fin 8) :=
  match findTribit s.2 points[i.val] with
  | some last => some (s.1.set i last, last)
  | none => none

/-- The loop that writes the tribits; bits that are not set stay as they are. -/
def tribitsToBits {m : Nat} (tribits : Vector (Fin 8) 48) (hm : 144 ≤ m) (bits : Vector Bool m) :
    Vector Bool m :=
  forLoop 48 (fun o bits =>
    let bits := if tribits[o].val &&& 4 > 0 then bits.set (3 * o.val) true else bits
    let bits := if tribits[o].val &&& 2 > 0 then bits.set (3 * o.val + 1) true else bits
    if tribits[o].val &&& 1 > 0 then bits.set (3 * o.val + 2) true else bits) bits

/-- What the uninitialised local arrays of the decoder hold. -/
structure TrellisScratch where
  bits : Vector Bool 264
  info : Vector Bool 196
  dibits : Vector Int8 98
  deinterleavedDibits : Vector Int8 98
  points : Vector (Fin 16) 49
  tribits : Vector (Fin 8) 48

/-- `dmr_trellis_rate_34_decode`: the return value and the block. -/
def dmrTrellisRate34Decode (scratch : TrellisScratch) (packet : DmrPacket)
    (bytes : Vector UInt8 18) : Int × Vector UInt8 18 :=
  let bits := dmrBytesToBits packet scratch.bits
  let info := collectRaw bits scratch.info
  let dibits := bitsToDibits bits (by decide) scratch.dibits
  let deint := deinterleaveDibits dibits scratch.deinterleavedDibits
  let points := dibitsToPoints deint scratch.points
  match tryLoop 48 (extractTribit points) (scratch.tribits, 0) with
  | none => (-1, bytes)
  | some (tribits, _) =>
    -- memset(info, 0, sizeof(info))
    let info := info.map fun _ => false
    let _bits := tribitsToBits tribits (by decide) bits
    (0, dmrBitsToBytes (info.take 144) bytes)

/-! ## What each stage computes -/

theorem bitsToDibits_getElem {m : Nat} (bits : Vector Bool m) (hm : 196 ≤ m)
    (dibits : Vector Int8 98) (o : Fin 98) :
    (bitsToDibits bits hm dibits)[o] = dibit bits[2 * o.val] bits[2 * o.val + 1] :=
  forLoop_set Function.injective_id (fun o : Fin 98 => dibit bits[2 * o.val] bits[2 * o.val + 1])
    dibits o

theorem schedule_injective :
    Function.Injective fun i : Fin 98 => rate34InterleavingSchedule[i] := by
  decide +kernel

theorem deinterleaveDibits_getElem (dibits deint : Vector Int8 98) (i : Fin 98) :
    (deinterleaveDibits dibits deint)[rate34InterleavingSchedule[i]] = dibits[i] :=
  forLoop_set schedule_injective (fun i => dibits[i]) deint i

/-- Bits and the points that they are sent for. -/
def ArePoints (bits : Fin 196 → Bool) (points : Vector (Fin 16) 49) : Prop :=
  ∃ deint : Fin 98 → Int8,
    (∀ i : Fin 98, deint rate34InterleavingSchedule[i] =
      dibit (bits ⟨2 * i.val, by omega⟩) (bits ⟨2 * i.val + 1, by omega⟩)) ∧
    ∀ o : Fin 49, constellationPointMapping[points[o]] =
      (deint ⟨2 * o.val, by omega⟩, deint ⟨2 * o.val + 1, by omega⟩)

theorem mapping_injective :
    Function.Injective fun j : Fin 16 => getElem constellationPointMapping j j.isLt := by
  decide +kernel

theorem schedule_surjective (k : Fin 98) : ∃ i : Fin 98, rate34InterleavingSchedule[i] = k :=
  Finite.surjective_of_injective schedule_injective k

/-- Bits are sent for one choice of points only. -/
theorem ArePoints.unique {bits : Fin 196 → Bool} {points points' : Vector (Fin 16) 49}
    (h : ArePoints bits points) (h' : ArePoints bits points') : points = points' := by
  obtain ⟨deint, hdeint, hpoints⟩ := h
  obtain ⟨deint', hdeint', hpoints'⟩ := h'
  have heq : deint = deint' := by
    funext k
    obtain ⟨i, rfl⟩ := schedule_surjective k
    rw [hdeint, hdeint']
  refine Vector.ext fun o ho => mapping_injective ?_
  have hsame := (hpoints ⟨o, ho⟩).trans (heq ▸ (hpoints' ⟨o, ho⟩).symm)
  exact hsame

/-- Every pair of dibits is that of a point. -/
theorem findPoint_dibit (a b c d : Bool) :
    ∃ j, findPoint (dibit a b) (dibit c d) = some j ∧
      getElem constellationPointMapping j j.isLt = (dibit a b, dibit c d) := by
  revert a b c d
  decide +kernel

/-- The points that the decoder finds, whatever its arrays held. -/
theorem arePoints_dibitsToPoints {m : Nat} (bits : Vector Bool m) (hm : 196 ≤ m)
    (dibits deint : Vector Int8 98) (points : Vector (Fin 16) 49) :
    ArePoints (fun i => bits[i.val])
      (dibitsToPoints (deinterleaveDibits (bitsToDibits bits hm dibits) deint) points) := by
  have hdeint : ∀ i : Fin 98,
      (deinterleaveDibits (bitsToDibits bits hm dibits) deint)[rate34InterleavingSchedule[i]] =
        dibit bits[2 * i.val] bits[2 * i.val + 1] := by
    intro i
    rw [deinterleaveDibits_getElem, bitsToDibits_getElem]
  refine ⟨fun k => (deinterleaveDibits (bitsToDibits bits hm dibits) deint)[k], hdeint, ?_⟩
  -- from here on only the schedule matters, which sends a dibit to every place
  generalize deinterleaveDibits (bitsToDibits bits hm dibits) deint = deint' at hdeint
  have hdibit : ∀ k : Fin 98, ∃ a b, deint'[k] = dibit a b := by
    intro k
    obtain ⟨i, rfl⟩ := schedule_surjective k
    exact ⟨_, _, hdeint i⟩
  have hpoint : ∀ o : Fin 49, ∃ j, findPoint deint'[2 * o.val] deint'[2 * o.val + 1] = some j ∧
      constellationPointMapping[j] = (deint'[2 * o.val], deint'[2 * o.val + 1]) := by
    intro o
    obtain ⟨a, b, hfirst⟩ := hdibit ⟨2 * o.val, by omega⟩
    obtain ⟨c, d, hsecond⟩ := hdibit ⟨2 * o.val + 1, by omega⟩
    rw [show deint'[2 * o.val] = dibit a b from hfirst,
      show deint'[2 * o.val + 1] = dibit c d from hsecond]
    exact findPoint_dibit a b c d
  choose found hfound hmapping using hpoint
  -- each round of the loop finds its point, so the loop fills the array
  have hloop : dibitsToPoints deint' points = Vector.ofFn found := by
    rw [← forLoop_fill found points]
    unfold dibitsToPoints
    congr 1
    funext o points
    rw [hfound o]
  intro o
  rw [hloop]
  simpa only [Fin.getElem_fin, Vector.getElem_ofFn] using hmapping o

/-- The points of 196 bits. -/
def trellisPoints (bits : Vector Bool 196) : Vector (Fin 16) 49 :=
  dibitsToPoints (deinterleaveDibits (bitsToDibits bits le_rfl (Vector.replicate 98 0))
    (Vector.replicate 98 0)) (Vector.replicate 49 0)

theorem trellisPoints_ofFn {bits : Fin 196 → Bool} {points : Vector (Fin 16) 49}
    (h : ArePoints bits points) : trellisPoints (Vector.ofFn bits) = points := by
  have hpoints := arePoints_dibitsToPoints (Vector.ofFn bits) le_rfl (Vector.replicate 98 0)
    (Vector.replicate 98 0) (Vector.replicate 49 0)
  simp only [Vector.getElem_ofFn] at hpoints
  exact hpoints.unique h

theorem dibitsToPoints_eq {m : Nat} (bits : Vector Bool m) (hm : 196 ≤ m)
    (dibits deint : Vector Int8 98) (points : Vector (Fin 16) 49) :
    dibitsToPoints (deinterleaveDibits (bitsToDibits bits hm dibits) deint) points =
      trellisPoints (Vector.ofFn fun i => bits[i.val]) :=
  (trellisPoints_ofFn (arePoints_dibitsToPoints bits hm dibits deint points)).symm

/-- A row of the state table has each of its entries once. -/
theorem findTribit_eq_some_iff (last : Fin 8) (point : Fin 16) (tribit : Fin 8) :
    findTribit last point = some tribit ↔ transition last tribit = point := by
  revert last point tribit
  decide +kernel

/-! ## Code words -/

/-- The tribits take the encoder along the points. -/
def IsTrellisPath (points : Vector (Fin 16) 49) (tribits : Fin 48 → Fin 8) : Prop :=
  IsPath transition 0 (fun i : Fin 48 => points[i.val]) tribits

/-- The information bits of a burst. -/
def infoBits (packet : DmrPacket) : Vector Bool 196 :=
  Vector.ofFn fun i => packetBit packet
    (if h : i.val < 98 then ⟨i, by omega⟩ else ⟨i.val + 68, by omega⟩)

theorem info_lt (i : Fin 196) : i.val < 264 := by omega

/-- The bits that the decoder takes instead. -/
def firstBits (packet : DmrPacket) : Vector Bool 196 :=
  Vector.ofFn fun i => packetBit packet ⟨i, info_lt i⟩

/-- The tribits one after the other, most significant bit first. -/
def AreTribits (bytes : Vector UInt8 18) (tribits : Fin 48 → Fin 8) : Prop :=
  ∀ (i : Fin 48) (j : Fin 3),
    (dmrByteToBits bytes[(3 * i.val + j.val) / 8])[(3 * i.val + j.val) % 8] =
      (tribits i).val.testBit (2 - j.val)

/-- The decoder accepts the burst if its information bits are a code word, and returns the block
of the code word. -/
def DecodesTrellis (scratch : TrellisScratch) (packet : DmrPacket) (bytes : Vector UInt8 18) :
    Prop :=
  ((dmrTrellisRate34Decode scratch packet bytes).1 = 0 ↔
      ∃ tribits, IsTrellisPath (trellisPoints (infoBits packet)) tribits) ∧
    ∀ tribits, IsTrellisPath (trellisPoints (infoBits packet)) tribits →
      AreTribits (dmrTrellisRate34Decode scratch packet bytes).2 tribits

theorem firstBits_eq (packet : DmrPacket) (bits : Vector Bool 264) :
    (Vector.ofFn fun i : Fin 196 => getElem (dmrBytesToBits packet bits) i.val (info_lt i)) =
      firstBits packet := by
  refine Vector.ext fun i hi => ?_
  rw [firstBits, Vector.getElem_ofFn, Vector.getElem_ofFn]
  exact dmrBytesToBits_packet packet bits ⟨i, by omega⟩

/-- A block of cleared bits. -/
theorem dmrBitsToBytes_cleared (info : Vector Bool 196) (bytes : Vector UInt8 18) :
    dmrBitsToBytes ((info.map fun _ => false).take 144) bytes = Vector.replicate 18 0 := by
  refine Vector.ext fun i hi => ?_
  rw [dmrBitsToBytes_getElem _ _ (by omega) hi, Vector.getElem_replicate]
  simp only [Vector.getElem_take, Vector.getElem_map]
  decide

theorem areTribits_zero_iff (tribits : Fin 48 → Fin 8) :
    AreTribits (Vector.replicate 18 0) tribits ↔ ∀ i, tribits i = 0 := by
  have hbyte : ∀ j : Fin 8, (dmrByteToBits 0)[j] = false := by decide
  have htribit : ∀ t : Fin 8, (∀ j : Fin 3, false = t.val.testBit (2 - j.val)) ↔ t = 0 := by
    decide
  refine forall_congr' fun i => (forall_congr' fun j => ?_).trans (htribit (tribits i))
  rw [Vector.getElem_replicate]
  exact Eq.congr_left (hbyte ⟨_, Nat.mod_lt _ (by decide)⟩)

theorem extractTribit_eq (points : Vector (Fin 16) 49) :
    extractTribit points = followRound findTribit fun i => points[i.val] := by
  funext i s
  unfold extractTribit followRound
  cases findTribit s.2 points[i.val] <;> rfl

/-- What the decoder makes of a burst whose first bits are a code word … -/
theorem dmrTrellisRate34Decode_of_path {packet : DmrPacket}
    (h : ∃ tribits, IsTrellisPath (trellisPoints (firstBits packet)) tribits)
    (scratch : TrellisScratch) (bytes : Vector UInt8 18) :
    dmrTrellisRate34Decode scratch packet bytes = (0, Vector.replicate 18 0) := by
  obtain ⟨tribits, hpath⟩ := h
  obtain ⟨s, hs, -⟩ := follow_of_isPath findTribit_eq_some_iff hpath scratch.tribits
  unfold dmrTrellisRate34Decode
  simp only [dibitsToPoints_eq, firstBits_eq, extractTribit_eq, hs, dmrBitsToBytes_cleared]

/-- … and of one whose first bits are not. -/
theorem dmrTrellisRate34Decode_of_not_path {packet : DmrPacket}
    (h : ¬ ∃ tribits, IsTrellisPath (trellisPoints (firstBits packet)) tribits)
    (scratch : TrellisScratch) (bytes : Vector UInt8 18) :
    dmrTrellisRate34Decode scratch packet bytes = (-1, bytes) := by
  have hnone : tryLoop 48 (followRound findTribit
      fun i => (trellisPoints (firstBits packet))[i.val]) (scratch.tribits, 0) = none := by
    rw [← Option.not_isSome_iff_eq_none, follow_isSome_iff findTribit_eq_some_iff]
    exact h
  unfold dmrTrellisRate34Decode
  simp only [dibitsToPoints_eq, firstBits_eq, extractTribit_eq, hnone]

/-- The encoder stays in state 0 along points 0 only. -/
theorem isTrellisPath_zero_iff (points : Vector (Fin 16) 49) :
    IsTrellisPath points (fun _ => 0) ↔ ∀ i : Fin 48, points[i.val] = 0 := by
  refine forall_congr' fun i => ?_
  have hstate : stateAt (0 : Fin 8) (fun _ : Fin 48 => 0) i i.isLt.le = 0 := by
    cases i using Fin.cases <;> rfl
  rw [hstate, show transition 0 0 = 0 from rfl, eq_comm]

/-- **Rate 3/4 decoding.** The decoder is right about the bursts that neither have a code word
nor seem to have one, and about the code word of zeros where there seems to be one. -/
theorem rate34_decode_iff (scratch : TrellisScratch) (packet : DmrPacket)
    (bytes : Vector UInt8 18) :
    DecodesTrellis scratch packet bytes ↔
      (¬ ∃ t, IsTrellisPath (trellisPoints (infoBits packet)) t) ∧
          (¬ ∃ t, IsTrellisPath (trellisPoints (firstBits packet)) t) ∨
        (∀ i : Fin 48, (trellisPoints (infoBits packet))[i.val] = 0) ∧
          ∃ t, IsTrellisPath (trellisPoints (firstBits packet)) t := by
  unfold DecodesTrellis
  -- the decoder sees the first bits of the burst: it succeeds if these are a code word
  by_cases hfirst : ∃ t, IsTrellisPath (trellisPoints (firstBits packet)) t
  · rw [dmrTrellisRate34Decode_of_path hfirst]
    constructor
    · rintro ⟨haccept, hbytes⟩
      obtain ⟨t, ht⟩ := haccept.mp rfl
      have hzero : t = fun _ => 0 := funext ((areTribits_zero_iff t).mp (hbytes t ht))
      exact Or.inr ⟨(isTrellisPath_zero_iff _).mp (hzero ▸ ht), hfirst⟩
    · rintro (⟨-, hnot⟩ | ⟨hzero, -⟩)
      · exact absurd hfirst hnot
      -- of zeros there is one path, so zeros is what the burst encodes
      · have hpath := (isTrellisPath_zero_iff _).mpr hzero
        refine ⟨⟨fun _ => ⟨_, hpath⟩, fun _ => rfl⟩, fun t ht => ?_⟩
        rw [areTribits_zero_iff]
        exact congrFun (IsPath.unique findTribit_eq_some_iff ht hpath)
  · have herror : ¬ (-1 : Int) = 0 := by decide
    rw [dmrTrellisRate34Decode_of_not_path hfirst]
    constructor
    · rintro ⟨haccept, -⟩
      exact Or.inl ⟨fun hinfo => herror (haccept.mpr hinfo), hfirst⟩
    · rintro (⟨hinfo, -⟩ | ⟨-, hseen⟩)
      · refine ⟨⟨fun h => absurd h herror, fun h => absurd h hinfo⟩, fun t ht => ?_⟩
        exact absurd ⟨t, ht⟩ hinfo
      · exact absurd hseen hfirst

/-- A burst with the code word of zeros: the decoder does not accept it. -/
theorem not_rate34_decode :
    let packet : DmrPacket :=
      #v[0x22, 0x22, 0x22, 0x22, 0x22, 0x22, 0x22, 0x22, 0x22, 0x22, 0x22, 0x22, 0, 0, 0, 0, 0, 0,
        0, 0, 0x02, 0x22, 0x22, 0x22, 0x22, 0x22, 0x22, 0x22, 0x22, 0x22, 0x22, 0x22, 0x22]
    ¬ DecodesTrellis ⟨Vector.replicate 264 false, Vector.replicate 196 false,
      Vector.replicate 98 0, Vector.replicate 98 0, Vector.replicate 49 0, Vector.replicate 48 0⟩
      packet (Vector.replicate 18 0) := by
  intro packet hdecode
  -- the bits of the code word: dibits 00 and 10 in turn
  have hinfo : trellisPoints (infoBits packet) = Vector.replicate 49 0 :=
    trellisPoints_ofFn ⟨fun k => if k.val % 2 = 0 then 1 else -1, by decide +kernel,
      by decide +kernel⟩
  have hpath : IsTrellisPath (trellisPoints (infoBits packet)) fun _ => 0 := by
    rw [isTrellisPath_zero_iff, hinfo]
    exact fun i => Vector.getElem_replicate _
  have hnot : ¬ ∃ tribits, IsTrellisPath (trellisPoints (firstBits packet)) tribits := by
    -- no edge that is sent as the third point leaves the state that the first two lead to
    have hfirst : trellisPoints (firstBits packet) =
        #v[0, 0, 11, 11, 0, 0, 11, 11, 0, 0, 11, 11, 0, 0, 11, 11, 0, 0, 11, 0, 0, 0, 11, 0, 0, 0,
          11, 0, 0, 0, 11, 0, 0, 0, 11, 0, 0, 0, 11, 0, 0, 0, 11, 0, 0, 11, 11, 0, 0] := by
      refine trellisPoints_ofFn ⟨fun k =>
        (#v[1, -1, 1, -1, 1, 1, 1, 1, 1, -1, 1, -1, 1, 1, 1, 1, 1, -1, 1, -1, 1, 1, 1, 1, 1, -1, 1,
          -1, 1, 1, 1, 1, 1, -1, 1, -1, 1, 1, 1, -1, 1, -1, 1, -1, 1, 1, 1, -1, 1, -1, 1, -1, 1, 1,
          1, -1, 1, -1, 1, -1, 1, 1, 1, -1, 1, -1, 1, -1, 1, 1, 1, -1, 1, -1, 1, -1, 1, 1, 1, -1, 1,
          -1, 1, -1, 1, 1, 1, -1, 1, -1, 1, 1, 1, 1, 1, -1, 1, -1] : Vector Int8 98)[k], ?_, ?_⟩
      · decide +kernel
      · decide +kernel
    rw [hfirst]
    rintro ⟨tribits, ht⟩
    have hedges : ∀ a b c : Fin 8, transition 0 a = 0 → transition a b = 0 →
        transition b c ≠ 11 := by
      decide +kernel
    exact hedges _ _ _ (ht 0) (ht 1) (ht 2)
  have hzero := hdecode.1.mpr ⟨_, hpath⟩
  rw [dmrTrellisRate34Decode_of_not_path hnot] at hzero
  exact absurd hzero (by decide)

end Dmrlib
