import Dmrlib.Fec.Bptc19696
import Dmrlib.Fec.HammingIndices

/-!
# Where the BPTC(196,96) decoder reads (`src/dmr/fec/bptc_196_96.c`)

The arrays of the decoder are read and written at indices that depend on its counters only, and
the model has them with their bounds. The tables of the Hamming codes are read where the packet
says. The decoder is run here with a log of these reads (`dmrBptc196_96DecodeLog`), which changes
nothing about what it does (`decodeLog_snd`).

The rows cannot lead out of their table, and the column pass looks at column 1 fifteen times, so
one word of the packet decides (`decodeLog_inside_iff`).

- `TableRead`, `TableRead.Inside`: a read of the table of a code, and that the table has it.
- `dmrBptc196_96DecodeLog`: the decoder with the log of its reads.
- `passesLog_inside_iff`: the two passes of the decoder, over a matrix.
- `hamming_checksRight_iff`: for each of the five codes, the words whose check stays inside the
  table and gives the right answer; and the packets that the decoder reads no table wrongly for.
-/

namespace Dmrlib

open Loop

/-- A read of a table with `size` entries. -/
structure TableRead where
  size : Nat
  index : Nat

def TableRead.Inside (r : TableRead) : Prop := r.index < r.size

variable {n k : Nat}

/-- A call of the checker, with the reads it makes. -/
def hammingCall (h : Hamming n k) (past : Nat → UInt8) (d : Vector Bool n) :
    List TableRead × Bool :=
  ((hammingReads h past d).map (TableRead.mk n), hammingParityCheck h past d)

theorem hammingCall_inside_iff (h : Hamming n k) (hb : n - k ≤ 8) (past : Nat → UInt8)
    (d : Vector Bool n) :
    (∀ r ∈ (hammingCall h past d).1, r.Inside) ↔ h.errors d ∈ h.harmless := by
  rw [← reads_lt_iff h hb past, hammingCall, List.forall_mem_map]
  rfl

/-- What lies behind the table makes no difference to the result. -/
theorem hammingCall_snd (h : Hamming n k) (hb : n - k ≤ 8) (hd : 0 < h.d)
    (past past' : Nat → UInt8) (d : Vector Bool n) :
    (hammingCall h past d).2 = hammingParityCheck h past' d :=
  Bool.eq_iff_iff.mpr ((hammingParityCheck_eq_true_iff h hb hd past d).trans
    (hammingParityCheck_eq_true_iff h hb hd past' d).symm)

section Log

variable (past13 past15 : Nat → UInt8)

/-- `decodeColumn`, with its reads. -/
def decodeColumnLog (_col : Fin 15) (deint : Vector Bool 196) :
    List TableRead × Option (Vector Bool 196) :=
  let data := loadColumn deint
  let call := hammingCall hamming13_9_3 past13 data
  (call.1, if call.2 then some (putBackColumn data deint) else none)

/-- `decodeRow`, with its reads. -/
def decodeRowLog (row : Fin 9) (deint : Vector Bool 196) :
    List TableRead × Option (Vector Bool 196) :=
  let data := loadRow row deint
  let call := hammingCall hamming15_11_3 past15 data
  (call.1, if call.2 then some (putBackRow row data deint) else none)

/-- The two passes, with their reads. -/
def passesLog (deint : Vector Bool 196) : List TableRead × Option (Vector Bool 196) :=
  logBind (logLoop 15 (decodeColumnLog past13) deint) (logLoop 9 (decodeRowLog past15))

/-- `dmr_bptc_196_96_decode`, with the reads of the tables. -/
def dmrBptc196_96DecodeLog (packet : DmrPacket) (bptc : DmrBptc196_96) (data : Vector UInt8 12) :
    List TableRead × Int × DmrBptc196_96 × Vector UInt8 12 :=
  let bits := dmrBytesToBits packet (Vector.replicate 264 false)
  let raw := collectRaw bits bptc.raw
  let deint := deinterleave raw bptc.deinterleavedBits
  let passes := passesLog past13 past15 deint
  (passes.1, match passes.2 with
    | none => (-1, ⟨raw, deint⟩, data)
    | some deint => (0, ⟨raw, deint⟩, dmrBitsToBytes (matrixData deint) data))

theorem decodeColumnLog_snd (col : Fin 15) (deint : Vector Bool 196) :
    (decodeColumnLog past13 col deint).2 = decodeColumn col deint := by
  unfold decodeColumnLog decodeColumn dmrHamming13_9_3Decode
  dsimp only
  rw [hammingCall_snd hamming13_9_3 (by decide) (by decide) past13 fun _ => 0]

theorem decodeRowLog_snd (row : Fin 9) (deint : Vector Bool 196) :
    (decodeRowLog past15 row deint).2 = decodeRow row deint := by
  unfold decodeRowLog decodeRow dmrHamming15_11_3Decode
  dsimp only
  rw [hammingCall_snd hamming15_11_3 (by decide) (by decide) past15 fun _ => 0]

theorem passesLog_snd (deint : Vector Bool 196) :
    (passesLog past13 past15 deint).2 =
      (tryLoop 15 decodeColumn deint).bind (tryLoop 9 decodeRow) := by
  unfold passesLog
  rw [logBind_snd]
  simp only [logLoop_snd, decodeColumnLog_snd, decodeRowLog_snd]

/-- The log makes no difference to the decoder. -/
theorem decodeLog_snd (packet : DmrPacket) (bptc : DmrBptc196_96) (data : Vector UInt8 12) :
    (dmrBptc196_96DecodeLog past13 past15 packet bptc data).2 =
      dmrBptc196_96Decode packet bptc data := by
  unfold dmrBptc196_96DecodeLog dmrBptc196_96Decode
  dsimp only
  generalize deinterleave _ _ = deint
  have hpasses := passesLog_snd past13 past15 deint
  generalize (tryLoop 15 decodeColumn deint).bind (tryLoop 9 decodeRow) = passed at hpasses ⊢
  cases passed with
  | none => simp only [hpasses]
  | some deint => simp only [hpasses]

/-! ## The reads -/

/-- Every round of the column pass reads for column 1. -/
theorem decodeColumnLog_fst (col : Fin 15) (deint : Vector Bool 196) :
    (decodeColumnLog past13 col deint).1 =
      (hammingCall hamming13_9_3 past13 (colOf deint 1)).1 := by
  rw [decodeColumnLog, loadColumn_eq]

theorem decodeRowLog_fst (row : Fin 9) (deint : Vector Bool 196) :
    (decodeRowLog past15 row deint).1 =
      (hammingCall hamming15_11_3 past15 (rowOf deint (row.castLE (by decide)))).1 := by
  rw [decodeRowLog, loadRow_eq]

/-- The rows cannot lead out of their table. -/
theorem decodeRowLog_inside (row : Fin 9) (deint : Vector Bool 196) :
    ∀ r ∈ (decodeRowLog past15 row deint).1, r.Inside := by
  rw [decodeRowLog_fst]
  exact (hammingCall_inside_iff hamming15_11_3 (by decide) past15 _).mpr
    (mem_harmless_of_range harmless15_11_3 _)

theorem passesLog_inside_iff (deint : Vector Bool 196) :
    (∀ r ∈ (passesLog past13 past15 deint).1, r.Inside) ↔
      hamming13_9_3.errors (colOf deint 1) ∈ hamming13_9_3.harmless := by
  rw [← hammingCall_inside_iff hamming13_9_3 (by decide) past13]
  constructor
  · intro hall r hr
    rw [← decodeColumnLog_fst past13 0] at hr
    exact hall r (mem_logBind _ (mem_logLoop (by decide) hr))
  · intro hall
    refine logBind_forall ?_ fun t _ => ?_
    · -- the column pass goes on with the matrix it was given
      refine logLoop_forall (I := fun s => s = deint) rfl ?_ ?_
      · rintro col s s' rfl hs'
        rw [decodeColumnLog_snd, decodeColumn_eq] at hs'
        split at hs'
        · exact (Option.some.inj hs').symm
        · cases hs'
      · rintro col s rfl r hr
        rw [decodeColumnLog_fst] at hr
        exact hall r hr
    · exact logLoop_forall (I := fun _ => True) trivial (fun _ _ _ _ _ => trivial)
        fun row s _ => decodeRowLog_inside past15 row s

/-- **Where the decoder reads** is decided by column 1 of the packet's matrix. -/
theorem decodeLog_inside_iff (packet : DmrPacket) (bptc : DmrBptc196_96) (data : Vector UInt8 12) :
    (∀ r ∈ (dmrBptc196_96DecodeLog past13 past15 packet bptc data).1, r.Inside) ↔
      hamming13_9_3.errors (colOf (packetMatrix packet) 1) ∈ hamming13_9_3.harmless := by
  unfold dmrBptc196_96DecodeLog
  dsimp only
  rw [deinterleave_collectRaw]
  exact passesLog_inside_iff past13 past15 (packetMatrix packet)

end Log

/-- **The checker and its tables.** For two of the five codes every call is as expected. For the
others it is when no parity bit is wrong, and after the errors listed; after all others the table
is read outside of its bounds. What the BPTC decoder reads depends on column 1 alike. -/
theorem hamming_checksRight_iff (past past' : Nat → UInt8) :
    (∀ d, hamming7_4_3.ChecksRight past d) ∧
      (∀ d, hamming13_9_3.ChecksRight past d ↔ hamming13_9_3.errors d ∈ [0, 5, 9, 10, 13]) ∧
      (∀ d, hamming15_11_3.ChecksRight past d) ∧
      (∀ d, hamming16_11_4.ChecksRight past d ↔
        hamming16_11_4.errors d ∈ [0, 5, 7, 10, 11, 13, 14, 15]) ∧
      (∀ d, hamming17_12_3.ChecksRight past d ↔
        hamming17_12_3.errors d ∈ [0, 5, 11, 14, 15, 17]) ∧
      ∀ packet bptc data,
        (∀ r ∈ (dmrBptc196_96DecodeLog past past' packet bptc data).1, r.Inside) ↔
          hamming13_9_3.errors (colOf (packetMatrix packet) 1) ∈ [0, 5, 9, 10, 13] := by
  refine ⟨fun d => ?_, fun d => ?_, fun d => ?_, fun d => ?_, fun d => ?_,
    fun packet bptc data => ?_⟩
  · exact (checksRight_iff hamming7_4_3 (by decide) (by decide) (by decide) past d).mpr
      (mem_harmless_of_range harmless7_4_3 d)
  · rw [← harmless13_9_3]
    exact checksRight_iff hamming13_9_3 (by decide) (by decide) (by decide) past d
  · exact (checksRight_iff hamming15_11_3 (by decide) (by decide) (by decide) past d).mpr
      (mem_harmless_of_range harmless15_11_3 d)
  · rw [← harmless16_11_4]
    exact checksRight_iff hamming16_11_4 (by decide) (by decide) (by decide) past d
  · rw [← harmless17_12_3]
    exact checksRight_iff hamming17_12_3 (by decide) (by decide) (by decide) past d
  · rw [← harmless13_9_3]
    exact decodeLog_inside_iff past past' packet bptc data

/-- A word of zeros with all four parity bits wrong sends the checker to row 15 of 13; a packet of
zeros with these four bits of column 1 wrong does it to the decoder. -/
theorem not_checksRight_parity :
    14 ∈ hammingReads hamming13_9_3 (fun _ => 0)
        #v[false, false, false, false, false, false, false, false, false, true, true, true, true] ∧
      ¬ hamming13_9_3.ChecksRight (fun _ => 0)
        #v[false, false, false, false, false, false, false, false, false, true, true, true, true] ∧
      ¬ ∀ r ∈ (dmrBptc196_96DecodeLog (fun _ => 0) (fun _ => 0)
        #v[0, 0x02, 0, 0, 0, 0x10, 0, 0, 0, 0x80, 0, 0, 0, 0, 0, 0, 0, 0, 0, 0, 0, 0x40, 0, 0, 0,
          0, 0, 0, 0, 0, 0, 0, 0]
        ⟨Vector.replicate 196 false, Vector.replicate 196 false⟩ (Vector.replicate 12 0)).1,
        r.Inside := by
  refine ⟨by decide +kernel, ?_, ?_⟩
  · rw [checksRight_iff hamming13_9_3 (by decide) (by decide) (by decide)]
    decide +kernel
  · rw [decodeLog_inside_iff]
    decide +kernel

end Dmrlib
