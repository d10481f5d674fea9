import Dmrlib.PacketTypes
import Dmrlib.Fec.Hamming

/-!
# BPTC(196,96) (`src/dmr/fec/bptc_196_96.c`)

The 96 data bits sit in a matrix of 13 rows and 15 columns: nine rows of a
Hamming(15,11) code, and four rows that complete every column to a
Hamming(13,9) word. Bit `(row, col)` is entry `row * 15 + col` of
`deinterleaved_bits`; entry 195 is unused. The interleaver spreads the entries
over the 196 information bits of a burst, packet bits 0..97 and 166..263.

`encodeMatrix` is the matrix the encoder builds, and `decode_of_matrixOk` says what the
decoder makes of a matrix that it accepts. The decoder's column pass addresses column
1 in every one of its fifteen rounds, so a matrix is accepted when its first nine
rows and its column 1 are codewords; nothing is ever repaired
(`hammingParityCheck_eq_true_iff`).

- `dmrBptc196_96Decode`, `dmrBptc196_96Encode`: decoder and encoder, cut at the stages of the
  source.
- `MatrixOk`: the rows and the column that the decoder looks at are codewords.
- `Carries`: a packet whose matrix is that of an encoded block.
- `dmrBptc196_96Decode_encode`: what was encoded is decoded.
- `dmrBptc196_96Decode_flipBit_iff`: the wrong bits that the decoder comes through with are those
  of entries it never looks at (`Unchecked`).
-/

namespace Dmrlib

open Loop LinearCode

/-- `dmr_bptc_196_96` -/
structure DmrBptc196_96 where
  raw : Vector Bool 196
  deinterleavedBits : Vector Bool 196

/-! ## The codes used by the two passes

The decoders are `hamming_parity_check` on the two tables. It never reads past
the table on a codeword, and what lies there does not change its answer
otherwise, so a zero byte stands for it. -/

/-- `dmr_hamming_13_9_3_decode` -/
def dmrHamming13_9_3Decode (d : Vector Bool 13) : Bool :=
  hammingParityCheck hamming13_9_3 (fun _ => 0) d

/-- `dmr_hamming_15_11_3_decode` -/
def dmrHamming15_11_3Decode (d : Vector Bool 15) : Bool :=
  hammingParityCheck hamming15_11_3 (fun _ => 0) d

/-- `dmr_hamming_13_9_3_encode` -/
def dmrHamming13_9_3Encode (d : Vector Bool 13) : Vector Bool 13 :=
  hammingEncode hamming13_9_3 d

/-- `dmr_hamming_15_11_3_encode` -/
def dmrHamming15_11_3Encode (d : Vector Bool 15) : Vector Bool 15 :=
  hammingEncode hamming15_11_3 d

/-! ## The decoder

The raw bits are collected from the packet, deinterleaved, checked column by column and row by
row, and read off.
-/

/-- `bptc->raw[(i * 181) % 196]` of round `i - 1` -/
def rawIndex (i : Fin 196) : Fin 196 := ⟨(i.val + 1) * 181 % 196, Nat.mod_lt _ (by decide)⟩

/-- The two `memcpy` calls that collect the information bits. The trellis decoder has the
same two. -/
def collectRaw (bits : Vector Bool 264) (raw : Vector Bool 196) : Vector Bool 196 :=
  copy (copy raw 0 bits 0 98 (by decide) (by decide)) 98 bits 166 98 (by decide) (by decide)

/-- The deinterleaver loop. -/
def deinterleave (raw deint : Vector Bool 196) : Vector Bool 196 :=
  forLoop 196 (fun i deint => deint.set i raw[rawIndex i]) deint

/-- The loop of the column pass that collects a word: whatever the column is, the source
indexes with `(row * 15) + 1`. -/
def loadColumn (deint : Vector Bool 196) : Vector Bool 13 :=
  forLoop 13 (fun row data => data.set row deint[row.val * 15 + 1]) (Vector.replicate 13 false)

/-- The loop of the column pass that puts the word back, at the same index. -/
def putBackColumn (data : Vector Bool 13) (deint : Vector Bool 196) : Vector Bool 196 :=
  forLoop 13 (fun row deint => deint.set (row.val * 15 + 1) data[row]) deint

/-- One round of the column pass. -/
def decodeColumn (_col : Fin 15) (deint : Vector Bool 196) : Option (Vector Bool 196) :=
  let data := loadColumn deint
  if dmrHamming13_9_3Decode data then some (putBackColumn data deint) else none

/-- The loop of the row pass that collects a word. -/
def loadRow (row : Fin 9) (deint : Vector Bool 196) : Vector Bool 15 :=
  forLoop 15 (fun col data => data.set col deint[row.val * 15 + col.val])
    (Vector.replicate 15 false)

/-- The loop of the row pass that puts the data bits of the word back. -/
def putBackRow (row : Fin 9) (data : Vector Bool 15) (deint : Vector Bool 196) : Vector Bool 196 :=
  forLoop 11 (fun col deint => deint.set (row.val * 15 + col.val) data[col]) deint

/-- One round of the row pass. -/
def decodeRow (row : Fin 9) (deint : Vector Bool 196) : Option (Vector Bool 196) :=
  let data := loadRow row deint
  if dmrHamming15_11_3Decode data then some (putBackRow row data deint) else none

/-- The data bits of the matrix, row by row: `data_bits[i]` counts up from the
eight bits of row 0. -/
def matrixData (deint : Vector Bool 196) : Vector Bool 96 :=
  let dataBits := forLoop 8 (fun i dataBits => dataBits.set i deint[i.val + 3])
    (Vector.replicate 96 false)
  forLoop 8 (fun r dataBits => forLoop 11 (fun col dataBits =>
    dataBits.set (8 + r.val * 11 + col.val) deint[(r.val + 1) * 15 + col.val]) dataBits) dataBits

/-- `dmr_bptc_196_96_decode`: the return value, the work struct and the data
block. No caller looks at the work struct of a failed call. -/
def dmrBptc196_96Decode (packet : DmrPacket) (bptc : DmrBptc196_96) (data : Vector UInt8 12) :
    Int × DmrBptc196_96 × Vector UInt8 12 :=
  let bits := dmrBytesToBits packet (Vector.replicate 264 false)
  let raw := collectRaw bits bptc.raw
  let deint := deinterleave raw bptc.deinterleavedBits
  match (tryLoop 15 decodeColumn deint).bind (tryLoop 9 decodeRow) with
  | none => (-1, ⟨raw, deint⟩, data)
  | some deint => (0, ⟨raw, deint⟩, dmrBitsToBytes (matrixData deint) data)

/-! ## The encoder

The data are put into the rows, the rows and then the columns are completed, and the matrix is
spread over the packet.
-/

/-- One round of the encoder's row loop: `data_bits[i++]` runs on from row to
row. -/
def encodeRow (dataBits : Vector Bool 96) (row : Fin 9) (deint : Vector Bool 196) :
    Vector Bool 196 :=
  let (hc, deint) :=
    if row = 0 then
      forLoop 8 (fun i (s : Vector Bool 15 × Vector Bool 196) =>
        (s.1.set (i.val + 3) dataBits[i], s.2.set (i.val + 3) dataBits[i]))
        (Vector.replicate 15 false, deint)
    else
      forLoop 11 (fun col (s : Vector Bool 15 × Vector Bool 196) =>
        (s.1.set col dataBits[8 + (row.val - 1) * 11 + col.val],
          s.2.set (row.val * 15 + col.val) dataBits[8 + (row.val - 1) * 11 + col.val]))
        (Vector.replicate 15 false, deint)
  let hc := dmrHamming15_11_3Encode hc
  forLoop 4 (fun i deint => deint.set (row.val * 15 + (11 + i.val)) hc[11 + i.val]) deint

/-- One round of the encoder's column loop. -/
def encodeColumn (col : Fin 15) (deint : Vector Bool 196) : Vector Bool 196 :=
  let hc := forLoop 9 (fun row hc => hc.set row deint[row.val * 15 + col.val])
    (Vector.replicate 13 false)
  let hc := dmrHamming13_9_3Encode hc
  (((deint.set (col.val + 135) hc[9]).set (col.val + 135 + 15) hc[10]).set
    (col.val + 135 + 30) hc[11]).set (col.val + 135 + 45) hc[12]

/-- The interleaver loop. -/
def interleave (deint raw : Vector Bool 196) : Vector Bool 196 :=
  forLoop 196 (fun i raw => raw.set (rawIndex i) deint[i]) raw

/-- The two `memcpy` calls that spread the information bits over the burst. -/
def spreadRaw (raw : Vector Bool 196) (bits : Vector Bool 264) : Vector Bool 264 :=
  copy (copy bits 0 raw 0 98 (by decide) (by decide)) 166 raw 98 98 (by decide) (by decide)

/-- `dmr_bptc_196_96_encode`. The local array `bits` is never initialised; its
content is the last argument. -/
def dmrBptc196_96Encode (packet : DmrPacket) (bptc : DmrBptc196_96) (data : Vector UInt8 12)
    (bits : Vector Bool 264) : Int × DmrPacket × DmrBptc196_96 :=
  let dataBits := dmrBytesToBits data (Vector.replicate 96 false)
  let deint := forLoop 9 (encodeRow dataBits) (Vector.replicate 196 false)
  let deint := forLoop 15 encodeColumn deint
  let raw := interleave deint bptc.raw
  (0, dmrBitsToBytes (spreadRaw raw bits) packet, ⟨raw, deint⟩)

/-! ## Views of the matrix

The matrix is one vector. Its rows and columns are words of the two codes, and most of what
follows is about these.
-/

/-- Row `row` of the matrix. -/
def rowOf (deint : Vector Bool 196) (row : Fin 13) : Vector Bool 15 :=
  Vector.ofFn fun col => deint[row.val * 15 + col.val]

/-- Column `col` of the matrix. -/
def colOf (deint : Vector Bool 196) (col : Fin 15) : Vector Bool 13 :=
  Vector.ofFn fun row => deint[row.val * 15 + col.val]

/-- What the decoder requires of a matrix. -/
structure MatrixOk (deint : Vector Bool 196) : Prop where
  column1 : hamming13_9_3.Valid (colOf deint 1)
  rows : ∀ row : Fin 9, hamming15_11_3.Valid (rowOf deint (row.castLE (by decide)))

/-- The packet bit that carries information bit `r`. -/
def infoBit (r : Fin 196) : Fin 264 := if r.val < 98 then ⟨r, by omega⟩ else ⟨r + 68, by omega⟩

/-- The packet bit that carries matrix entry `k`. -/
def matrixBit (k : Fin 196) : Fin 264 := infoBit (rawIndex k)

/-- The matrix a packet carries. -/
def packetMatrix (packet : DmrPacket) : Vector Bool 196 :=
  Vector.ofFn fun k => packetBit packet (matrixBit k)

/-- The matrix with entry `k` inverted. -/
def invertEntry (deint : Vector Bool 196) (k : Fin 196) : Vector Bool 196 :=
  deint.set k (!deint[k])

theorem rawIndex_injective : Function.Injective rawIndex := by
  intro a b hab
  have h : (a.val + 1) * 181 % 196 = (b.val + 1) * 181 % 196 := congrArg Fin.val hab
  exact Fin.ext (by omega)

theorem infoBit_val (r : Fin 196) : (infoBit r).val = if r.val < 98 then r.val else r.val + 68 := by
  unfold infoBit
  split <;> rfl

theorem matrixBit_injective : Function.Injective matrixBit := by
  intro a b hab
  refine rawIndex_injective (Fin.ext ?_)
  have h : (infoBit (rawIndex a)).val = (infoBit (rawIndex b)).val := congrArg Fin.val hab
  rw [infoBit_val, infoBit_val] at h
  split at h <;> split at h <;> omega

/-! ## What the decoder computes

Neither pass changes the matrix, so the decoder is a question about the matrix it was given, and
a selection of its entries.
-/

theorem collectRaw_getElem (bits : Vector Bool 264) (raw : Vector Bool 196) (r : Fin 196) :
    (collectRaw bits raw)[r] = bits[infoBit r] := by
  unfold collectRaw infoBit
  by_cases hr : r.val < 98
  · rw [Fin.getElem_fin, copy_getElem_other _ _ _ _ _ _ _ _ (.inl hr)]
    have h := copy_getElem raw 0 bits 0 98 (by decide) (by decide) hr
    simpa [hr] using h
  · obtain ⟨i, hi⟩ := Nat.exists_eq_add_of_le (Nat.le_of_not_lt hr)
    have h := copy_getElem (copy raw 0 bits 0 98 (by decide) (by decide)) 98 bits 166 98
      (by decide) (by decide) (i := i) (by omega)
    have hidx : 166 + i = r.val + 68 := by omega
    simpa [hr, hi, hidx] using h

/-- The front end of the decoder reads the matrix off the packet, whatever the
work struct held. -/
theorem deinterleave_collectRaw (packet : DmrPacket) (bits : Vector Bool 264)
    (raw deint : Vector Bool 196) :
    deinterleave (collectRaw (dmrBytesToBits packet bits) raw) deint = packetMatrix packet := by
  unfold deinterleave packetMatrix
  rw [forLoop_fill]
  refine congrArg Vector.ofFn (funext fun k => ?_)
  rw [collectRaw_getElem, dmrBytesToBits_packet, matrixBit]

/-- The column pass collects column 1 … -/
theorem loadColumn_eq (deint : Vector Bool 196) : loadColumn deint = colOf deint 1 := by
  rw [loadColumn, forLoop_fill]
  rfl

/-- … and the row pass its row. -/
theorem loadRow_eq (row : Fin 9) (deint : Vector Bool 196) :
    loadRow row deint = rowOf deint (row.castLE (by decide)) := by
  rw [loadRow, forLoop_fill]
  rfl

theorem decodeColumn_eq (col : Fin 15) (deint : Vector Bool 196) :
    decodeColumn col deint =
      if dmrHamming13_9_3Decode (colOf deint 1) then some deint else none := by
  have hback : putBackColumn (colOf deint 1) deint = deint :=
    forLoop_set_self (f := fun row : Fin 13 => (⟨row.val * 15 + 1, by omega⟩ : Fin 196))
      fun row => by simp [colOf]
  rw [decodeColumn, loadColumn_eq]
  exact congrArg (fun d => if dmrHamming13_9_3Decode (colOf deint 1) then some d else none) hback

theorem decodeRow_eq (row : Fin 9) (deint : Vector Bool 196) :
    decodeRow row deint =
      if dmrHamming15_11_3Decode (rowOf deint (row.castLE (by decide))) then some deint
      else none := by
  have hback : putBackRow row (rowOf deint (row.castLE (by decide))) deint = deint :=
    forLoop_set_self (f := fun col : Fin 11 => (⟨row.val * 15 + col.val, by omega⟩ : Fin 196))
      fun col => by simp [rowOf]
  rw [decodeRow, loadRow_eq]
  exact congrArg (fun d => if dmrHamming15_11_3Decode (rowOf deint (row.castLE (by decide)))
    then some d else none) hback

/-- The two passes let a matrix through unchanged, or stop. -/
theorem passes_eq (deint : Vector Bool 196) [Decidable (MatrixOk deint)] :
    (tryLoop 15 decodeColumn deint).bind (tryLoop 9 decodeRow) =
      if MatrixOk deint then some deint else none := by
  have hcol : dmrHamming13_9_3Decode (colOf deint 1) = true ↔
      hamming13_9_3.Valid (colOf deint 1) :=
    hammingParityCheck_eq_true_iff _ (by decide) (by decide) _ _
  have hrow : ∀ row : Fin 9, dmrHamming15_11_3Decode (rowOf deint (row.castLE (by decide))) = true ↔
      hamming15_11_3.Valid (rowOf deint (row.castLE (by decide))) := fun row =>
    hammingParityCheck_eq_true_iff _ (by decide) (by decide) _ _
  -- every round of the column loop checks column 1
  rw [tryLoop_guard (fun _ => dmrHamming13_9_3Decode (colOf deint 1) = true)
    fun i => decodeColumn_eq i deint]
  by_cases h1 : hamming13_9_3.Valid (colOf deint 1)
  · rw [if_pos fun _ => hcol.mpr h1, Option.bind_some,
      tryLoop_guard (fun row : Fin 9 =>
        dmrHamming15_11_3Decode (rowOf deint (row.castLE (by decide))) = true)
        fun i => decodeRow_eq i deint]
    have hiff : (∀ row : Fin 9,
        dmrHamming15_11_3Decode (rowOf deint (row.castLE (by decide))) = true) ↔
        MatrixOk deint :=
      ⟨fun h => ⟨h1, fun row => (hrow row).mp (h row)⟩, fun h row => (hrow row).mpr (h.rows row)⟩
    exact if_congr hiff rfl rfl
  · rw [if_neg fun h => h1 (hcol.mp (h 0)), Option.bind_none, if_neg fun h => h1 h.column1]

/-- A matrix that passes is decoded to its data bits. -/
theorem decode_of_matrixOk (packet : DmrPacket) (bptc : DmrBptc196_96) (data : Vector UInt8 12)
    (h : MatrixOk (packetMatrix packet)) :
    (dmrBptc196_96Decode packet bptc data).1 = 0 ∧
      (dmrBptc196_96Decode packet bptc data).2.2 =
        dmrBitsToBytes (matrixData (packetMatrix packet)) data := by
  classical
  unfold dmrBptc196_96Decode
  simp only [deinterleave_collectRaw, passes_eq, if_pos h, and_self]

/-- Any other matrix is refused. -/
theorem decode_of_not_matrixOk (packet : DmrPacket) (bptc : DmrBptc196_96)
    (data : Vector UInt8 12) (h : ¬ MatrixOk (packetMatrix packet)) :
    (dmrBptc196_96Decode packet bptc data).1 = -1 ∧
      (dmrBptc196_96Decode packet bptc data).2.2 = data := by
  classical
  unfold dmrBptc196_96Decode
  simp only [deinterleave_collectRaw, passes_eq, if_neg h, and_self]

/-! ## What the encoder computes

The encoder fills the matrix in two loops over words of the codes. Its last columns are the parity
of the parities of the rows.
-/

/-- The word the encoder builds for row `row`, before its parity bits: the data
bits in order, with three reserved zero bits in front. -/
def rowWord (dataBits : Vector Bool 96) (row : Fin 9) : Vector Bool 15 :=
  Vector.ofFn fun col =>
    if h : 3 ≤ 11 * row.val + col.val ∧ col.val < 11 then dataBits[11 * row.val + col.val - 3]
    else false

/-- The entries of row `row` that receive data bits. -/
def storeRow (dataBits : Vector Bool 96) (row : Fin 9) (deint : Vector Bool 196) :
    Vector Bool 196 :=
  if row = 0 then forLoop 8 (fun i deint => deint.set (i.val + 3) dataBits[i]) deint
  else forLoop 11 (fun col deint => deint.set (row.val * 15 + col.val)
    dataBits[8 + (row.val - 1) * 11 + col.val]) deint

/-- What the first row's word is made of … -/
theorem forLoop_rowWord_zero (dataBits : Vector Bool 96) :
    forLoop 8 (fun i hc => hc.set (i.val + 3) dataBits[i]) (Vector.replicate 15 false) =
      rowWord dataBits 0 := by
  rw [forLoop_place 3 (by decide) (fun i : Fin 8 => dataBits[i]) false]
  unfold rowWord
  congr 1
  funext j
  by_cases hin : 3 ≤ j.val ∧ j.val < 11
  · rw [dif_pos hin, dif_pos (by simpa using hin)]
    simp
  · rw [dif_neg hin, dif_neg (by simpa using hin)]

/-- … and that of any other row. -/
theorem forLoop_rowWord (dataBits : Vector Bool 96) {row : Fin 9} (hpos : 0 < row.val) :
    forLoop 11 (fun col hc => hc.set col.val dataBits[8 + (row.val - 1) * 11 + col.val])
      (Vector.replicate 15 false) = rowWord dataBits row := by
  refine (forLoop_place 0 (by decide)
    (fun col : Fin 11 => dataBits[8 + (row.val - 1) * 11 + col.val]) false).trans ?_
  unfold rowWord
  congr 1
  funext j
  by_cases hin : j.val < 11
  · have hidx : 8 + (row.val - 1) * 11 + (j.val - 0) = 11 * row.val + j.val - 3 := by omega
    rw [dif_pos ⟨Nat.zero_le _, hin⟩, dif_pos ⟨by omega, hin⟩]
    simp only [hidx]
  · rw [dif_neg fun h => hin h.2, dif_neg fun h => hin h.2]

theorem encodeRow_eq (dataBits : Vector Bool 96) (row : Fin 9) (deint : Vector Bool 196) :
    encodeRow dataBits row deint =
      forLoop 4 (fun i deint => deint.set (row.val * 15 + (11 + i.val))
        (dmrHamming15_11_3Encode (rowWord dataBits row))[11 + i.val])
        (storeRow dataBits row deint) := by
  unfold encodeRow storeRow
  -- the first row holds three reserved bits and eight of the message
  by_cases h0 : row = 0
  · subst h0
    have hpair := forLoop_prod (fun (i : Fin 8) (hc : Vector Bool 15) =>
        hc.set (i.val + 3) dataBits[i])
      (fun (i : Fin 8) (deint : Vector Bool 196) => deint.set (i.val + 3) dataBits[i])
      (Vector.replicate 15 false, deint)
    rw [forLoop_rowWord_zero] at hpair
    simp only [if_pos, hpair]
  · have hpos : 0 < row.val := Nat.pos_of_ne_zero fun h => h0 (Fin.ext h)
    have hpair := forLoop_prod (fun (col : Fin 11) (hc : Vector Bool 15) =>
        hc.set col.val dataBits[8 + (row.val - 1) * 11 + col.val])
      (fun (col : Fin 11) (deint : Vector Bool 196) =>
        deint.set (row.val * 15 + col.val) dataBits[8 + (row.val - 1) * 11 + col.val])
      (Vector.replicate 15 false, deint)
    rw [forLoop_rowWord dataBits hpos] at hpair
    simp only [if_neg h0, hpair]
theorem storeRow_other (dataBits : Vector Bool 96) (row : Fin 9) (deint : Vector Bool 196)
    (k : Fin 196) (hk : k.val / 15 ≠ row.val) : (storeRow dataBits row deint)[k] = deint[k] := by
  unfold storeRow
  split
  · next h0 =>
    subst h0
    exact forLoop_set_other (f := fun i : Fin 8 => (⟨i.val + 3, by omega⟩ : Fin 196))
      (fun i => dataBits[i]) deint k.isLt fun i hi => hk (by simp only at hi; simp; omega)
  · exact forLoop_set_other (f := fun i : Fin 11 => (⟨row.val * 15 + i.val, by omega⟩ : Fin 196))
      (fun col => dataBits[8 + (row.val - 1) * 11 + col.val]) deint k.isLt
      fun i hi => hk (by simp only at hi; omega)

/-- The reserved entries of the matrix: `R(3)` in front of row 0. -/
def ReservedClear (deint : Vector Bool 196) : Prop :=
  ∀ j : Fin 3, deint[j.val] = false

theorem storeRow_message (dataBits : Vector Bool 96) (row : Fin 9) (deint : Vector Bool 196)
    (hr : ReservedClear deint) (col : Fin 11) :
    (storeRow dataBits row deint)[row.val * 15 + col.val] = (rowWord dataBits row)[col.val] := by
  unfold storeRow
  split
  · next h0 =>
    subst h0
    by_cases hin : 3 ≤ col.val
    · have hset := forLoop_set (f := fun i : Fin 8 => (⟨i.val + 3, by omega⟩ : Fin 196))
        (fun a b hab => Fin.ext (by simpa using hab)) (fun i => dataBits[i]) deint
        ⟨col.val - 3, by omega⟩
      have hidx : col.val - 3 + 3 = col.val := by omega
      simpa [rowWord, hin, hidx] using hset
    · have hset := forLoop_set_other (f := fun i : Fin 8 => (⟨i.val + 3, by omega⟩ : Fin 196))
        (fun i => dataBits[i]) deint (j := col.val) (by omega)
        fun i hi => hin (by simp only at hi; omega)
      have hclear : deint[col.val] = false := hr ⟨col.val, by omega⟩
      simpa [rowWord, hin, hclear] using hset
  · next h0 =>
    have hpos : 0 < row.val := Nat.pos_of_ne_zero fun h => h0 (Fin.ext h)
    have hset := forLoop_set
      (f := fun col : Fin 11 => (⟨row.val * 15 + col.val, by omega⟩ : Fin 196))
      (fun a b hab => Fin.ext (by simpa using hab))
      (fun col => dataBits[8 + (row.val - 1) * 11 + col.val]) deint col
    have hidx : 8 + (row.val - 1) * 11 + col.val = 11 * row.val + col.val - 3 := by omega
    have hcond : 3 ≤ 11 * row.val + col.val := by omega
    simpa [rowWord, hidx, hcond] using hset

/-- One round of the row loop writes row `row` … -/
theorem rowOf_encodeRow (dataBits : Vector Bool 96) (row : Fin 9) (deint : Vector Bool 196)
    (hr : ReservedClear deint) :
    rowOf (encodeRow dataBits row deint) (row.castLE (by decide)) =
      dmrHamming15_11_3Encode (rowWord dataBits row) := by
  rw [encodeRow_eq]
  refine Vector.ext fun col hcol => ?_
  rw [rowOf, Vector.getElem_ofFn]
  by_cases hc : col < 11
  · have hother := forLoop_set_other
      (f := fun i : Fin 4 => (⟨row.val * 15 + (11 + i.val), by omega⟩ : Fin 196))
      (fun i => (dmrHamming15_11_3Encode (rowWord dataBits row))[11 + i.val])
      (storeRow dataBits row deint) (j := row.val * 15 + col) (by omega)
      fun i hi => absurd hi (by simp only; omega)
    have hmsg := storeRow_message dataBits row deint hr ⟨col, hc⟩
    have henc : (dmrHamming15_11_3Encode (rowWord dataBits row))[col] =
        (rowWord dataBits row)[col] :=
      congrFun (message_hammingEncode hamming15_11_3 (rowWord dataBits row)) ⟨col, hc⟩
    rw [henc, ← hmsg]
    exact hother
  · have hset := forLoop_set
      (f := fun i : Fin 4 => (⟨row.val * 15 + (11 + i.val), by omega⟩ : Fin 196))
      (fun a b hab => Fin.ext (by simpa using hab))
      (fun i => (dmrHamming15_11_3Encode (rowWord dataBits row))[11 + i.val])
      (storeRow dataBits row deint) ⟨col - 11, by omega⟩
    have hidx : 11 + (col - 11) = col := by omega
    simpa [hidx] using hset

/-- … and nothing else. -/
theorem encodeRow_other (dataBits : Vector Bool 96) (row : Fin 9) (deint : Vector Bool 196)
    (k : Fin 196) (hk : k.val / 15 ≠ row.val) : (encodeRow dataBits row deint)[k] = deint[k] := by
  rw [encodeRow_eq, ← storeRow_other dataBits row deint k hk]
  exact forLoop_set_other
    (f := fun i : Fin 4 => (⟨row.val * 15 + (11 + i.val), by omega⟩ : Fin 196))
    (fun i => (dmrHamming15_11_3Encode (rowWord dataBits row))[11 + i.val]) _ k.isLt
    fun i hi => hk (by simp only at hi; omega)

/-- Encoding does not change a message bit. -/
theorem dmrHamming15_11_3Encode_message (d : Vector Bool 15) (col : Fin 11) :
    (dmrHamming15_11_3Encode d)[col.val] = d[col.val] :=
  congrFun (message_hammingEncode hamming15_11_3 d) col

theorem reservedClear_encodeRow (dataBits : Vector Bool 96) (row : Fin 9)
    (deint : Vector Bool 196) (hr : ReservedClear deint) :
    ReservedClear (encodeRow dataBits row deint) := by
  intro j
  by_cases h0 : row = 0
  · have hrow := congrArg (fun w : Vector Bool 15 => w[j.val])
      (rowOf_encodeRow dataBits row deint hr)
    simp only [dmrHamming15_11_3Encode_message _ ⟨j.val, by omega⟩] at hrow
    have hj : ¬ 3 ≤ j.val := by omega
    subst h0
    simpa [rowOf, rowWord, hj] using hrow
  · have hne : j.val / 15 ≠ row.val := fun h => h0 (Fin.ext (by simp; omega))
    exact (encodeRow_other dataBits row deint ⟨j.val, by omega⟩ hne).trans (hr j)

/-- After the row loop every row holds its codeword. -/
theorem rowOf_encodeRows (dataBits : Vector Bool 96) (row : Fin 9) :
    rowOf (forLoop 9 (encodeRow dataBits) (Vector.replicate 196 false)) (row.castLE (by decide)) =
      dmrHamming15_11_3Encode (rowWord dataBits row) := by
  have key := forLoop_inv (f := encodeRow dataBits) (s := Vector.replicate 196 false)
    (fun n t => ReservedClear t ∧ ∀ r : Fin 9, r < n →
      rowOf t (r.castLE (by decide)) = dmrHamming15_11_3Encode (rowWord dataBits r))
    ⟨fun j => by simp, fun r hr => absurd hr (Nat.not_lt_zero _)⟩
    (fun i t ht => by
      refine ⟨reservedClear_encodeRow dataBits i t ht.1, fun r hr => ?_⟩
      rcases Nat.lt_succ_iff_lt_or_eq.mp hr with hlt | heq
      · rw [← ht.2 r hlt]
        refine Vector.ext fun col hcol => ?_
        have hother := encodeRow_other dataBits i t ⟨r.val * 15 + col, by omega⟩
          (by simp only; omega)
        simpa [rowOf] using hother
      · rw [Fin.ext heq]
        exact rowOf_encodeRow dataBits i t ht.1)
  exact key.2 row row.isLt

/-- One round of the column loop makes column `col` a codeword … -/
theorem valid_encodeColumn (col : Fin 15) (deint : Vector Bool 196) :
    hamming13_9_3.Valid (colOf (encodeColumn col deint) col) := by
  unfold encodeColumn
  have hword := forLoop_set (f := fun row : Fin 9 => (⟨row.val, by omega⟩ : Fin 13))
    (fun a b hab => Fin.ext (by simpa using hab))
    (fun row => deint[row.val * 15 + col.val]) (Vector.replicate 13 false)
  generalize forLoop 9 (fun row hc => hc.set row deint[row.val * 15 + col.val])
    (Vector.replicate 13 false) = hc at hword ⊢
  -- the column is the encoded word: nine entries were there, four are stored
  have hcol : colOf ((((deint.set (col.val + 135) (dmrHamming13_9_3Encode hc)[9]).set
      (col.val + 135 + 15) (dmrHamming13_9_3Encode hc)[10]).set
      (col.val + 135 + 30) (dmrHamming13_9_3Encode hc)[11]).set
      (col.val + 135 + 45) (dmrHamming13_9_3Encode hc)[12]) col = dmrHamming13_9_3Encode hc := by
    refine Vector.ext fun row hrow => ?_
    rw [colOf, Vector.getElem_ofFn]
    by_cases hr : row < 9
    · have henc : (dmrHamming13_9_3Encode hc)[row] = hc[row] :=
        congrFun (message_hammingEncode hamming13_9_3 hc) ⟨row, hr⟩
      have h1 : col.val + 135 ≠ row * 15 + col.val := by omega
      have h2 : col.val + 135 + 15 ≠ row * 15 + col.val := by omega
      have h3 : col.val + 135 + 30 ≠ row * 15 + col.val := by omega
      have h4 : col.val + 135 + 45 ≠ row * 15 + col.val := by omega
      rw [henc]
      simpa [h1, h2, h3, h4] using (hword ⟨row, hr⟩).symm
    · obtain rfl | rfl | rfl | rfl : row = 9 ∨ row = 10 ∨ row = 11 ∨ row = 12 := by omega
      all_goals grind
  rw [hcol]
  exact valid_hammingEncode hamming13_9_3 hc

/-- … and changes the check entries of that column only. -/
theorem encodeColumn_other (col : Fin 15) (deint : Vector Bool 196) (k : Fin 196)
    (hk : k.val < 135 ∨ k.val % 15 ≠ col.val) : (encodeColumn col deint)[k] = deint[k] := by
  have h1 : col.val + 135 ≠ k.val := by omega
  have h2 : col.val + 135 + 15 ≠ k.val := by omega
  have h3 : col.val + 135 + 30 ≠ k.val := by omega
  have h4 : col.val + 135 + 45 ≠ k.val := by omega
  simp [encodeColumn, h1, h2, h3, h4]

/-- The column loop makes every column a codeword and leaves the first nine rows
alone. -/
theorem encodeColumns_spec (deint : Vector Bool 196) :
    (∀ col, hamming13_9_3.Valid (colOf (forLoop 15 encodeColumn deint) col)) ∧
      ∀ k : Fin 196, k.val < 135 → (forLoop 15 encodeColumn deint)[k] = deint[k] := by
  have key := forLoop_inv (f := encodeColumn) (s := deint)
    (fun n t => (∀ col : Fin 15, col < n → hamming13_9_3.Valid (colOf t col)) ∧
      ∀ k : Fin 196, k.val < 135 → t[k] = deint[k])
    ⟨fun col hc => absurd hc (Nat.not_lt_zero _), fun _ _ => rfl⟩
    (fun i t ht => by
      refine ⟨fun col hc => ?_, fun k hk => ?_⟩
      · rcases Nat.lt_succ_iff_lt_or_eq.mp hc with hlt | heq
        · have hcol : colOf (encodeColumn i t) col = colOf t col := by
            refine Vector.ext fun row hrow => ?_
            have hother := encodeColumn_other i t ⟨row * 15 + col.val, by omega⟩
              (.inr (by simp only; omega))
            simpa [colOf] using hother
          rw [hcol]
          exact ht.1 col hlt
        · rw [Fin.ext heq]
          exact valid_encodeColumn i t
      · rw [encodeColumn_other i t k (.inl hk), ht.2 k hk])
  exact ⟨fun col => key.1 col col.isLt, key.2⟩

/-- The matrix the encoder builds. -/
def encodeMatrix (dataBits : Vector Bool 96) : Vector Bool 196 :=
  forLoop 15 encodeColumn (forLoop 9 (encodeRow dataBits) (Vector.replicate 196 false))

theorem rowOf_encodeMatrix (dataBits : Vector Bool 96) (row : Fin 9) :
    rowOf (encodeMatrix dataBits) (row.castLE (by decide)) =
      dmrHamming15_11_3Encode (rowWord dataBits row) := by
  rw [← rowOf_encodeRows dataBits row]
  refine Vector.ext fun col hcol => ?_
  have hsame := (encodeColumns_spec (forLoop 9 (encodeRow dataBits)
    (Vector.replicate 196 false))).2 ⟨row.val * 15 + col, by omega⟩ (by simp only; omega)
  simpa [rowOf, encodeMatrix] using hsame

/-- The encoder's matrix is one the decoder accepts … -/
theorem matrixOk_encodeMatrix (dataBits : Vector Bool 96) : MatrixOk (encodeMatrix dataBits) where
  column1 := (encodeColumns_spec _).1 1
  rows row := by
    rw [rowOf_encodeMatrix]
    exact valid_hammingEncode hamming15_11_3 _

/-- Data bit `i` is read from entry `dataEntry i` of the matrix. -/
def dataEntry (i : Fin 96) : Fin 196 := ⟨(i.val + 3) / 11 * 15 + (i.val + 3) % 11, by omega⟩

theorem matrixData_getElem (deint : Vector Bool 196) (i : Fin 96) :
    (matrixData deint)[i] = deint[dataEntry i] := by
  unfold matrixData
  generalize hd : forLoop 8 (fun i (dataBits : Vector Bool 96) =>
    dataBits.set i deint[i.val + 3]) (Vector.replicate 96 false) = dataBits
  have hrow0 : ∀ j : Fin 96, j.val < 8 → dataBits[j] = deint[dataEntry j] := by
    intro j hj
    have hset := forLoop_set (f := fun i : Fin 8 => (⟨i.val, by omega⟩ : Fin 96))
      (fun a b hab => Fin.ext (by simpa using hab)) (fun i => deint[i.val + 3])
      (Vector.replicate 96 false) ⟨j.val, hj⟩
    have hidx : (j.val + 3) / 11 * 15 + (j.val + 3) % 11 = j.val + 3 := by omega
    rw [← hd]
    simpa [dataEntry, hidx] using hset
  -- the other rows, eleven bits each, behind the eight of the first
  have key := forLoop_inv (n := 8)
    (f := fun r (dataBits : Vector Bool 96) => forLoop 11 (fun col dataBits =>
      dataBits.set (8 + r.val * 11 + col.val) deint[(r.val + 1) * 15 + col.val]) dataBits)
    (s := dataBits)
    (fun n t => ∀ j : Fin 96, j.val < 8 + n * 11 → t[j] = deint[dataEntry j])
    (fun j hj => hrow0 j (by omega))
    (fun r t ht j hj => by
      have hinj : Function.Injective
          (fun col : Fin 11 => (⟨8 + r.val * 11 + col.val, by omega⟩ : Fin 96)) :=
        fun a b hab => Fin.ext (by simpa using hab)
      by_cases hlt : j.val < 8 + r.val * 11
      · rw [← ht j hlt]
        exact forLoop_set_other
          (f := fun col : Fin 11 => (⟨8 + r.val * 11 + col.val, by omega⟩ : Fin 96))
          (fun col => deint[(r.val + 1) * 15 + col.val]) t j.isLt
          fun col hcol => by simp only at hcol; omega
      · have hset := forLoop_set hinj (fun col => deint[(r.val + 1) * 15 + col.val]) t
          ⟨j.val - (8 + r.val * 11), by omega⟩
        have hidx : 8 + r.val * 11 + (j.val - (8 + r.val * 11)) = j.val := by omega
        have hent : (j.val + 3) / 11 * 15 + (j.val + 3) % 11 =
            (r.val + 1) * 15 + (j.val - (8 + r.val * 11)) := by omega
        simpa [dataEntry, hidx, hent] using hset)
  exact key i (by omega)

/-- … and its data bits are the encoder's. -/
theorem matrixData_encodeMatrix (dataBits : Vector Bool 96) :
    matrixData (encodeMatrix dataBits) = dataBits := by
  refine Vector.ext fun i hi => ?_
  have hget := matrixData_getElem (encodeMatrix dataBits) ⟨i, hi⟩
  have hrow := congrArg (fun w : Vector Bool 15 => w[(i + 3) % 11])
    (rowOf_encodeMatrix dataBits ⟨(i + 3) / 11, by omega⟩)
  simp only [dmrHamming15_11_3Encode_message _ ⟨(i + 3) % 11, by omega⟩] at hrow
  have hidx : 11 * ((i + 3) / 11) + (i + 3) % 11 - 3 = i := by omega
  have hcond : 3 ≤ 11 * ((i + 3) / 11) + (i + 3) % 11 := by omega
  have hlt : (i + 3) % 11 < 11 := by omega
  simp only [rowOf, rowWord, Vector.getElem_ofFn] at hrow
  rw [dif_pos ⟨hcond, hlt⟩] at hrow
  simpa [dataEntry, hidx] using hget.trans hrow

/-! ## What is on the air after encoding

The interleaver is a bijection from the entries to the information bits, so a packet carries the
matrix and the decoder finds it again.
-/

theorem interleave_getElem (deint raw : Vector Bool 196) (k : Fin 196) :
    (interleave deint raw)[rawIndex k] = deint[k] :=
  forLoop_set rawIndex_injective (fun i => deint[i]) raw k

theorem spreadRaw_infoBit (raw : Vector Bool 196) (bits : Vector Bool 264) (r : Fin 196) :
    (spreadRaw raw bits)[infoBit r] = raw[r] := by
  unfold spreadRaw infoBit
  by_cases hr : r.val < 98
  · have hother := copy_getElem_other (copy bits 0 raw 0 98 (by decide) (by decide)) 166 raw 98 98
      (by decide) (by decide) (q := r.val) (by omega) (.inl (by omega))
    have hset := copy_getElem bits 0 raw 0 98 (by decide) (by decide) hr
    simp only [Nat.zero_add] at hset
    simpa [hr] using hother.trans hset
  · obtain ⟨i, hi⟩ := Nat.exists_eq_add_of_le (Nat.le_of_not_lt hr)
    have hset := copy_getElem (copy bits 0 raw 0 98 (by decide) (by decide)) 166 raw 98 98
      (by decide) (by decide) (i := i) (by omega)
    have hidx : 166 + i = r.val + 68 := by omega
    simpa [hr, hi, hidx] using hset

/-- The middle of the burst is whatever `bits` held. -/
theorem spreadRaw_middle (raw : Vector Bool 196) (bits : Vector Bool 264) (q : Fin 264)
    (hlo : 98 ≤ q.val) (hhi : q.val < 166) : (spreadRaw raw bits)[q] = bits[q] := by
  unfold spreadRaw
  rw [Fin.getElem_fin, copy_getElem_other _ _ _ _ _ _ _ q.isLt (.inl hhi),
    copy_getElem_other _ _ _ _ _ _ _ q.isLt (.inr hlo)]
  rfl

/-- The information bits of the encoded burst are the interleaved matrix. -/
theorem packetBit_encode_matrixBit (packet : DmrPacket) (bptc : DmrBptc196_96)
    (data : Vector UInt8 12) (bits : Vector Bool 264) (k : Fin 196) :
    packetBit (dmrBptc196_96Encode packet bptc data bits).2.1 (matrixBit k) =
      (encodeMatrix (dmrBytesToBits data (Vector.replicate 96 false)))[k] := by
  unfold dmrBptc196_96Encode matrixBit
  rw [packetBit_dmrBitsToBytes, spreadRaw_infoBit, interleave_getElem]
  rfl

/-- The bits between them are what the local array `bits` happened to hold. -/
theorem packetBit_encode_middle (packet : DmrPacket) (bptc : DmrBptc196_96)
    (data : Vector UInt8 12) (bits : Vector Bool 264) (q : Fin 264) (hlo : 98 ≤ q.val)
    (hhi : q.val < 166) :
    packetBit (dmrBptc196_96Encode packet bptc data bits).2.1 q = bits[q] := by
  unfold dmrBptc196_96Encode
  rw [packetBit_dmrBitsToBytes, spreadRaw_middle _ _ q hlo hhi]

theorem packetMatrix_encode (packet : DmrPacket) (bptc : DmrBptc196_96)
    (data : Vector UInt8 12) (bits : Vector Bool 264) :
    packetMatrix (dmrBptc196_96Encode packet bptc data bits).2.1 =
      encodeMatrix (dmrBytesToBits data (Vector.replicate 96 false)) := by
  refine Vector.ext fun k hk => ?_
  rw [packetMatrix, Vector.getElem_ofFn]
  exact packetBit_encode_matrixBit packet bptc data bits ⟨k, hk⟩

/-- A packet carries a data block when the decoder accepts its matrix and finds
that block in it. -/
structure Carries (packet : DmrPacket) (data : Vector UInt8 12) : Prop where
  ok : MatrixOk (packetMatrix packet)
  data_eq : matrixData (packetMatrix packet) = dmrBytesToBits data (Vector.replicate 96 false)

theorem carries_encode (packet : DmrPacket) (bptc : DmrBptc196_96) (data : Vector UInt8 12)
    (bits : Vector Bool 264) :
    Carries (dmrBptc196_96Encode packet bptc data bits).2.1 data where
  ok := by
    rw [packetMatrix_encode]
    exact matrixOk_encodeMatrix _
  data_eq := by rw [packetMatrix_encode, matrixData_encodeMatrix]

/-- The decoder delivers the block a packet carries. -/
theorem decode_of_carries {packet : DmrPacket} {data : Vector UInt8 12}
    (h : Carries packet data) (bptc : DmrBptc196_96) (out : Vector UInt8 12) :
    (dmrBptc196_96Decode packet bptc out).1 = 0 ∧
      (dmrBptc196_96Decode packet bptc out).2.2 = data := by
  obtain ⟨hret, hdata⟩ := decode_of_matrixOk packet bptc out h.ok
  refine ⟨hret, ?_⟩
  rw [hdata, h.data_eq]
  exact dmrBitsToBytes_dmrBytesToBits (n := 12) data out (Vector.replicate 96 false)

/-- **Round trip.** Whatever the packet, the work structs and the uninitialised
local array held, decoding an encoded burst succeeds with the same data. -/
theorem dmrBptc196_96Decode_encode (packet : DmrPacket) (bptc bptc' : DmrBptc196_96)
    (data out : Vector UInt8 12) (bits : Vector Bool 264) :
    (dmrBptc196_96Decode (dmrBptc196_96Encode packet bptc data bits).2.1 bptc' out).1 = 0 ∧
      (dmrBptc196_96Decode (dmrBptc196_96Encode packet bptc data bits).2.1 bptc' out).2.2
        = data :=
  decode_of_carries (carries_encode packet bptc data bits) bptc' out

/-! ## One wrong bit

A wrong bit is a wrong entry of the matrix. The decoder notices it if the entry lies in one of the
nine rows or in column 1.
-/

/-- The matrix entry that information bit `r` carries. -/
def matrixEntry (r : Fin 196) : Fin 196 := ⟨(13 * r.val + 195) % 196, Nat.mod_lt _ (by decide)⟩

theorem rawIndex_matrixEntry (r : Fin 196) : rawIndex (matrixEntry r) = r :=
  Fin.ext (by simp only [rawIndex, matrixEntry]; omega)

theorem packetMatrix_flipBit (packet : DmrPacket) (r : Fin 196) :
    packetMatrix (flipBit packet (infoBit r)) =
      (packetMatrix packet).set (matrixEntry r) (!(packetMatrix packet)[matrixEntry r]) := by
  have hr : infoBit r = matrixBit (matrixEntry r) := by rw [matrixBit, rawIndex_matrixEntry]
  refine Vector.ext fun k hk => ?_
  rw [packetMatrix, Vector.getElem_ofFn, packetBit_flipBit, hr]
  by_cases hkr : matrixEntry r = ⟨k, hk⟩
  · simp [hkr, packetMatrix]
  · have hbit : matrixBit ⟨k, hk⟩ ≠ matrixBit (matrixEntry r) := fun h =>
      hkr (matrixBit_injective h).symm
    have hne : (matrixEntry r).val ≠ k := fun h => hkr (Fin.ext h)
    simp [hbit, hne, packetMatrix]

theorem rowOf_set_same (deint : Vector Bool 196) (k : Fin 196) (v : Bool) (row : Fin 13)
    (hrow : k.val / 15 = row.val) :
    rowOf (deint.set k v) row = (rowOf deint row).set (k.val % 15) v := by
  refine Vector.ext fun col hcol => ?_
  simp only [rowOf, Vector.getElem_ofFn, Vector.getElem_set]
  grind

theorem rowOf_set_other (deint : Vector Bool 196) (k : Fin 196) (v : Bool) (row : Fin 13)
    (hrow : k.val / 15 ≠ row.val) : rowOf (deint.set k v) row = rowOf deint row := by
  refine Vector.ext fun col hcol => ?_
  simp only [rowOf, Vector.getElem_ofFn, Vector.getElem_set]
  grind

theorem colOf_set_same (deint : Vector Bool 196) (k : Fin 196) (v : Bool) (col : Fin 15)
    (hcol : k.val % 15 = col.val) (hk : k.val < 195) :
    colOf (deint.set k v) col = (colOf deint col).set (k.val / 15) v := by
  refine Vector.ext fun row hrow => ?_
  simp only [colOf, Vector.getElem_ofFn, Vector.getElem_set]
  grind

theorem colOf_set_other (deint : Vector Bool 196) (k : Fin 196) (v : Bool) (col : Fin 15)
    (hcol : k.val % 15 ≠ col.val) : colOf (deint.set k v) col = colOf deint col := by
  refine Vector.ext fun row hrow => ?_
  simp only [colOf, Vector.getElem_ofFn, Vector.getElem_set]
  grind

/-- An inverted entry is an inverted bit of its row … -/
theorem rowOf_set_not (deint : Vector Bool 196) (k : Fin 196) (row : Fin 13)
    (hrow : k.val / 15 = row.val) :
    rowOf (deint.set k (!deint[k])) row =
      invert (rowOf deint row) ⟨k.val % 15, Nat.mod_lt _ (by decide)⟩ := by
  have hentry : deint[k] = (rowOf deint row)[k.val % 15] := by
    simp only [rowOf, Vector.getElem_ofFn]
    simp only [← hrow, Fin.getElem_fin, Nat.div_add_mod']
  rw [rowOf_set_same deint k _ row hrow, hentry]
  rfl

/-- … and of its column. -/
theorem colOf_set_not (deint : Vector Bool 196) (k : Fin 196) (col : Fin 15)
    (hcol : k.val % 15 = col.val) (hk : k.val < 195) :
    colOf (deint.set k (!deint[k])) col = invert (colOf deint col) ⟨k.val / 15, by omega⟩ := by
  have hentry : deint[k] = (colOf deint col)[k.val / 15] := by
    simp only [colOf, Vector.getElem_ofFn]
    simp only [← hcol, Fin.getElem_fin, Nat.div_add_mod']
  rw [colOf_set_same deint k _ col hcol hk, hentry]
  rfl

/-- An inverted entry is harmless exactly when it lies below the rows and off
column 1. -/
theorem matrixOk_set_not_iff {deint : Vector Bool 196} (h : MatrixOk deint) (k : Fin 196) :
    MatrixOk (deint.set k (!deint[k])) ↔ 135 ≤ k.val ∧ k.val % 15 ≠ 1 := by
  constructor
  · intro hset
    constructor
    · by_contra hlt
      have hrow := hset.rows ⟨k.val / 15, by omega⟩
      rw [rowOf_set_not deint k _ rfl] at hrow
      exact hamming15_11_3_detects.not_valid_invert (h.rows ⟨k.val / 15, by omega⟩) _ hrow
    · intro hcol
      have hk : k.val < 195 := by omega
      have hcol1 := hset.column1
      rw [colOf_set_not deint k 1 hcol hk] at hcol1
      exact hamming13_9_3_detects.not_valid_invert h.column1 _ hcol1
  · rintro ⟨hlo, hcol⟩
    constructor
    · rw [colOf_set_other deint k _ 1 hcol]
      exact h.column1
    · intro row
      rw [rowOf_set_other deint k _ _ (by simp only [Fin.val_castLE]; omega)]
      exact h.rows row

theorem matrixData_set_other (deint : Vector Bool 196) (k : Fin 196) (v : Bool)
    (hk : 135 ≤ k.val) : matrixData (deint.set k v) = matrixData deint := by
  refine Vector.ext fun i hi => ?_
  have hne : k.val ≠ (dataEntry ⟨i, hi⟩).val := by simp only [dataEntry]; omega
  have h1 := matrixData_getElem (deint.set k v) ⟨i, hi⟩
  have h2 := matrixData_getElem deint ⟨i, hi⟩
  simp only [Fin.getElem_fin, Vector.getElem_set, if_neg hne] at h1 h2
  rw [h1, h2]

/-- Information bit `r` carries an entry that the decoder does not look at: below
the nine rows of data, and off column 1. -/
def Unchecked (r : Fin 196) : Prop :=
  135 ≤ (matrixEntry r).val ∧ (matrixEntry r).val % 15 ≠ 1

instance (r : Fin 196) : Decidable (Unchecked r) := inferInstanceAs (Decidable (_ ∧ _))

/-- A wrong bit that the decoder does not look at does no harm. -/
theorem Carries.flipBit {packet : DmrPacket} {data : Vector UInt8 12} (h : Carries packet data)
    {r : Fin 196} (hr : Unchecked r) : Carries (flipBit packet (infoBit r)) data where
  ok := by
    rw [packetMatrix_flipBit, matrixOk_set_not_iff h.ok]
    exact hr
  data_eq := by rw [packetMatrix_flipBit, matrixData_set_other _ _ _ hr.1, h.data_eq]

/-- Any other wrong bit makes the decoder give up. -/
theorem Carries.decode_flipBit {packet : DmrPacket} {data : Vector UInt8 12}
    (h : Carries packet data) {r : Fin 196} (hr : ¬ Unchecked r) (bptc : DmrBptc196_96)
    (out : Vector UInt8 12) :
    (dmrBptc196_96Decode (Dmrlib.flipBit packet (infoBit r)) bptc out).1 = -1 := by
  refine (decode_of_not_matrixOk _ _ _ fun hok => hr ?_).1
  rwa [packetMatrix_flipBit, matrixOk_set_not_iff h.ok] at hok

/-- **Single errors.** An encoded burst with one information bit inverted is
decoded to its data exactly when the decoder does not look at that bit. -/
theorem dmrBptc196_96Decode_flipBit_iff (packet : DmrPacket) (bptc bptc' : DmrBptc196_96)
    (data out : Vector UInt8 12) (bits : Vector Bool 264) (r : Fin 196) :
    ((dmrBptc196_96Decode (flipBit (dmrBptc196_96Encode packet bptc data bits).2.1 (infoBit r))
        bptc' out).1 = 0 ∧
      (dmrBptc196_96Decode (flipBit (dmrBptc196_96Encode packet bptc data bits).2.1 (infoBit r))
        bptc' out).2.2 = data) ↔ Unchecked r := by
  constructor
  · rintro ⟨hret, -⟩
    by_contra hr
    rw [(carries_encode packet bptc data bits).decode_flipBit hr] at hret
    cases hret
  · intro hr
    exact decode_of_carries ((carries_encode packet bptc data bits).flipBit hr) bptc' out

/-- Not every single error is corrected: information bit 1 of an encoded all-zero
block is not. -/
theorem dmrBptc196_96Decode_flipBit_fails :
    (dmrBptc196_96Decode
      (flipBit
        (dmrBptc196_96Encode (Vector.replicate 33 0)
          ⟨Vector.replicate 196 false, Vector.replicate 196 false⟩ (Vector.replicate 12 0)
          (Vector.replicate 264 false)).2.1
        (infoBit 1))
      ⟨Vector.replicate 196 false, Vector.replicate 196 false⟩ (Vector.replicate 12 0)).1 ≠ 0 := by
  rw [(carries_encode _ _ _ _).decode_flipBit (by decide)]
  decide

end Dmrlib
