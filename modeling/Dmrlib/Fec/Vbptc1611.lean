import Dmrlib.Lib.Loop

/-!
# Variable length BPTC(16,11) (`src/dmr/fec/vbptc_16_11.c`)

The link control of a voice call is spread over several bursts. Its bits fill a matrix of
sixteen columns row by row; each row but the last is a Hamming(16,11) word, and the last
holds a parity bit for each column. Bursts carry the matrix column by column.

Sender and receiver keep a cursor in the matrix: `encode` moves it along the rows, `add`
down the columns. A store outside the matrix, or a loop that never ends, is `none`.

- `DmrVbptc16_11`: the matrix, its number of rows and the cursor.
- `checkAndRepair`, `wipe`, `add`, `getFragment`, `decode`, `encode`: the functions of the source.
- `codedCell`: the cell of the matrix of a message, as `encode` fills it.
- `Encoded`: a matrix with these cells.
- `encode_spec`: what `encode` leaves in a matrix that was wiped.
-/

namespace Dmrlib

open Loop

/-- `dmr_vbptc_16_11`, with room for `rows` rows. The cursor is a pair of `uint8_t`; a
store fails before one of them passes 255. -/
structure DmrVbptc16_11 (rows : Nat) where
  matrix : Vector Bool (16 * rows)
  row : Nat
  col : Nat

namespace DmrVbptc16_11

variable {rows : Nat}

/-! ## Checksums of a row

The five parity bits of a row, and the table that tells from them which bit is wrong.
-/

/-- `vbptc->matrix + row * 16` -/
def rowBits (matrix : Vector Bool (16 * rows)) (row : Fin rows) : Vector Bool 16 :=
  Vector.ofFn fun col => matrix[row.val * 16 + col.val]

/-- `dmr_vbptc_16_11_parity_bits` -/
def parityBits (bits : Vector Bool 16) : Vector Bool 5 :=
  #v[bits[0] ^^ bits[1] ^^ bits[2] ^^ bits[3] ^^ bits[5] ^^ bits[7] ^^ bits[8],
    bits[1] ^^ bits[2] ^^ bits[3] ^^ bits[4] ^^ bits[6] ^^ bits[8] ^^ bits[9],
    bits[2] ^^ bits[3] ^^ bits[4] ^^ bits[5] ^^ bits[7] ^^ bits[9] ^^ bits[10],
    bits[0] ^^ bits[1] ^^ bits[2] ^^ bits[4] ^^ bits[6] ^^ bits[7] ^^ bits[10],
    bits[0] ^^ bits[2] ^^ bits[5] ^^ bits[6] ^^ bits[8] ^^ bits[9] ^^ bits[10]]

/-- `hamming_16_11_generator_matrix` -/
def generatorMatrix : Vector (Vector Bool 5) 16 := #v[
  #v[true, false, false, true, true],
  #v[true, true, false, true, false],
  #v[true, true, true, true, true],
  #v[true, true, true, false, false],
  #v[false, true, true, true, false],
  #v[true, false, true, false, true],
  #v[false, true, false, true, true],
  #v[true, false, true, true, false],
  #v[true, true, false, false, true],
  #v[false, true, true, false, true],
  #v[false, false, true, true, true],
  #v[true, false, false, false, false],
  #v[false, true, false, false, false],
  #v[false, false, true, false, false],
  #v[false, false, false, true, false],
  #v[false, false, false, false, true]]

/-- `dmr_vbptc_16_11_error_position` -/
def errorPosition (errorVector : Vector Bool 5) : Option (Fin 16) :=
  (List.finRange 16).find? fun row => generatorMatrix.get row = errorVector

theorem parity_lt (offset : Fin 5) : 11 + offset.val < 16 := by omega

/-- `dmr_vbptc_16_11_check_row`; the error vector is `parityBits`. -/
def checkRow (bits : Vector Bool 16) : Bool :=
  (List.finRange 5).all fun offset =>
    ((parityBits bits).get offset ^^
      getElem bits (11 + offset.val) (parity_lt offset)) = false

/-! ## Check and repair

First every row but the last is checked, and repaired where the table knows a position; then the
columns are compared with the last row.
-/

/-- A number in a `bool`. -/
def cBool (n : Nat) : Bool := n ≠ 0

/-- One round over the rows: the matrix, and `res`. -/
def repairRow (row : Fin (rows - 1)) (s : Vector Bool (16 * rows) × Bool) :
    Vector Bool (16 * rows) × Bool :=
  let (matrix, res) := s
  let row : Fin rows := ⟨row.val, by omega⟩
  if checkRow (rowBits matrix row) then (matrix, res)
  else
    match errorPosition (parityBits (rowBits matrix row)) with
    | none => (matrix, false)
    | some error =>
      let matrix := matrix.set (row.val * 16 + error.val) (!matrix[row.val * 16 + error.val])
      (matrix, res && checkRow (rowBits matrix row))

/-- The parity of a column, without its last bit. -/
def checkColumn (matrix : Vector Bool (16 * rows)) (col : Fin 16) : Bool :=
  forLoop (rows - 1) (fun row (parity : Bool) =>
    cBool ((parity.toNat + matrix[row.val * 16 + col.val].toNat) % 2)) false

/-- `dmr_vbptc_16_11_check_and_repair` -/
def checkAndRepair (v : DmrVbptc16_11 rows) : Bool × DmrVbptc16_11 rows :=
  if h : rows < 2 then (false, v)
  else
    let (matrix, res) := forLoop (rows - 1) repairRow (v.matrix, true)
    let v := { v with matrix }
    if (List.finRange 16).all fun col =>
        checkColumn matrix col = matrix[(rows - 1) * 16 + col.val] then (res, v)
    else (false, v)

/-! ## The cursor

The cursor is a row and a column. `add` and `get_fragment` count cells down the columns.
-/

/-- `dmr_vbptc_16_11_wipe` -/
def wipe (_ : DmrVbptc16_11 rows) : DmrVbptc16_11 rows := ⟨Vector.replicate _ false, 0, 0⟩

/-- `dmr_vbptc_16_11_matrix_free`, a `size_t`. -/
def matrixFree (v : DmrVbptc16_11 rows) : Nat :=
  (2 ^ 64 + rows * 16 - (v.col * rows + v.row)) % 2 ^ 64

/-- `vbptc->matrix[vbptc->col + vbptc->row * 16] = bit` -/
def store (v : DmrVbptc16_11 rows) (bit : Bool) : Option (Vector Bool (16 * rows)) :=
  if h : v.col + v.row * 16 < 16 * rows then some (v.matrix.set (v.col + v.row * 16) bit)
  else none

/-- A round of the loop in `dmr_vbptc_16_11_add`. -/
def addBit (v : DmrVbptc16_11 rows) (bit : Bool) : Option (DmrVbptc16_11 rows) := do
  let matrix ← v.store bit
  if v.row + 1 = rows then return ⟨matrix, 0, v.col + 1⟩
  else return ⟨matrix, v.row + 1, v.col⟩

/-- `dmr_vbptc_16_11_add` -/
def add {len : Nat} (v : DmrVbptc16_11 rows) (bits : Vector Bool len) :
    Option (Int × DmrVbptc16_11 rows) :=
  let space := v.matrixFree
  if space = 0 then some (-1, v)
  else
    -- a `uint8_t`
    let bitlen := min len space % 256
    have hlen : bitlen ≤ len := (Nat.mod_le _ _).trans (Nat.min_le_left _ _)
    (tryLoop bitlen (fun i v => v.addBit bits[i]) v).map fun v => (0, v)

/-- A round of the loops in `dmr_vbptc_16_11_get_fragment`, on `offset`, `pos` and `bits`.
Once `pos` has reached `bitlen` it stays there, so that every later round breaks too. -/
def readCell {len : Nat} (v : DmrVbptc16_11 rows) (col : Fin 16) (row : Fin rows)
    (s : Nat × Nat × Vector Bool len) : Nat × Nat × Vector Bool len :=
  let (offset, pos, bits) := s
  let bitlen := min (rows * 16) len
  if hpos : pos < bitlen then
    if offset = 0 then (0, pos + 1, bits.set pos v.matrix[row.val * 16 + col.val])
    else (offset - 1, pos, bits)
  else (offset, pos, bits)

/-- `dmr_vbptc_16_11_get_fragment` -/
def getFragment {len : Nat} (v : DmrVbptc16_11 rows) (offset : Nat) (bits : Vector Bool len) :
    Int × Vector Bool len :=
  let (_, _, bits) :=
    forLoop 16 (fun col s => forLoop rows (v.readCell col) s) (offset, 0, bits)
  (0, bits)

/-- `dmr_vbptc_16_11_decode`. The break leaves the inner loop, whose later rounds are
beyond `len` too. -/
def decode {len : Nat} (v : DmrVbptc16_11 rows) (bits : Vector Bool len) : Int × Vector Bool len :=
  if rows = 0 then (-1, bits)
  else
    (0, forLoop (rows - 1) (fun row bits => forLoop 11 (fun col (bits : Vector Bool len) =>
      if h : row.val * 11 + col.val < len then
        bits.set (row.val * 11 + col.val) v.matrix[row.val * 16 + col.val]
      else bits) bits) bits)

/-! ## The encoder

The message goes into the first eleven columns, bit by bit, before rows and columns are
completed.
-/

/-- A round of the first loop in `dmr_vbptc_16_11_encode`. -/
def encodeBit (v : DmrVbptc16_11 rows) (bit : Bool) : Option (DmrVbptc16_11 rows) := do
  let matrix ← v.store bit
  if v.col + 1 = 11 then return ⟨matrix, v.row + 1, 0⟩
  else return ⟨matrix, v.row, v.col + 1⟩

/-- That loop. Its counter is a `uint8_t`, and its bound is not: `fuel` rounds need not be
enough. -/
def encodeBits {len : Nat} (bits : Vector Bool len) (bitlen : Fin (len + 1)) :
    (fuel col : Nat) → DmrVbptc16_11 rows → Option (DmrVbptc16_11 rows)
  | 0, _, _ => none
  | fuel + 1, col, v =>
    if h : col < bitlen.val then do
      let v ← v.encodeBit bits[col]
      encodeBits bits bitlen fuel ((col + 1) % 256) v
    else some v

/-- The checksum of a row. -/
def encodeRow (row : Fin (rows - 1)) (matrix : Vector Bool (16 * rows)) :
    Vector Bool (16 * rows) :=
  copy matrix (row.val * 16 + 11) (parityBits (rowBits matrix ⟨row.val, by omega⟩)) 0 5
    (by omega) (by omega)

/-- The parity of a column, as the encoder computes it: `%` binds its right operand. -/
def encodeColumn (matrix : Vector Bool (16 * rows)) (col : Fin 16) : Bool :=
  forLoop (rows - 1) (fun row (parity : Bool) =>
    cBool (parity.toNat + matrix[row.val * 16 + col.val].toNat % 2)) false

/-- `dmr_vbptc_16_11_encode`. Without rows there is no last row to store to. -/
def encode {len : Nat} (fuel : Nat) (v : DmrVbptc16_11 rows) (bits : Vector Bool len) :
    Option (Int × DmrVbptc16_11 rows) :=
  if len = 0 then some (-1, v)
  else if h : rows = 0 then none
  else do
    let v := v.wipe
    let v ← encodeBits bits ⟨min len v.matrixFree, by omega⟩ fuel 0 v
    let matrix := forLoop (rows - 1) encodeRow v.matrix
    let matrix := forLoop 16 (fun col (matrix : Vector Bool (16 * rows)) =>
      matrix.set ((rows - 1) * 16 + col.val) (encodeColumn matrix col)) matrix
    return (0, { v with matrix })

/-! ## Cells -/

/-- The matrix as a function of row and column. -/
def cell (matrix : Vector Bool (16 * rows)) (r c : Nat) : Bool :=
  if h : r * 16 + c < 16 * rows then matrix[r * 16 + c] else false

theorem cell_eq (matrix : Vector Bool (16 * rows)) {r c : Nat} (hr : r < rows) (hc : c < 16) :
    cell matrix r c = matrix[r * 16 + c] :=
  dif_pos (by omega)

theorem cell_set (matrix : Vector Bool (16 * rows)) {r c r' c' : Nat} (bit : Bool)
    (hr' : r' < rows) (hc : c < 16) (hc' : c' < 16) :
    cell (matrix.set (r' * 16 + c') bit) r c =
      if r = r' ∧ c = c' then bit else cell matrix r c := by
  unfold cell
  by_cases hsame : r = r' ∧ c = c'
  · obtain ⟨rfl, rfl⟩ := hsame
    have hlt : r * 16 + c < 16 * rows := by omega
    rw [dif_pos hlt, if_pos ⟨rfl, rfl⟩, Vector.getElem_set_self]
  · have hne : r' * 16 + c' ≠ r * 16 + c := by omega
    rw [if_neg hsame]
    split
    · rw [Vector.getElem_set_ne _ _ hne]
    · rfl

theorem matrix_ext {m m' : Vector Bool (16 * rows)}
    (h : ∀ r < rows, ∀ c < 16, cell m r c = cell m' r c) : m = m' := by
  refine Vector.ext fun i hi => ?_
  have hcell := h (i / 16) (by omega) (i % 16) (Nat.mod_lt _ (by decide))
  rw [cell_eq _ (by omega) (Nat.mod_lt _ (by decide)), cell_eq _ (by omega)
    (Nat.mod_lt _ (by decide))] at hcell
  simpa only [Nat.div_add_mod'] using hcell

/-! ## What is encoded

The message bit at each place, the rows with their checksums, and the last row with the parities
of the columns.
-/

section Encode

variable {len : Nat} (bits : Vector Bool len)

/-- Bit `i` of the message, and zeros behind it. -/
def messageBit (i : Nat) : Bool := if h : i < len then bits[i] else false

/-- Row `r` of the message. -/
def messageRow (r : Nat) : Vector Bool 16 :=
  Vector.ofFn fun c => if c.val < 11 then messageBit bits (r * 11 + c.val) else false

/-- The message row with its checksum. -/
def codedCell (r c : Nat) : Bool :=
  if c < 11 then messageBit bits (r * 11 + c)
  else (parityBits (messageRow bits r)).toList.getD (c - 11) false

/-- A checksum is computed from the first eleven bits. -/
theorem parityBits_congr {row row' : Vector Bool 16} (h : ∀ i (hi : i < 11), row[i] = row'[i]) :
    parityBits row = parityBits row' := by
  simp only [parityBits, h 0 (by decide), h 1 (by decide), h 2 (by decide), h 3 (by decide),
    h 4 (by decide), h 5 (by decide), h 6 (by decide), h 7 (by decide), h 8 (by decide),
    h 9 (by decide), h 10 (by decide)]

/-- After `i` bits the cursor stands behind them, and nothing else is set. -/
structure Filled (i : Nat) (v : DmrVbptc16_11 rows) : Prop where
  row : v.row = i / 11
  col : v.col = i % 11
  cell : ∀ r < rows, ∀ c < 16, cell v.matrix r c =
    if c < 11 ∧ r * 11 + c < i then messageBit bits (r * 11 + c) else false

theorem filled_wipe (v : DmrVbptc16_11 rows) : Filled bits 0 v.wipe where
  row := rfl
  col := rfl
  cell r hr c hc := by
    have hzero : ¬ (c < 11 ∧ r * 11 + c < 0) := by omega
    rw [if_neg hzero, cell_eq _ hr hc]
    exact Vector.getElem_replicate _

/-- The cursor stands in the first eleven columns. -/
theorem Filled.cursor_lt {v : DmrVbptc16_11 rows} {i : Nat} (h : Filled bits i v)
    (hroom : i < 11 * rows) : v.row < rows ∧ v.col < 11 := by
  constructor
  · rw [h.row]
    omega
  · rw [h.col]
    exact Nat.mod_lt _ (by decide)

/-- The next bit goes to the next cell of the first eleven columns. -/
theorem Filled.cell_set {v : DmrVbptc16_11 rows} {i : Nat} (h : Filled bits i v) (hi : i < len)
    (hroom : i < 11 * rows) (hidx : v.col + v.row * 16 < 16 * rows) {r c : Nat} (hr : r < rows)
    (hc : c < 16) : DmrVbptc16_11.cell (v.matrix.set (v.col + v.row * 16) bits[i]) r c =
      if c < 11 ∧ r * 11 + c < i + 1 then messageBit bits (r * 11 + c) else false := by
  obtain ⟨hrow, hcol⟩ := h.cursor_lt bits hroom
  have hset := DmrVbptc16_11.cell_set v.matrix bits[i] hrow hc (show v.col < 16 by omega) (r := r)
  have hpos : v.row * 11 + v.col = i := by
    rw [h.row, h.col]
    omega
  simp only [Nat.add_comm v.col]
  rw [hset, h.cell r hr c hc]
  by_cases hsame : r = v.row ∧ c = v.col
  · obtain ⟨rfl, rfl⟩ := hsame
    rw [if_pos ⟨rfl, rfl⟩, if_pos (by omega), hpos]
    exact (dif_pos hi).symm
  · have hiff : (c < 11 ∧ r * 11 + c < i + 1) ↔ (c < 11 ∧ r * 11 + c < i) := by omega
    rw [if_neg hsame]
    simp only [hiff]

theorem Filled.encodeBit {v : DmrVbptc16_11 rows} {i : Nat} (h : Filled bits i v)
    (hi : i < len) (hroom : i < 11 * rows) :
    ∃ v', v.encodeBit bits[i] = some v' ∧ Filled bits (i + 1) v' := by
  obtain ⟨hrow, hcol⟩ := h.cursor_lt bits hroom
  have hidx : v.col + v.row * 16 < 16 * rows := by omega
  have hrow' := h.row
  have hcol' := h.col
  unfold DmrVbptc16_11.encodeBit
  rw [store, dif_pos hidx]
  by_cases hend : v.col + 1 = 11
  -- the row is full, and the cursor moves to the next one
  · refine ⟨⟨v.matrix.set (v.col + v.row * 16) bits[i], v.row + 1, 0⟩, ?_, ?_, ?_,
      fun r hr c hc => h.cell_set bits hi hroom hidx hr hc⟩
    · simp [hend]
    · show v.row + 1 = (i + 1) / 11
      omega
    · show 0 = (i + 1) % 11
      omega
  · refine ⟨⟨v.matrix.set (v.col + v.row * 16) bits[i], v.row, v.col + 1⟩, ?_, ?_, ?_,
      fun r hr c hc => h.cell_set bits hi hroom hidx hr hc⟩
    · simp [hend]
    · show v.row = (i + 1) / 11
      omega
    · show v.col + 1 = (i + 1) % 11
      omega

/-- A message that the counter can count is written as a whole. -/
theorem encodeBits_spec (hlen : len < 256) (hroom : len ≤ 11 * rows) (bitlen : Fin (len + 1))
    (hbitlen : bitlen.val = len) {fuel i : Nat} {v : DmrVbptc16_11 rows} (h : Filled bits i v)
    (hi : i ≤ len) (hfuel : len < i + fuel) :
    ∃ v', encodeBits bits bitlen fuel i v = some v' ∧ Filled bits len v' := by
  induction fuel generalizing i v with
  | zero => omega
  | succ fuel ih =>
    rw [encodeBits]
    by_cases hmore : i < len
    · obtain ⟨v', hstep, hv'⟩ := h.encodeBit bits hmore (by omega)
      rw [dif_pos (by omega), hstep]
      -- the counter does not wrap below its bound
      have hwrap : (i + 1) % 256 = i + 1 := Nat.mod_eq_of_lt (by omega)
      show ∃ v'', encodeBits bits bitlen fuel ((i + 1) % 256) v' = some v'' ∧ _
      rw [hwrap]
      exact ih hv' (by omega) (by omega)
    · obtain rfl : i = len := by omega
      rw [dif_neg (by omega)]
      exact ⟨v, rfl, h⟩

/-- Row `r` of the matrix begins with the message. -/
theorem parityBits_rowBits {matrix : Vector Bool (16 * rows)} (row : Fin rows)
    (h : ∀ c < 11, cell matrix row.val c = messageBit bits (row.val * 11 + c)) :
    parityBits (rowBits matrix row) = parityBits (messageRow bits row.val) := by
  refine parityBits_congr fun i hi => ?_
  have hcell := h i hi
  rw [cell_eq _ row.isLt (by omega)] at hcell
  rw [rowBits, messageRow, Vector.getElem_ofFn, Vector.getElem_ofFn]
  show matrix[row.val * 16 + i] = if i < 11 then messageBit bits (row.val * 11 + i) else false
  rw [if_pos hi, hcell]

/-- The checksum of a row goes to its last five cells. -/
theorem cell_encodeRow (matrix : Vector Bool (16 * rows)) (row : Fin (rows - 1)) {r c : Nat}
    (hr : r < rows) (hc : c < 16) :
    cell (encodeRow row matrix) r c =
      if r = row.val ∧ 11 ≤ c then
        (parityBits (rowBits matrix ⟨row.val, by omega⟩)).toList.getD (c - 11) false
      else cell matrix r c := by
  rw [cell_eq _ hr hc, encodeRow]
  by_cases hin : r = row.val ∧ 11 ≤ c
  · obtain ⟨rfl, hc'⟩ := hin
    have hidx : row.val * 16 + c = row.val * 16 + 11 + (c - 11) := by omega
    rw [if_pos ⟨rfl, hc'⟩]
    simp only [hidx]
    rw [copy_getElem _ _ _ _ _ _ _ (show c - 11 < 5 by omega),
      List.getD_eq_getElem _ _ (by rw [Vector.length_toList]; omega), Vector.getElem_toList]
    simp only [Nat.zero_add]
  · rw [if_neg hin, copy_getElem_other _ _ _ _ _ _ _ (by omega) (by omega), cell_eq _ hr hc]

/-- All rows but the last are completed. -/
theorem cell_encodeRows {matrix : Vector Bool (16 * rows)}
    (h : ∀ r < rows, ∀ c < 11, cell matrix r c = messageBit bits (r * 11 + c)) {r c : Nat}
    (hr : r < rows - 1) (hc : c < 16) :
    cell (forLoop (rows - 1) encodeRow matrix) r c = codedCell bits r c := by
  -- rows below the counter are complete, and the message is untouched in all of them
  have key := forLoop_inv (f := encodeRow) (s := matrix)
    (fun k m => (∀ r < rows, ∀ c < 11, cell m r c = messageBit bits (r * 11 + c)) ∧
      ∀ r < k, r < rows → ∀ c < 16, cell m r c = codedCell bits r c)
    ⟨h, fun r hr => absurd hr (Nat.not_lt_zero _)⟩
    (by
      rintro row m ⟨hmessage, hcoded⟩
      constructor
      · intro r hr c hc
        rw [cell_encodeRow m row hr (by omega), if_neg (by omega)]
        exact hmessage r hr c hc
      · intro r hrow hr c hc
        rw [cell_encodeRow m row hr hc]
        by_cases hin : r = row.val ∧ 11 ≤ c
        · obtain ⟨rfl, hc'⟩ := hin
          rw [if_pos ⟨rfl, hc'⟩, codedCell, if_neg (by omega), parityBits_rowBits bits _
            (fun c hc => hmessage row.val hr c hc)]
        · rw [if_neg hin]
          by_cases hnew : r = row.val
          · have hc' : c < 11 := by omega
            rw [codedCell, if_pos hc', hmessage r hr c hc']
          · exact hcoded r (by omega) hr c hc)
  exact key.2 r hr (by omega) c hc

/-- What the encoder takes for the parity of a column is whether it has a bit set. -/
theorem encodeColumn_eq (matrix : Vector Bool (16 * rows)) (col : Fin 16) :
    encodeColumn matrix col = true ↔ ∃ r < rows - 1, cell matrix r col.val = true := by
  have key := forLoop_inv (s := false) (f := fun (row : Fin (rows - 1)) (parity : Bool) =>
      cBool (parity.toNat + matrix[row.val * 16 + col.val].toNat % 2))
    (fun k parity => parity = true ↔ ∃ r < k, cell matrix r col.val = true)
    (by simp)
    (by
      intro row parity hparity
      have hcell := cell_eq matrix (show row.val < rows by omega) col.isLt
      -- the sum in a bool is the logical or
      have hor : cBool (parity.toNat + matrix[row.val * 16 + col.val].toNat % 2) = true ↔
          parity = true ∨ cell matrix row.val col.val = true := by
        rw [hcell]
        cases parity <;> cases matrix[row.val * 16 + col.val] <;> decide
      rw [hor, hparity]
      constructor
      · rintro (⟨r, hr, hcell⟩ | hlast)
        · exact ⟨r, by omega, hcell⟩
        · exact ⟨row.val, by omega, hlast⟩
      · rintro ⟨r, hr, hcell⟩
        by_cases hlast : r = row.val
        · exact .inr (hlast ▸ hcell)
        · exact .inl ⟨r, by omega, hcell⟩)
  exact key

/-- What the encoder leaves in the matrix: coded rows, and the bits of the last row that
tell which columns have a bit set. -/
structure Encoded (v : DmrVbptc16_11 rows) : Prop where
  coded : ∀ r < rows - 1, ∀ c < 16, cell v.matrix r c = codedCell bits r c
  parity : ∀ c < 16, cell v.matrix (rows - 1) c = true ↔
    ∃ r < rows - 1, codedCell bits r c = true

/-- The parities are stored below the rows they are computed from. -/
theorem encodeColumns_spec {matrix : Vector Bool (16 * rows)} (hrows : 0 < rows)
    (h : ∀ r < rows - 1, ∀ c < 16, cell matrix r c = codedCell bits r c) (row col : Nat) :
    Encoded bits ⟨forLoop 16 (fun col (matrix : Vector Bool (16 * rows)) =>
      matrix.set ((rows - 1) * 16 + col.val) (encodeColumn matrix col)) matrix, row, col⟩ := by
  -- the rows stay as they are, and the columns before `k` have their parity
  have key := forLoop_inv (s := matrix)
    (f := fun (col : Fin 16) (matrix : Vector Bool (16 * rows)) =>
      matrix.set ((rows - 1) * 16 + col.val) (encodeColumn matrix col))
    (fun k m => (∀ r < rows - 1, ∀ c < 16, cell m r c = codedCell bits r c) ∧
      ∀ c < k, c < 16 → (cell m (rows - 1) c = true ↔ ∃ r < rows - 1, codedCell bits r c = true))
    ⟨h, fun c hc => absurd hc (Nat.not_lt_zero _)⟩
    (by
      rintro col m ⟨hcoded, hparity⟩
      constructor
      · intro r hr c hc
        rw [cell_set m _ (by omega) hc col.isLt, if_neg (by omega)]
        exact hcoded r hr c hc
      · intro c hnew hc
        rw [cell_set m _ (by omega) hc col.isLt]
        -- the column of this round, and those before it
        by_cases hlast : c = col.val
        · rw [if_pos ⟨rfl, hlast⟩, encodeColumn_eq, hlast]
          constructor
          · rintro ⟨r, hr, hcell⟩
            exact ⟨r, hr, (hcoded r hr col.val col.isLt).symm.trans hcell⟩
          · rintro ⟨r, hr, hcell⟩
            exact ⟨r, hr, (hcoded r hr col.val col.isLt).trans hcell⟩
        · rw [if_neg (fun hsame => hlast hsame.2)]
          exact hparity c (by omega) hc)
  exact ⟨key.1, fun c hc => key.2 c hc hc⟩

/-- Encoding a message for which there is room succeeds. -/
theorem encode_spec (v : DmrVbptc16_11 rows) {fuel : Nat} (hpos : 0 < len) (hlen : len < 256)
    (hroom : len ≤ 11 * (rows - 1)) (hrows : rows < 256) (hfuel : 256 ≤ fuel) :
    ∃ v', encode fuel v bits = some (0, v') ∧ Encoded bits v' := by
  have hfree : min len v.wipe.matrixFree = len := by
    have hzero : v.wipe.matrixFree = (2 ^ 64 + rows * 16 - (0 * rows + 0)) % 2 ^ 64 := rfl
    rw [hzero]
    omega
  obtain ⟨filled, hbits, hfilled⟩ := encodeBits_spec bits hlen (show len ≤ 11 * rows by omega)
    ⟨min len v.wipe.matrixFree, by omega⟩ hfree (filled_wipe bits v)
    (Nat.zero_le len) (show len < 0 + fuel by omega)
  have hmessage : ∀ r < rows, ∀ c < 11,
      cell filled.matrix r c = messageBit bits (r * 11 + c) := by
    intro r hr c hc
    rw [hfilled.cell r hr c (by omega)]
    by_cases hin : r * 11 + c < len
    · rw [if_pos ⟨hc, hin⟩]
    · rw [if_neg (fun h => hin h.2), messageBit, dif_neg hin]
  refine ⟨_, ?_, encodeColumns_spec bits (show 0 < rows by omega)
    (fun r hr c hc => cell_encodeRows bits hmessage hr hc) filled.row filled.col⟩
  rw [encode, if_neg (by omega), dif_neg (by omega)]
  show (encodeBits bits _ fuel 0 v.wipe).bind _ = _
  rw [hbits]
  rfl

end Encode

end DmrVbptc16_11

end Dmrlib
