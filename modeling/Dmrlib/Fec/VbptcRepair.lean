import Dmrlib.Fec.Hamming
import Dmrlib.Fec.VbptcCheck

/-!
# Repairing a variable length BPTC

The generator matrix has the columns of the check matrix, so the syndrome of a row with a
single error is the entry of the bit that is wrong. What the search is given, though, are the
parity bits of the received row, without the checksum that came with it: the two are the same
for a received row whose checksum is zero.

- `RowsRepaired`, `repairRows_spec`: what the loop over the rows does.
- `CodeRows`, `EvenColumns`: what is to be true of a matrix that is accepted.
- `checkAndRepair_sound`: a matrix that the checker accepts, with or without repairs, has both.
- `flipCell`: a matrix with one wrong bit.
- `checkAndRepair_flipCell_iff`: the checker takes the error back exactly if the checksum of the
  received row is zero.
-/

namespace Dmrlib

namespace DmrVbptc16_11

open Loop LinearCode

variable {rows : Nat}

/-! ## One row

The syndrome of a row with one wrong bit is the column of the check matrix for that bit, and no
two columns are equal.
-/

theorem generatorMatrix_eq_column (j : Fin 16) (x : Fin 5) :
    generatorMatrix[j][x] = hamming16_11_4.column j x := by
  revert j x
  decide +kernel

/-- The parity bits are the sums of the rows that belong to set bits. -/
theorem parityBits_getElem (bits : Vector Bool 16) (x : Fin 5) :
    (parityBits bits)[x] = ∑ y, hamming16_11_4.message bits y * hamming16_11_4.gen y x := by
  have hgen : ∀ (y : Fin 11) (x : Fin 5), hamming16_11_4.gen y x = generatorMatrix[y.val][x] := by
    simp only [Hamming.gen, Matrix.of_apply]
    decide +kernel
  have hmul : ∀ b : Bool, b * true = b ∧ b * false = false := by decide
  simp only [hgen, Hamming.message, Fin.sum_univ_succ, Fin.sum_univ_zero]
  fin_cases x
  all_goals
    simp [generatorMatrix, parityBits, hmul, Bool.add_eq_xor]

theorem syndrome_rowBits (bits : Vector Bool 16) (x : Fin 5) :
    syndrome hamming16_11_4.gen (hamming16_11_4.message bits) (hamming16_11_4.parity bits) x =
      (bits[11 + x.val] ^^ (parityBits bits)[x]) := by
  rw [parityBits_getElem]
  rfl

/-- The row check accepts the codewords. -/
theorem checkRow_iff (bits : Vector Bool 16) :
    checkRow bits = true ↔ hamming16_11_4.Valid bits := by
  rw [Hamming.Valid, isCodeword_iff_syndrome, funext_iff, checkRow, List.all_eq_true]
  constructor
  · intro h x
    rw [syndrome_rowBits, Bool.xor_comm]
    exact of_decide_eq_true (h x (List.mem_finRange x))
  · intro h x _
    have hx := h x
    rw [syndrome_rowBits, Bool.xor_comm] at hx
    exact decide_eq_true hx

/-- The search finds the entry. -/
theorem errorPosition_eq_some_iff (errorVector : Vector Bool 5) (j : Fin 16) :
    errorPosition errorVector = some j ↔ generatorMatrix[j] = errorVector := by
  have hinj : ∀ i j : Fin 16, generatorMatrix[i] = generatorMatrix[j] → i = j := by
    decide +kernel
  have hfound : ∀ i, errorPosition errorVector = some i → generatorMatrix[i] = errorVector := by
    intro i hi
    have hfind := List.find?_some (p := fun row : Fin 16 => decide (generatorMatrix[row] =
      errorVector)) hi
    exact of_decide_eq_true hfind
  refine ⟨hfound j, fun h => ?_⟩
  cases hfind : errorPosition errorVector with
  | none =>
    have hnone := List.find?_eq_none.mp hfind j (List.mem_finRange j)
    exact absurd (decide_eq_true h) hnone
  | some i => rw [hinj i j ((hfound i hfind).trans h.symm)]

/-- What a round of the loop makes of its row, and whether it is correct then. -/
def repairBits (bits : Vector Bool 16) : Vector Bool 16 × Bool :=
  if checkRow bits then (bits, true)
  else
    match errorPosition (parityBits bits) with
    | none => (bits, false)
    | some error => (invert bits error, checkRow (invert bits error))

theorem repairBits_of_found {bits : Vector Bool 16} {error : Fin 16}
    (hcheck : ¬ checkRow bits = true) (hposition : errorPosition (parityBits bits) = some error) :
    repairBits bits = (invert bits error, checkRow (invert bits error)) := by
  rw [repairBits, if_neg hcheck, hposition]

theorem repairBits_of_valid {bits : Vector Bool 16} (h : hamming16_11_4.Valid bits) :
    repairBits bits = (bits, true) := by
  rw [repairBits, if_pos ((checkRow_iff bits).mpr h)]

/-- The row is checked again. -/
theorem repairBits_snd (bits : Vector Bool 16) :
    (repairBits bits).2 = checkRow (repairBits bits).1 := by
  by_cases hcheck : checkRow bits = true
  · rw [repairBits, if_pos hcheck, hcheck]
  · cases hposition : errorPosition (parityBits bits) with
    | none => rw [repairBits, if_neg hcheck, hposition, Bool.eq_false_of_not_eq_true hcheck]
    | some error => rw [repairBits_of_found hcheck hposition]

/-- At most one bit is changed. -/
theorem repairBits_distance (bits : Vector Bool 16) :
    hammingDist (fun i : Fin 16 => (repairBits bits).1[i]) (fun i => bits[i]) ≤ 1 := by
  have hsame : hammingDist (fun i : Fin 16 => bits[i]) (fun i => bits[i]) ≤ 1 := by
    rw [hammingDist_self]
    exact Nat.zero_le 1
  unfold repairBits
  split
  · exact hsame
  · split
    · exact hsame
    · next error _ =>
      -- the bits that differ are among the one inverted
      refine (Finset.card_le_card (t := {error}) fun i hi => ?_).trans
        (Finset.card_singleton error).le
      rw [Finset.mem_filter] at hi
      rw [Finset.mem_singleton]
      by_contra hne
      refine hi.2 ?_
      have hval : ¬ error.val = i.val := fun h => hne (Fin.ext h.symm)
      exact (invert_getElem bits error i.val i.isLt).trans (if_neg hval)

/-- The search finds an inverted bit if the row came with a checksum of zeros, and not
otherwise: it gets the parity bits of the row where the syndrome belongs. -/
theorem errorPosition_invert_iff {bits : Vector Bool 16} (h : hamming16_11_4.Valid bits)
    (j : Fin 16) :
    errorPosition (parityBits (invert bits j)) = some j ↔
      ∀ x : Fin 5, (invert bits j)[11 + x.val] = false := by
  -- the syndrome of the row is the entry for the bit
  have hparity : ∀ x : Fin 5, (parityBits (invert bits j))[x] =
      ((invert bits j)[11 + x.val] ^^ generatorMatrix[j][x]) := by
    intro x
    have hsyndrome := congrFun (hamming16_11_4.syndrome_invert bits j) x
    rw [isCodeword_iff_syndrome.mp h, zero_add, syndrome_rowBits,
      ← generatorMatrix_eq_column] at hsyndrome
    rw [← hsyndrome, ← Bool.xor_assoc, Bool.xor_self, Bool.false_xor]
  rw [errorPosition_eq_some_iff]
  constructor
  · intro heq x
    have hx := hparity x
    rw [← heq] at hx
    have hcancel : ∀ a b : Bool, b = (a ^^ b) → a = false := by decide
    exact hcancel _ _ hx
  · intro hzero
    refine Vector.ext fun i hi => ?_
    have hx := hparity ⟨i, hi⟩
    rw [hzero ⟨i, hi⟩, Bool.false_xor] at hx
    exact hx.symm

/-- A single error is repaired if it is found: another bit inverted leads to no codeword. -/
theorem repairBits_invert_iff {bits : Vector Bool 16} (h : hamming16_11_4.Valid bits)
    (j : Fin 16) :
    (repairBits (invert bits j)).1 = bits ↔
      ∀ x : Fin 5, (invert bits j)[11 + x.val] = false := by
  have hcheck : ¬ checkRow (invert bits j) = true := by
    rw [checkRow_iff]
    exact hamming16_11_4_detects.not_valid_invert h j
  rw [← errorPosition_invert_iff h]
  cases hposition : errorPosition (parityBits (invert bits j)) with
  | none =>
    rw [repairBits, if_neg hcheck, hposition]
    refine iff_of_false (fun hsame => hcheck ?_) (by simp)
    have hsame : invert bits j = bits := hsame
    rw [checkRow_iff, hsame]
    exact h
  | some error =>
    rw [repairBits_of_found hcheck hposition, Option.some.injEq]
    constructor
    · intro hsame
      have hsame : invert (invert bits j) error = bits := hsame
      by_contra hne
      have hboth := hamming16_11_4_detects.not_valid_invert_invert h (Ne.symm hne)
      rw [hsame] at hboth
      exact hboth h
    · rintro rfl
      exact invert_invert bits error

/-! ## All rows

The loop treats each row by itself, so what it leaves is the repaired rows, and its result is
whether each of them could be repaired.
-/

theorem rowBits_getElem (matrix : Vector Bool (16 * rows)) (row : Fin rows) {i : Nat}
    (hi : i < 16) : (rowBits matrix row)[i] = matrix[row.val * 16 + i] :=
  Vector.getElem_ofFn _

theorem place_lt (row : Fin rows) (col : Fin 16) : row.val * 16 + col.val < 16 * rows := by omega

theorem rowBits_set (matrix : Vector Bool (16 * rows)) (row r : Fin rows) (col : Fin 16)
    (bit : Bool) : rowBits (matrix.set (row.val * 16 + col.val) bit (place_lt row col)) r =
      if r = row then (rowBits matrix row).set col bit else rowBits matrix r := by
  refine Vector.ext fun i hi => ?_
  rw [rowBits_getElem _ _ hi, Vector.getElem_set]
  by_cases hrow : r = row
  · subst hrow
    have hiff : r.val * 16 + col.val = r.val * 16 + i ↔ col.val = i := Nat.add_left_cancel_iff
    simp only [if_true, Vector.getElem_set, hiff, rowBits_getElem _ _ hi]
  · have hne : row.val * 16 + col.val ≠ r.val * 16 + i := by
      have hval : r.val ≠ row.val := fun h => hrow (Fin.ext h)
      omega
    rw [if_neg hne, if_neg hrow, rowBits_getElem _ _ hi]

/-- A matrix is known by its rows. -/
theorem matrix_eq_of_rowBits {m m' : Vector Bool (16 * rows)}
    (h : ∀ r, rowBits m r = rowBits m' r) : m = m' := by
  refine matrix_ext fun r hr c hc => ?_
  rw [cell_eq _ hr hc, cell_eq _ hr hc, ← rowBits_getElem m ⟨r, hr⟩ hc,
    ← rowBits_getElem m' ⟨r, hr⟩ hc, h]

/-- The matrix with one bit inverted. -/
def flipCell (matrix : Vector Bool (16 * rows)) (row : Fin rows) (col : Fin 16) :
    Vector Bool (16 * rows) :=
  matrix.set (row.val * 16 + col.val)
    (!getElem matrix (row.val * 16 + col.val) (place_lt row col)) (place_lt row col)

theorem rowBits_flipCell (matrix : Vector Bool (16 * rows)) (row r : Fin rows) (col : Fin 16) :
    rowBits (flipCell matrix row col) r =
      if r = row then invert (rowBits matrix row) col else rowBits matrix r := by
  have hbit : (rowBits matrix row)[col] = matrix[row.val * 16 + col.val] :=
    rowBits_getElem matrix row col.isLt
  rw [flipCell, rowBits_set, invert, hbit]

theorem dataRow_lt (row : Fin (rows - 1)) : row.val < rows := by omega

/-- A row of the data, all but the last. -/
def dataRow (row : Fin (rows - 1)) : Fin rows := ⟨row.val, dataRow_lt row⟩

theorem repairRow_of_found {row : Fin (rows - 1)} {matrix : Vector Bool (16 * rows)}
    {error : Fin 16} (hcheck : ¬ checkRow (rowBits matrix (dataRow row)) = true)
    (hposition : errorPosition (parityBits (rowBits matrix (dataRow row))) = some error)
    (res : Bool) :
    repairRow row (matrix, res) = (flipCell matrix (dataRow row) error,
      res && checkRow (rowBits (flipCell matrix (dataRow row) error) (dataRow row))) := by
  unfold dataRow at hcheck hposition
  unfold repairRow
  simp only [hcheck, hposition]
  rfl

/-- A round repairs its row, and leaves the others alone. -/
theorem repairRow_spec (row : Fin (rows - 1)) (matrix : Vector Bool (16 * rows)) (res : Bool) :
    (repairRow row (matrix, res)).2 = (res && (repairBits (rowBits matrix (dataRow row))).2) ∧
      ∀ r, rowBits (repairRow row (matrix, res)).1 r =
        if r = dataRow row then (repairBits (rowBits matrix (dataRow row))).1
        else rowBits matrix r := by
  have hkept : ∀ r, rowBits matrix r =
      if r = dataRow row then rowBits matrix (dataRow row) else rowBits matrix r := by
    intro r
    split
    · next heq => rw [heq]
    · rfl
  -- three ways a round can go: the row is right, cannot be repaired, or is repaired
  by_cases hcheck : checkRow (rowBits matrix (dataRow row)) = true
  · have hround : repairRow row (matrix, res) = (matrix, res) := by
      unfold dataRow at hcheck
      unfold repairRow
      simp only [hcheck, if_true]
    rw [hround, repairBits, if_pos hcheck, Bool.and_true]
    exact ⟨rfl, hkept⟩
  · cases hposition : errorPosition (parityBits (rowBits matrix (dataRow row))) with
    | none =>
      have hround : repairRow row (matrix, res) = (matrix, false) := by
        unfold dataRow at hcheck hposition
        unfold repairRow
        simp only [hcheck, hposition]
        rfl
      rw [hround, repairBits, if_neg hcheck, hposition]
      dsimp only
      rw [Bool.and_false]
      exact ⟨rfl, hkept⟩
    | some error =>
      have hself := rowBits_flipCell matrix (dataRow row) (dataRow row) error
      rw [if_pos rfl] at hself
      rw [repairRow_of_found hcheck hposition, repairBits_of_found hcheck hposition, hself]
      dsimp only
      exact ⟨rfl, fun r => rowBits_flipCell matrix (dataRow row) r error⟩

/-- The matrix after the loop over the rows, and `res`. -/
def repairRows (matrix : Vector Bool (16 * rows)) : Vector Bool (16 * rows) × Bool :=
  forLoop (rows - 1) repairRow (matrix, true)

/-- After `k` rounds: the rows below `k` are repaired, the others as received. -/
structure RowsRepaired (matrix : Vector Bool (16 * rows)) (k : Nat)
    (s : Vector Bool (16 * rows) × Bool) : Prop where
  res : s.2 = true ↔ ∀ row : Fin (rows - 1), row.val < k →
    (repairBits (rowBits matrix (dataRow row))).2 = true
  bits : ∀ r : Fin rows, rowBits s.1 r =
    if r.val < k then (repairBits (rowBits matrix r)).1 else rowBits matrix r

theorem RowsRepaired.start (matrix : Vector Bool (16 * rows)) :
    RowsRepaired matrix 0 (matrix, true) where
  res := iff_of_true rfl fun _ h => absurd h (Nat.not_lt_zero _)
  bits r := (if_neg (Nat.not_lt_zero r.val)).symm

theorem RowsRepaired.repairRow {matrix : Vector Bool (16 * rows)} {row : Fin (rows - 1)}
    {s : Vector Bool (16 * rows) × Bool} (h : RowsRepaired matrix row.val s) :
    RowsRepaired matrix (row.val + 1) (repairRow row s) := by
  obtain ⟨m, res⟩ := s
  obtain ⟨hflag, hround⟩ := repairRow_spec row m res
  have hreceived := (h.bits (dataRow row)).trans (if_neg (Nat.lt_irrefl row.val))
  rw [hreceived] at hflag hround
  constructor
  · rw [hflag, Bool.and_eq_true, h.res]
    constructor
    · rintro ⟨hbefore, hnow⟩ r hr
      obtain hlt | heq := Nat.lt_succ_iff_lt_or_eq.mp hr
      · exact hbefore r hlt
      · rw [Fin.ext heq]
        exact hnow
    · intro hall
      exact ⟨fun r hr => hall r (Nat.lt_succ_of_lt hr), hall row (Nat.lt_succ_self _)⟩
  · intro r
    rw [hround, h.bits]
    by_cases heq : r = dataRow row
    · have hval : r.val = row.val := congrArg Fin.val heq
      rw [if_pos heq, if_pos (by omega), heq]
    · have hval : r.val ≠ row.val := fun hval => heq (Fin.ext hval)
      have hiff : r.val < row.val + 1 ↔ r.val < row.val := by omega
      simp only [if_neg heq, hiff]

/-- Every row but the last is repaired on its own. -/
theorem repairRows_spec (matrix : Vector Bool (16 * rows)) :
    ((repairRows matrix).2 = true ↔
        ∀ row : Fin (rows - 1), (repairBits (rowBits matrix (dataRow row))).2 = true) ∧
      ∀ r : Fin rows, rowBits (repairRows matrix).1 r =
        if r.val < rows - 1 then (repairBits (rowBits matrix r)).1 else rowBits matrix r := by
  have hrepaired : RowsRepaired matrix (rows - 1) (repairRows matrix) :=
    forLoop_inv (RowsRepaired matrix) (RowsRepaired.start matrix) fun _ _ h => h.repairRow
  have hall : (∀ row : Fin (rows - 1), row.val < rows - 1 →
      (repairBits (rowBits matrix (dataRow row))).2 = true) ↔
        ∀ row : Fin (rows - 1), (repairBits (rowBits matrix (dataRow row))).2 = true :=
    forall_congr' fun row => ⟨fun h => h row.isLt, fun h _ => h⟩
  exact ⟨hrepaired.res.trans hall, hrepaired.bits⟩

/-! ## The check as a whole

What is accepted has rows of the code and even columns. The converse is in question only for the
rows that were repaired.
-/

/-- The rows but the last are codewords. -/
def CodeRows (matrix : Vector Bool (16 * rows)) : Prop :=
  ∀ row : Fin (rows - 1), hamming16_11_4.Valid (rowBits matrix (dataRow row))

/-- Every column has an even number of set bits. -/
def EvenColumns (matrix : Vector Bool (16 * rows)) : Prop :=
  ∀ col : Fin 16, Even (ones matrix rows col.val)

theorem checkColumn_iff (hrows : 2 ≤ rows) (matrix : Vector Bool (16 * rows)) (col : Fin 16) :
    checkColumn matrix col = matrix[(rows - 1) * 16 + col.val] ↔
      Even (ones matrix rows col.val) := by
  have hparity := toNat_checkColumn matrix col
  have hlast := ones_succ matrix (rows - 1) col.val
  rw [Nat.sub_add_cancel (by omega), cell_eq _ (by omega) col.isLt] at hlast
  have hbool : ∀ a b : Bool, a = b ↔ a.toNat = b.toNat := by decide
  have hbit := Bool.toNat_lt matrix[(rows - 1) * 16 + col.val]
  rw [hbool, hparity, hlast, Nat.even_iff]
  omega

/-- The two verdicts are combined. -/
theorem checkAndRepair_eq_true_iff (v v' : DmrVbptc16_11 rows) :
    v.checkAndRepair = (true, v') ↔ 2 ≤ rows ∧ (repairRows v.matrix).2 = true ∧
      EvenColumns (repairRows v.matrix).1 ∧
        v' = { v with matrix := (repairRows v.matrix).1 } := by
  unfold checkAndRepair
  by_cases hrows : rows < 2
  · rw [dif_pos hrows]
    exact iff_of_false (by simp) (fun h => by omega)
  have hrows' : 2 ≤ rows := Nat.not_lt.mp hrows
  -- the loop over the columns compares parities, and looks for no position
  have hcolumns : ((List.finRange 16).all fun col => checkColumn (repairRows v.matrix).1 col =
      (repairRows v.matrix).1[(rows - 1) * 16 + col.val]) = true ↔
        EvenColumns (repairRows v.matrix).1 := by
    rw [List.all_eq_true]
    constructor
    · intro h col
      exact (checkColumn_iff hrows' _ col).mp (of_decide_eq_true (h col (List.mem_finRange col)))
    · intro h col _
      exact decide_eq_true ((checkColumn_iff hrows' _ col).mpr (h col))
  rw [dif_neg hrows]
  show (if ((List.finRange 16).all fun col => checkColumn (repairRows v.matrix).1 col =
      (repairRows v.matrix).1[(rows - 1) * 16 + col.val]) = true then _ else _) = _ ↔ _
  by_cases heven : EvenColumns (repairRows v.matrix).1
  · rw [if_pos (hcolumns.mpr heven), Prod.mk.injEq]
    constructor
    · rintro ⟨hres, rfl⟩
      exact ⟨hrows', hres, heven, rfl⟩
    · rintro ⟨-, hres, -, rfl⟩
      exact ⟨hres, rfl⟩
  · rw [if_neg (mt hcolumns.mp heven), Prod.mk.injEq]
    exact iff_of_false (fun h => Bool.false_ne_true h.1) fun h => heven h.2.2.1

/-- **What the check promises.** If it succeeds then all rows are codewords and all columns
even; no row has changed in more than one bit, and the last not at all. -/
theorem checkAndRepair_sound {v v' : DmrVbptc16_11 rows} (h : v.checkAndRepair = (true, v')) :
    CodeRows v'.matrix ∧ EvenColumns v'.matrix ∧
      (∀ row : Fin (rows - 1),
        hammingDist (fun i : Fin 16 => (rowBits v'.matrix (dataRow row))[i])
          (fun i => (rowBits v.matrix (dataRow row))[i]) ≤ 1) ∧
      ∀ row : Fin rows, row.val = rows - 1 → rowBits v'.matrix row = rowBits v.matrix row := by
  obtain ⟨-, hres, heven, rfl⟩ := (checkAndRepair_eq_true_iff v v').mp h
  obtain ⟨hflag, hrow⟩ := repairRows_spec v.matrix
  have hdata : ∀ row : Fin (rows - 1), rowBits (repairRows v.matrix).1 (dataRow row) =
      (repairBits (rowBits v.matrix (dataRow row))).1 := by
    intro row
    rw [hrow, if_pos (show (dataRow row).val < rows - 1 from row.isLt)]
  refine ⟨fun row => ?_, heven, fun row => ?_, fun row hlast => ?_⟩
  · have hcorrect := hflag.mp hres row
    rw [repairBits_snd, checkRow_iff] at hcorrect
    rw [hdata]
    exact hcorrect
  · rw [hdata]
    exact repairBits_distance _
  · rw [hrow, if_neg (by omega)]

/-- Three zero rows, received with one bit of the second set. -/
theorem checkAndRepair_sound_oneError :
    CodeRows (Vector.replicate (16 * 3) false) ∧ EvenColumns (Vector.replicate (16 * 3) false) ∧
      (∀ row : Fin (3 - 1),
        hammingDist (fun i : Fin 16 => (rowBits (Vector.replicate (16 * 3) false) (dataRow row))[i])
          (fun i => (rowBits (flipCell (Vector.replicate (16 * 3) false) 1 4) (dataRow row))[i]) ≤
            1) ∧
      ∀ row : Fin 3, row.val = 3 - 1 → rowBits (Vector.replicate (16 * 3) false) row =
        rowBits (flipCell (Vector.replicate (16 * 3) false) 1 4) row :=
  @checkAndRepair_sound 3 ⟨flipCell (Vector.replicate (16 * 3) false) 1 4, 0, 0⟩
    ⟨Vector.replicate (16 * 3) false, 0, 0⟩ rfl

/-- If the loop repairs the row with the error then it restores the matrix: the other rows are
correct as received. -/
theorem repairRows_flipCell {matrix : Vector Bool (16 * rows)} (hcode : CodeRows matrix)
    {row : Fin (rows - 1)} {col : Fin 16}
    (hrow : (repairBits (invert (rowBits matrix (dataRow row)) col)).1 =
      rowBits matrix (dataRow row)) :
    repairRows (flipCell matrix (dataRow row) col) = (matrix, true) := by
  obtain ⟨hflag, hrepaired⟩ := repairRows_spec (flipCell matrix (dataRow row) col)
  have hbits : ∀ r : Fin (rows - 1),
      (repairBits (rowBits (flipCell matrix (dataRow row) col) (dataRow r))).1 =
        rowBits matrix (dataRow r) := by
    intro r
    rw [rowBits_flipCell]
    split
    · next heq => rw [hrow, heq]
    · rw [repairBits_of_valid (hcode r)]
  have hmatrix : (repairRows (flipCell matrix (dataRow row) col)).1 = matrix := by
    refine matrix_eq_of_rowBits fun r => ?_
    rw [hrepaired]
    split
    · next hlt => exact hbits ⟨r.val, hlt⟩
    · next hlast =>
      rw [rowBits_flipCell, if_neg]
      rintro rfl
      exact hlast row.isLt
  refine Prod.ext hmatrix (hflag.mpr fun r => ?_)
  rw [repairBits_snd, hbits, checkRow_iff]
  exact hcode r

/-- **Repair of a single error.** An inverted bit of a correct matrix is repaired exactly when
the checksum of its row arrives as five zeros. -/
theorem checkAndRepair_flipCell_iff (v : DmrVbptc16_11 rows) (hcode : CodeRows v.matrix)
    (heven : EvenColumns v.matrix) (row : Fin (rows - 1)) (col : Fin 16) :
    ({ v with matrix := flipCell v.matrix (dataRow row) col } : DmrVbptc16_11 rows).checkAndRepair =
        (true, v) ↔
      ∀ x : Fin 5, (rowBits (flipCell v.matrix (dataRow row) col) (dataRow row))[11 + x.val] =
        false := by
  obtain ⟨-, hrepaired⟩ := repairRows_spec (flipCell v.matrix (dataRow row) col)
  have hself := rowBits_flipCell v.matrix (dataRow row) (dataRow row) col
  rw [if_pos rfl] at hself
  rw [checkAndRepair_eq_true_iff, hself, ← repairBits_invert_iff (hcode row)]
  constructor
  · rintro ⟨-, -, -, hv⟩
    have hmatrix : (repairRows (flipCell v.matrix (dataRow row) col)).1 = v.matrix :=
      (congrArg matrix hv).symm
    have hrow := hrepaired (dataRow row)
    rw [hmatrix, if_pos (show (dataRow row).val < rows - 1 from row.isLt), hself] at hrow
    exact hrow.symm
  · intro hrow
    have hrows : 2 ≤ rows := by
      have hlt := row.isLt
      omega
    rw [repairRows_flipCell hcode hrow]
    exact ⟨hrows, rfl, heven, rfl⟩

/-- A bit of a zero row. -/
theorem checkAndRepair_flipCell_iff_zeros :
    (⟨flipCell (Vector.replicate (16 * 2) false) (dataRow 0) 4, 0, 0⟩ :
      DmrVbptc16_11 2).checkAndRepair = (true, ⟨Vector.replicate (16 * 2) false, 0, 0⟩) ↔
      ∀ x : Fin 5, (rowBits (flipCell (Vector.replicate (16 * 2) false) (dataRow 0) 4)
        (dataRow 0))[11 + x.val] = false :=
  checkAndRepair_flipCell_iff ⟨Vector.replicate (16 * 2) false, 0, 0⟩
    (fun row => (checkRow_iff _).mp (by revert row; decide))
    (fun col => by revert col; decide) 0 4

/-- A row whose first bit is set, with its checksum. -/
def firstBitRow : Vector Bool 16 :=
  Vector.ofFn fun col => [0, 11, 14, 15].contains col.val

/-- Two such rows are a correct matrix. Without the first bit, the row does not point to it. -/
theorem not_checkAndRepair_flipCell :
    let v : DmrVbptc16_11 2 := ⟨(firstBitRow ++ firstBitRow : Vector Bool (16 + 16)), 0, 0⟩
    CodeRows v.matrix ∧ EvenColumns v.matrix ∧
      ({ v with matrix := flipCell v.matrix (dataRow 0) 0 } : DmrVbptc16_11 2).checkAndRepair ≠
        (true, v) := by
  intro v
  refine ⟨fun row => (checkRow_iff _).mp ?_, fun col => ?_, fun h => ?_⟩
  · revert row
    decide
  · revert col
    decide
  · exact absurd (congrArg Prod.fst h) (by decide +kernel)

end DmrVbptc16_11

end Dmrlib
