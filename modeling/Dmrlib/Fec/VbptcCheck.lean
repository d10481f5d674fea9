import Dmrlib.Fec.Vbptc1611

/-!
# Checking a variable length BPTC

The checker recomputes the parity of each column as a sum modulo two. The encoder adds
the bits up in a `bool`, which stays set once it is set. The two differ for a column with
two, four or more set bits.

- `columnOnes`: the number of set bits of a column.
- `ParityAgrees`: each column has an odd number of set bits, or none.
- `checkAndRepair_encode_iff`: the checker accepts what the encoder has made exactly then.
-/

namespace Dmrlib

namespace DmrVbptc16_11

open Loop

variable {rows len : Nat} (bits : Vector Bool len)

/-- The number of set bits in a column of the coded message. -/
def columnOnes (rows : Nat) (c : Nat) : Nat :=
  (List.range (rows - 1)).countP fun r => codedCell bits r c

/-! ## The rows -/

/-- A row passes the check when its last cells are the checksum of the others. -/
theorem checkRow_rowBits {matrix : Vector Bool (16 * rows)} (row : Fin rows)
    (h : ∀ c < 16, cell matrix row.val c = codedCell bits row.val c) :
    checkRow (rowBits matrix row) = true := by
  have hparity := parityBits_rowBits bits row fun c hc => by
    rw [h c (by omega), codedCell, if_pos hc]
  rw [checkRow, List.all_eq_true]
  intro offset _
  have hcell := h (11 + offset.val) (by omega)
  rw [cell_eq _ row.isLt (by omega), codedCell, if_neg (by omega), Nat.add_sub_cancel_left,
    List.getD_eq_getElem _ _ (by rw [Vector.length_toList]; exact offset.isLt),
    Vector.getElem_toList] at hcell
  have hbit : (rowBits matrix row)[11 + offset.val] =
      (parityBits (messageRow bits row.val))[offset.val] := by
    rw [rowBits, Vector.getElem_ofFn]
    exact hcell
  rw [hparity, hbit, decide_eq_true_eq]
  exact Bool.xor_self _

/-- Nothing is repaired in an encoded matrix. -/
theorem repairRow_encoded {v : DmrVbptc16_11 rows} (h : Encoded bits v) :
    forLoop (rows - 1) repairRow (v.matrix, true) = (v.matrix, true) := by
  refine forLoop_inv (fun _ s => s = (v.matrix, true)) rfl ?_
  rintro row _ rfl
  have hrow := checkRow_rowBits bits ⟨row.val, by omega⟩ (h.coded row.val row.isLt)
  unfold repairRow
  simp only [hrow, if_true]

/-! ## The columns -/

/-- The number of set bits in the first `k` cells of a column. -/
def ones (matrix : Vector Bool (16 * rows)) (k c : Nat) : Nat :=
  (List.range k).countP fun r => cell matrix r c

theorem ones_succ (matrix : Vector Bool (16 * rows)) (k c : Nat) :
    ones matrix (k + 1) c = ones matrix k c + (cell matrix k c).toNat := by
  rw [ones, List.range_succ, List.countP_append, List.countP_singleton, ones]
  cases cell matrix k c <;> rfl

/-- The checker counts modulo two. -/
theorem toNat_checkColumn (matrix : Vector Bool (16 * rows)) (col : Fin 16) :
    (checkColumn matrix col).toNat = ones matrix (rows - 1) col.val % 2 := by
  -- the loop keeps the sum of the rows so far modulo two
  refine forLoop_inv (fun k (parity : Bool) => parity.toNat = ones matrix k col.val % 2) rfl ?_
  intro row parity hparity
  have hsum : ∀ n : Nat, (cBool (n % 2)).toNat = n % 2 := by
    intro n
    obtain hn | hn := Nat.mod_two_eq_zero_or_one n <;> rw [hn] <;> rfl
  rw [hsum, hparity, ones_succ, cell_eq _ (by omega) col.isLt]
  omega

/-- In an encoded matrix the cells are those of the coded message. -/
theorem checkColumn_encoded {v : DmrVbptc16_11 rows} (h : Encoded bits v) (col : Fin 16) :
    checkColumn v.matrix col = true ↔ columnOnes bits rows col.val % 2 = 1 := by
  have hval : ∀ b : Bool, b = true ↔ b.toNat = 1 := by decide
  have hones : ones v.matrix (rows - 1) col.val = columnOnes bits rows col.val := by
    refine List.countP_congr fun r hr => ?_
    rw [h.coded r (List.mem_range.mp hr) col.val col.isLt]
  rw [hval, toNat_checkColumn, hones]

/-- The encoder finds out whether there are any. -/
theorem exists_codedCell_iff (c : Nat) :
    (∃ r < rows - 1, codedCell bits r c = true) ↔ columnOnes bits rows c ≠ 0 := by
  rw [columnOnes, ← Nat.pos_iff_ne_zero, List.countP_pos_iff]
  simp only [List.mem_range]

/-- No column of the coded message has a set bit that its parity hides. -/
def ParityAgrees (rows : Nat) : Prop :=
  ∀ col : Fin 16, columnOnes bits rows col = 0 ∨ columnOnes bits rows col % 2 = 1

instance (rows : Nat) : Decidable (ParityAgrees bits rows) :=
  inferInstanceAs (Decidable (∀ col : Fin 16,
    columnOnes bits rows col = 0 ∨ columnOnes bits rows col % 2 = 1))

/-- An encoded matrix is left alone, and passes the check column by column. -/
theorem checkAndRepair_encoded {v : DmrVbptc16_11 rows} (hrows : 2 ≤ rows) (h : Encoded bits v) :
    checkAndRepair v = (decide (ParityAgrees bits rows), v) := by
  -- the stored parity is the logical or, so the two agree on no bit and on an odd number
  have hcolumn : ∀ col : Fin 16, checkColumn v.matrix col = v.matrix[(rows - 1) * 16 + col.val] ↔
      (columnOnes bits rows col.val = 0 ∨ columnOnes bits rows col.val % 2 = 1) := by
    intro col
    have hxor := checkColumn_encoded bits h col
    have hor := h.parity col.val col.isLt
    rw [exists_codedCell_iff, cell_eq _ (by omega) col.isLt] at hor
    rw [Bool.eq_iff_iff, hxor, hor]
    omega
  have hall : ((List.finRange 16).all fun col =>
      checkColumn v.matrix col = v.matrix[(rows - 1) * 16 + col.val]) =
      decide (ParityAgrees bits rows) := by
    rw [Bool.eq_iff_iff, List.all_eq_true, decide_eq_true_eq]
    constructor
    · intro hcols col
      exact (hcolumn col).mp (of_decide_eq_true (hcols col (List.mem_finRange _)))
    · intro hagrees col _
      exact decide_eq_true ((hcolumn col).mpr (hagrees col))
  unfold checkAndRepair
  rw [dif_neg (by omega)]
  simp only [repairRow_encoded bits h, hall]
  by_cases hagrees : ParityAgrees bits rows
  · simp only [hagrees, decide_true, if_true]
  · simp only [hagrees, decide_false, Bool.false_eq_true, if_false]

/-- **Encoder and checker.** They agree exactly on the messages whose coded rows have no
set bit or an odd number of them in every column. -/
theorem checkAndRepair_encode_iff (v : DmrVbptc16_11 rows) {fuel : Nat} (hrows : 2 ≤ rows)
    (hrows' : rows < 256) (hpos : 1 ≤ len) (hlen : len ≤ min (11 * (rows - 1)) 255)
    (hfuel : 256 ≤ fuel) :
    (∃ v', encode fuel v bits = some (0, v') ∧ checkAndRepair v' = (true, v')) ↔
      ParityAgrees bits rows := by
  obtain ⟨v', hencode, hencoded⟩ := encode_spec bits v hpos (show len < 256 by omega)
    (show len ≤ 11 * (rows - 1) by omega) hrows' hfuel
  have hcheck := checkAndRepair_encoded bits hrows hencoded
  constructor
  · rintro ⟨v'', hv'', hpass⟩
    rw [hencode, Option.some.injEq, Prod.mk.injEq] at hv''
    obtain ⟨-, rfl⟩ := hv''
    rw [hcheck, Prod.mk.injEq] at hpass
    exact of_decide_eq_true hpass.1
  · intro hagrees
    exact ⟨v', hencode, by rw [hcheck, decide_eq_true hagrees]⟩

/-- A set bit in one data row. -/
theorem checkAndRepair_encode_iff_oneRow :
    (∃ v', encode 256 (⟨Vector.replicate _ false, 0, 0⟩ : DmrVbptc16_11 2)
        #v[true, false, true] = some (0, v') ∧ checkAndRepair v' = (true, v')) ↔
      ParityAgrees #v[true, false, true] 2 :=
  checkAndRepair_encode_iff _ _ (by decide) (by decide) (by decide) (by decide) (by decide)

/-- Twelve set bits fill a row and begin the next; the first column has two. -/
theorem not_checkAndRepair_encode_twoRows :
    ¬ ∃ v', encode 256 (⟨Vector.replicate _ false, 0, 0⟩ : DmrVbptc16_11 3)
        (Vector.replicate 12 true) = some (0, v') ∧ checkAndRepair v' = (true, v') := by
  obtain ⟨v', hencode, hencoded⟩ := encode_spec (Vector.replicate 12 true)
    (⟨Vector.replicate _ false, 0, 0⟩ : DmrVbptc16_11 3) (show 0 < 12 by decide) (by decide)
    (by decide) (by decide) (le_refl 256)
  rintro ⟨v'', hv'', hpass⟩
  rw [hencode, Option.some.injEq, Prod.mk.injEq] at hv''
  obtain ⟨-, rfl⟩ := hv''
  rw [checkAndRepair_encoded _ (by decide) hencoded, Prod.mk.injEq] at hpass
  exact absurd (of_decide_eq_true hpass.1) (by decide)

end DmrVbptc16_11

end Dmrlib
