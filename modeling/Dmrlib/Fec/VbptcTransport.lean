import Dmrlib.Fec.Vbptc1611

/-!
# Sending a variable length BPTC in fragments

`get_fragment` reads the matrix down its columns, from an offset; `add` writes down the
columns, behind what was added before. Both go through the cells in the order of
`transmitted`, so however the matrix is cut into fragments, the receiver puts it together
again, and decodes the message.

- `transmitted`: the order in which the cells are sent.
- `Reading`, `Received`: sender and receiver after a number of bits.
- `transfer`: the fragments of given lengths, read and added one after another.
- `transfer_encode`: whatever the fragments, the receiver decodes the message that was encoded.
-/

namespace Dmrlib

namespace DmrVbptc16_11

open Loop

variable {rows : Nat}

/-! ## The order of transmission -/

/-- The bit that is sent at position `p`. -/
def transmitted (matrix : Vector Bool (16 * rows)) (p : Nat) : Bool :=
  cell matrix (p % rows) (p / rows)

/-- Positions are numbered down the columns. -/
theorem transmitted_eq (matrix : Vector Bool (16 * rows)) {r : Nat} (hr : r < rows) (c : Nat) :
    transmitted matrix (c * rows + r) = cell matrix r c := by
  obtain ⟨hdiv, hmod⟩ : (c * rows + r) / rows = c ∧ (c * rows + r) % rows = r := by
    rw [Nat.div_mod_unique (by omega), Nat.mul_comm rows c]
    exact ⟨Nat.add_comm _ _, hr⟩
  rw [transmitted, hdiv, hmod]

/-- A position lies in the matrix. -/
theorem div_lt_sixteen {p : Nat} (hp : p < 16 * rows) : p / rows < 16 :=
  Nat.div_lt_of_lt_mul (by rwa [Nat.mul_comm])

theorem transmitted_set (matrix : Vector Bool (16 * rows)) (bit : Bool) {k p : Nat}
    (hk : k < 16 * rows) (hp : p < 16 * rows) (h : k / rows + k % rows * 16 < 16 * rows) :
    transmitted (matrix.set (k / rows + k % rows * 16) bit) p =
      if p = k then bit else transmitted matrix p := by
  have hrows : 0 < rows := by omega
  have hset := cell_set matrix bit (r := p % rows) (Nat.mod_lt k hrows) (div_lt_sixteen hp)
    (div_lt_sixteen hk)
  have hsame : (p % rows = k % rows ∧ p / rows = k / rows) ↔ p = k := by
    constructor
    · rintro ⟨hmod, hdiv⟩
      rw [← Nat.div_add_mod p rows, ← Nat.div_add_mod k rows, hmod, hdiv]
    · rintro rfl
      exact ⟨rfl, rfl⟩
  simp only [hsame] at hset
  simp only [transmitted, Nat.add_comm (k / rows)]
  exact hset

/-- The cursor that stands at position `k` moves to the next. -/
theorem div_mod_succ (hrows : 0 < rows) (k : Nat) :
    if k % rows + 1 = rows then (k + 1) / rows = k / rows + 1 ∧ (k + 1) % rows = 0
    else (k + 1) / rows = k / rows ∧ (k + 1) % rows = k % rows + 1 := by
  have hk := Nat.div_add_mod k rows
  have hlt := Nat.mod_lt k hrows
  split
  · rename_i hend
    rw [Nat.div_mod_unique hrows, Nat.mul_succ]
    omega
  · rw [Nat.div_mod_unique hrows]
    omega

/-! ## The receiver -/

/-- The receiver has got the first `k` bits of `src`, and the rest of its matrix is as it
was. -/
structure Received (src old : Nat → Bool) (k : Nat) (w : DmrVbptc16_11 rows) : Prop where
  row : w.row = k % rows
  col : w.col = k / rows
  bits : ∀ p < 16 * rows, transmitted w.matrix p = if p < k then src p else old p

section Receiver

variable {src old : Nat → Bool} {k : Nat} {w : DmrVbptc16_11 rows}

theorem received_wipe (src : Nat → Bool) (hrows : 0 < rows) (w : DmrVbptc16_11 rows) :
    Received src (fun _ => false) 0 w.wipe where
  row := (Nat.zero_mod rows).symm
  col := (Nat.zero_div rows).symm
  bits p hp := by
    rw [if_neg (Nat.not_lt_zero p), transmitted,
      cell_eq _ (Nat.mod_lt p hrows) (div_lt_sixteen hp)]
    exact Vector.getElem_replicate _

/-- The free space is what has not been received. -/
theorem Received.matrixFree_eq (h : Received src old k w) (hk : k ≤ 16 * rows)
    (hrows : rows < 256) : w.matrixFree = 16 * rows - k := by
  have hcursor : w.col * rows + w.row = k := by
    rw [h.row, h.col]
    exact Nat.div_add_mod' k rows
  rw [matrixFree, hcursor]
  omega

theorem Received.addBit {bit : Bool} (h : Received src old k w) (hk : k < 16 * rows)
    (hbit : bit = src k) : ∃ w', w.addBit bit = some w' ∧ Received src old (k + 1) w' := by
  have hrows : 0 < rows := by omega
  have hrow := Nat.mod_lt k hrows
  have hcol := div_lt_sixteen hk
  have hidx : k / rows + k % rows * 16 < 16 * rows := by omega
  have hnext := div_mod_succ hrows k
  have hbits : ∀ p < 16 * rows,
      transmitted (w.matrix.set (k / rows + k % rows * 16) bit) p =
        if p < k + 1 then src p else old p := by
    intro p hp
    rw [transmitted_set _ _ hk hp hidx, h.bits p hp]
    by_cases hpk : p = k
    · rw [if_pos hpk, if_pos (by omega), hpk, hbit]
    · have hiff : p < k + 1 ↔ p < k := by omega
      simp only [if_neg hpk, hiff]
  obtain ⟨matrix, row, col⟩ := w
  obtain rfl : row = k % rows := h.row
  obtain rfl : col = k / rows := h.col
  unfold DmrVbptc16_11.addBit
  rw [store, dif_pos hidx]
  -- at the end of a column the cursor moves to the next one
  by_cases hend : k % rows + 1 = rows
  · rw [if_pos hend] at hnext
    refine ⟨⟨matrix.set (k / rows + k % rows * 16) bit, 0, k / rows + 1⟩, ?_, ?_, ?_, hbits⟩
    · simp [hend]
    · exact hnext.2.symm
    · exact hnext.1.symm
  · rw [if_neg hend] at hnext
    refine ⟨⟨matrix.set (k / rows + k % rows * 16) bit, k % rows + 1, k / rows⟩, ?_, ?_, ?_,
      hbits⟩
    · simp [hend]
    · exact hnext.2.symm
    · exact hnext.1.symm

/-- The first bits of a fragment are received, as many as the counter says. -/
theorem Received.add_first {len stored : Nat} {bits : Vector Bool len}
    (h : Received src old k w) (hk : k < 16 * rows) (hrows : rows < 256)
    (hstored : min len (16 * rows - k) % 256 = stored)
    (hbits : ∀ i (hi : i < len), i < stored → bits[i] = src (k + i)) :
    ∃ w', w.add bits = some (0, w') ∧ Received src old (k + stored) w' := by
  have hspace := h.matrixFree_eq hk.le hrows
  have hbitlen : min len w.matrixFree % 256 = stored := by rwa [hspace]
  have hle := Nat.mod_le (min len w.matrixFree) 256
  obtain ⟨w', hloop, hw'⟩ := tryLoop_inv (n := min len w.matrixFree % 256)
    (f := fun i w => w.addBit bits[i])
    (fun i w' => Received src old (k + i) w') h
    (fun i w' hw' => hw'.addBit (by omega) (hbits i.val (by omega) (by omega)))
  refine ⟨w', ?_, by rwa [hbitlen] at hw'⟩
  unfold DmrVbptc16_11.add
  simp only
  rw [if_neg (by omega)]
  exact congrArg (Option.map fun v => ((0 : Int), v)) hloop

/-- A fragment that fits, and that the counter can count, is received as a whole. -/
theorem Received.add {len : Nat} {bits : Vector Bool len} (h : Received src old k w)
    (hrows : rows < 256) (hpos : 0 < len) (hlen : len < 256) (hroom : k + len ≤ 16 * rows)
    (hbits : ∀ i (hi : i < len), bits[i] = src (k + i)) :
    ∃ w', w.add bits = some (0, w') ∧ Received src old (k + len) w' :=
  h.add_first (by omega) hrows (by omega) fun i hi _ => hbits i hi

/-- A full receiver takes no more. -/
theorem Received.add_full {len : Nat} (h : Received src old (16 * rows) w) (hrows : rows < 256)
    (bits : Vector Bool len) : w.add bits = some (-1, w) := by
  have hspace := h.matrixFree_eq (le_refl _) hrows
  unfold DmrVbptc16_11.add
  simp only
  rw [if_pos (by omega)]

end Receiver

/-! ## The sender -/

/-- After `k` rounds, `offset` cells have been skipped and those behind them read. -/
structure Reading {len : Nat} (v : DmrVbptc16_11 rows) (offset k : Nat)
    (s : Nat × Nat × Vector Bool len) : Prop where
  pos : s.2.1 = min (k - offset) len
  skip : s.2.1 < len → s.1 = offset - k
  bits : ∀ i (hi : i < len), i < s.2.1 → s.2.2[i] = transmitted v.matrix (offset + i)

theorem Reading.readCell {len offset k : Nat} {v : DmrVbptc16_11 rows}
    {s : Nat × Nat × Vector Bool len} (h : Reading v offset k s) (hlen : len ≤ 16 * rows)
    {col : Fin 16} {row : Fin rows} (hk : k = col.val * rows + row.val) :
    Reading v offset (k + 1) (v.readCell col row s) := by
  obtain ⟨skip, pos, out⟩ := s
  obtain ⟨hpos, hskip, hout⟩ := h
  simp only at hpos hskip hout
  unfold DmrVbptc16_11.readCell
  simp only
  by_cases hmore : pos < min (rows * 16) len
  · rw [dif_pos hmore]
    have hleft := hskip (by omega)
    by_cases hstart : skip = 0
    · rw [if_pos hstart]
      -- past the offset: this is the next bit of the fragment
      refine ⟨?_, fun _ => ?_, fun i hi hlast => ?_⟩
      · show pos + 1 = _
        omega
      · show 0 = _
        omega
      · have hlast : i < pos + 1 := hlast
        show (out.set pos _)[i] = _
        by_cases hnew : i = pos
        · have hlin : offset + i = col.val * rows + row.val := by omega
          subst hnew
          rw [Vector.getElem_set_self, hlin, transmitted_eq _ row.isLt,
            cell_eq _ row.isLt col.isLt]
        · rw [Vector.getElem_set_ne _ _ (Ne.symm hnew)]
          exact hout i hi (by omega)
    · rw [if_neg hstart]
      refine ⟨?_, fun _ => ?_, hout⟩
      · show pos = _
        omega
      · show skip - 1 = _
        omega
  · rw [dif_neg hmore]
    refine ⟨?_, fun hlt => ?_, hout⟩
    · show pos = _
      omega
    · have hlt : pos < len := hlt
      omega

/-- A fragment that lies in the matrix is read as a whole. -/
theorem getFragment_spec {len offset : Nat} (v : DmrVbptc16_11 rows) (bits : Vector Bool len)
    (hroom : offset + len ≤ 16 * rows) :
    ∃ out : Vector Bool len, v.getFragment offset bits = (0, out) ∧
      ∀ i (hi : i < len), out[i] = transmitted v.matrix (offset + i) := by
  have hstart : Reading v offset 0 (offset, 0, bits) := by
    refine ⟨?_, fun _ => rfl, fun i _ hi => absurd hi (Nat.not_lt_zero i)⟩
    show 0 = min (0 - offset) len
    omega
  have key := forLoop_nested (f := fun col row s => v.readCell col row s) (Reading v offset) hstart
    fun col row s hs => hs.readCell (by omega) rfl
  have hpos := key.pos
  exact ⟨_, rfl, fun i hi => key.bits i hi (by omega)⟩

/-- The fragments of `v`, from `offset` on, read one after the other and added to `w`: what
the additions return, and the receiver in the end. -/
def transfer (v : DmrVbptc16_11 rows) :
    (offset : Nat) → DmrVbptc16_11 rows → List Nat → Option (List Int × DmrVbptc16_11 rows)
  | _, w, [] => some ([], w)
  | offset, w, len :: lens => do
    let (_, bits) := v.getFragment offset (Vector.replicate len false)
    let (ret, w) ← w.add bits
    let (rets, w) ← transfer v (offset + len) w lens
    return (ret :: rets, w)

/-- Fragment after fragment, the receiver gets all bits. -/
theorem transfer_spec (v : DmrVbptc16_11 rows) {old : Nat → Bool} (hrows : rows < 256)
    {lens : List Nat} (hlens : ∀ len ∈ lens, 1 ≤ len ∧ len ≤ 255) {offset : Nat}
    {w : DmrVbptc16_11 rows} (h : Received (transmitted v.matrix) old offset w)
    (hsum : offset + lens.sum = 16 * rows) :
    ∃ w', transfer v offset w lens = some (List.replicate lens.length 0, w') ∧
      Received (transmitted v.matrix) old (16 * rows) w' := by
  induction lens generalizing offset w with
  | nil =>
    rw [List.sum_nil, Nat.add_zero] at hsum
    exact ⟨w, rfl, hsum ▸ h⟩
  | cons len lens ih =>
    rw [List.sum_cons] at hsum
    obtain ⟨hmin, hmax⟩ := hlens len List.mem_cons_self
    -- each fragment is what is transmitted next
    obtain ⟨bits, hget, hbits⟩ := getFragment_spec v (Vector.replicate len false)
      (show offset + len ≤ 16 * rows by omega)
    obtain ⟨w', hadd, hw'⟩ := h.add hrows hmin (by omega) (by omega) hbits
    obtain ⟨w'', hrest, hw''⟩ := ih (fun l hl => hlens l (List.mem_cons_of_mem _ hl)) hw'
      (by omega)
    refine ⟨w'', ?_, hw''⟩
    rw [transfer, hget]
    simp only [hadd, hrest, Option.bind_eq_bind, Option.bind_some, Option.pure_def,
      List.length_cons, List.replicate_succ]

/-- Received as a whole, the matrix is that of the sender. -/
theorem Received.matrix_eq {v w : DmrVbptc16_11 rows} {old : Nat → Bool}
    (h : Received (transmitted v.matrix) old (16 * rows) w) : w.matrix = v.matrix := by
  refine matrix_ext fun r hr c hc => ?_
  have hp : c * rows + r < 16 * rows := by
    have := Nat.mul_le_mul_right rows (show c + 1 ≤ 16 by omega)
    rw [Nat.succ_mul] at this
    omega
  rw [← transmitted_eq _ hr, ← transmitted_eq _ hr, h.bits _ hp, if_pos hp]

/-! ## The message -/

/-- Decoding an encoded matrix yields the message. -/
theorem decode_encoded {len : Nat} {bits : Vector Bool len} {v : DmrVbptc16_11 rows}
    (hrows : 0 < rows) (hroom : len ≤ 11 * (rows - 1)) (h : Encoded bits v)
    (out : Vector Bool len) : v.decode out = (0, bits) := by
  have key := forLoop_nested (s := out)
    (f := fun (row : Fin (rows - 1)) (col : Fin 11) (out : Vector Bool len) =>
      if h : row.val * 11 + col.val < len then
        out.set (row.val * 11 + col.val) v.matrix[row.val * 16 + col.val]
      else out)
    (fun k out => ∀ i (hi : i < len), i < k → out[i] = bits[i])
    (fun i _ hi => absurd hi (Nat.not_lt_zero i))
    (by
      intro row col out hout i hi hlast
      split
      · rename_i hin
        by_cases hnew : i = row.val * 11 + col.val
        · subst hnew
          have hcell := h.coded row.val row.isLt col.val (by omega)
          rw [cell_eq _ (by omega) (by omega), codedCell, if_pos col.isLt, messageBit,
            dif_pos hin] at hcell
          rw [Vector.getElem_set_self, hcell]
        · rw [Vector.getElem_set_ne _ _ (Ne.symm hnew)]
          exact hout i hi (by omega)
      · exact hout i hi (by omega))
  rw [decode, if_neg (by omega)]
  exact congrArg (Prod.mk (0 : Int)) (Vector.ext fun i hi => key i hi (by omega))

/-- **Embedded link control.** However an encoded matrix is cut into fragments, a wiped
receiver takes each of them, ends up with the matrix, decodes the message, and is full. -/
theorem transfer_encode {len : Nat} (v w : DmrVbptc16_11 rows) (bits : Vector Bool len)
    {fuel : Nat} (hrows : 2 ≤ rows ∧ rows ≤ 255) (hlen : 1 ≤ len ∧ len ≤ min (11 * (rows - 1)) 255)
    (hfuel : 256 ≤ fuel) {lens : List Nat} (hlens : ∀ l ∈ lens, 1 ≤ l ∧ l ≤ 255)
    (hsum : lens.sum = 16 * rows) :
    ∃ v' w', v.encode fuel bits = some (0, v') ∧
      transfer v' 0 w.wipe lens = some (List.replicate lens.length 0, w') ∧
      w'.matrix = v'.matrix ∧
      (∀ out : Vector Bool len, w'.decode out = (0, bits)) ∧
      ∀ (more : Nat) (bits' : Vector Bool more), w'.add bits' = some (-1, w') := by
  obtain ⟨v', hencode, hencoded⟩ := encode_spec bits v hlen.1 (show len < 256 by omega)
    (show len ≤ 11 * (rows - 1) by omega) (show rows < 256 by omega) hfuel
  obtain ⟨w', htransfer, hw'⟩ := transfer_spec v' (show rows < 256 by omega) hlens
    (received_wipe (transmitted v'.matrix) (by omega) w) (by rw [Nat.zero_add, hsum])
  have hmatrix := hw'.matrix_eq
  have hencoded' : Encoded bits w' := by
    refine ⟨?_, ?_⟩
    · rw [hmatrix]
      exact hencoded.coded
    · rw [hmatrix]
      exact hencoded.parity
  refine ⟨v', w', hencode, htransfer, hmatrix, ?_, ?_⟩
  · exact decode_encoded (by omega) (by omega) hencoded'
  · exact fun more bits' => hw'.add_full (by omega) bits'

/-- Eight bits in two rows, sent in fragments of 1, 30 and 1 bits. -/
theorem transfer_encode_twoRows :
    ∃ v' w' : DmrVbptc16_11 2,
      (⟨Vector.replicate _ true, 0, 0⟩ : DmrVbptc16_11 2).encode 256
        #v[true, false, true, true, false, false, true, false] = some (0, v') ∧
      transfer v' 0 (⟨Vector.replicate _ true, 1, 7⟩ : DmrVbptc16_11 2).wipe [1, 30, 1] =
        some (List.replicate [1, 30, 1].length 0, w') ∧
      w'.matrix = v'.matrix ∧
      (∀ out, w'.decode out = (0, #v[true, false, true, true, false, false, true, false])) ∧
      ∀ (more : Nat) (bits' : Vector Bool more), w'.add bits' = some (-1, w') :=
  transfer_encode _ _ _ (by decide) (by decide) (le_refl 256) (by decide) (by decide)

end DmrVbptc16_11

end Dmrlib
