import Dmrlib.Lib.Run
import Dmrlib.Fec.VbptcTransport

/-!
# How many bits a variable length BPTC takes

Both loops that fill the matrix count in a `uint8_t`, and both take the number of free cells
for their bound. `encode` compares the counter with a `size_t`, so a bound of 256 is never
reached; and as it uses eleven of the sixteen cells of a row, the cursor is behind the last
row before it has met the bound. `add` keeps the bound itself in a `uint8_t`.

- `EncodeEnds`, `encodeEnds_iff`: the lengths and heights for which `encode` comes to an end
  inside the matrix.
- `CursorAt`: the cursor after a number of bits; each cursor is that of one number
  (`CursorAt.unique`).
- `Reached`: a matrix that calls of `add` have led to.
- `AddsAll`, `addsAll_iff`: the messages of which `add` takes every bit.
-/

namespace Dmrlib

namespace DmrVbptc16_11

open Run

variable {rows len : Nat}

/-! ## The encoder -/

section Encode

variable (bits : Vector Bool len)

/-- A bound that the counter does not meet in time takes the cursor out of the matrix, unless
there is no end of rounds before. -/
theorem encodeBits_eq_none {bitlen : Fin (len + 1)}
    (hbound : ∀ i ≤ 11 * rows, i % 256 < bitlen.val) {fuel i : Nat} {v : DmrVbptc16_11 rows}
    (hrow : v.row = i / 11) (hcol : v.col = i % 11) (hi : i ≤ 11 * rows) :
    encodeBits bits bitlen fuel (i % 256) v = none := by
  induction fuel generalizing i v with
  | zero => rfl
  | succ fuel ih =>
    rw [encodeBits, dif_pos (hbound i hi)]
    obtain hlt | rfl := Nat.lt_or_eq_of_le hi
    · have hidx : v.col + v.row * 16 < 16 * rows := by omega
      have hnext : ((i % 256) + 1) % 256 = (i + 1) % 256 := Nat.mod_add_mod i 256 1
      unfold encodeBit
      rw [store, dif_pos hidx, hnext]
      simp only [Option.bind_eq_bind, Option.bind_some, Option.pure_def]
      by_cases hend : v.col + 1 = 11
      · rw [if_pos hend]
        refine ih ?_ ?_ hlt
        · show v.row + 1 = (i + 1) / 11
          omega
        · show 0 = (i + 1) % 11
          omega
      · rw [if_neg hend]
        refine ih ?_ ?_ hlt
        · show v.row = (i + 1) / 11
          omega
        · show v.col + 1 = (i + 1) % 11
          omega
    · -- the cursor stands behind the last row
      have hout : ¬ v.col + v.row * 16 < 16 * rows := by omega
      unfold encodeBit
      rw [store, dif_neg hout]
      rfl

theorem matrixFree_wipe (hrows : rows < 256) (v : DmrVbptc16_11 rows) :
    v.wipe.matrixFree = 16 * rows := by
  have hzero : v.wipe.matrixFree = (2 ^ 64 + rows * 16 - (0 * rows + 0)) % 2 ^ 64 := rfl
  rw [hzero]
  omega

/-- The encoder succeeds if its first loop does: the others stay in the matrix. -/
theorem encode_isSome_iff (v : DmrVbptc16_11 rows) (fuel : Nat) (hrows : 0 < rows)
    (hlen : 0 < len) :
    (∃ out, encode fuel v bits = some out) ↔
      ∃ v', encodeBits bits ⟨min len v.wipe.matrixFree, Nat.lt_succ_of_le (Nat.min_le_left _ _)⟩
        fuel 0 v.wipe = some v' := by
  unfold encode
  rw [if_neg (by omega), dif_neg (by omega)]
  constructor
  · rintro ⟨out, hout⟩
    obtain ⟨v', hv', -⟩ := Option.bind_eq_some_iff.mp hout
    exact ⟨v', hv'⟩
  · rintro ⟨v', hv'⟩
    exact ⟨_, Option.bind_eq_some_iff.mpr ⟨v', hv', rfl⟩⟩

/-- The encoder comes to an end, inside the matrix. -/
def EncodeEnds (v : DmrVbptc16_11 rows) : Prop := ∃ fuel out, encode fuel v bits = some out

theorem not_encodeEnds (v : DmrVbptc16_11 rows) (hrows : 0 < rows) (hrows' : rows < 256)
    (hlen : min 255 (11 * rows) < len) : ¬ EncodeEnds bits v := by
  rintro ⟨fuel, hout⟩
  rw [encode_isSome_iff bits v fuel hrows (by omega)] at hout
  obtain ⟨v', hv'⟩ := hout
  have hfree := matrixFree_wipe hrows' v
  have hbound : ∀ i ≤ 11 * rows, i % 256 < min len v.wipe.matrixFree := by
    intro i hi
    omega
  have hnone : encodeBits bits ⟨min len v.wipe.matrixFree, by omega⟩ fuel (0 % 256) v.wipe = none :=
    encodeBits_eq_none bits hbound rfl rfl (Nat.zero_le _)
  cases hnone.symm.trans hv'

/-- **The end of the encoder.** It comes to an end, and stores inside the matrix, exactly for
messages that the counter can count and that fit into eleven bits a row. -/
theorem encodeEnds_iff (v : DmrVbptc16_11 rows) (hrows : 1 ≤ rows ∧ rows ≤ 255) (hlen : 1 ≤ len) :
    EncodeEnds bits v ↔ len ≤ 255 ∧ len ≤ 11 * rows := by
  constructor
  · intro hends
    by_contra hlong
    exact not_encodeEnds bits v (by omega) (by omega) (by omega) hends
  · rintro ⟨hcount, hroom⟩
    have hfree : min len v.wipe.matrixFree = len := by
      rw [matrixFree_wipe (by omega)]
      omega
    obtain ⟨v', hv', -⟩ := encodeBits_spec bits (show len < 256 by omega) hroom
      ⟨min len v.wipe.matrixFree, by omega⟩ hfree (filled_wipe bits v) (Nat.zero_le len)
      (show len < 0 + 256 by omega)
    exact ⟨256, (encode_isSome_iff bits v 256 (by omega) hlen).mpr ⟨v', hv'⟩⟩

end Encode

theorem encodeEnds_iff_oneRow :
    EncodeEnds (Vector.replicate 11 true) (⟨Vector.replicate _ false, 0, 0⟩ : DmrVbptc16_11 1) ↔
      11 ≤ 255 ∧ 11 ≤ 11 * 1 :=
  encodeEnds_iff _ _ (by decide) (by decide)

/-- In eight rows there is no room for 89 bits. -/
theorem not_encodeEnds_eightRows :
    ¬ EncodeEnds (Vector.replicate 89 true)
      (⟨Vector.replicate _ false, 0, 0⟩ : DmrVbptc16_11 8) :=
  not_encodeEnds _ _ (by decide) (by decide) (by decide)

/-! ## Adding -/

/-- The cursor stands at position `k`, in the order of transmission. -/
structure CursorAt (v : DmrVbptc16_11 rows) (k : Nat) : Prop where
  row : v.row = k % rows
  col : v.col = k / rows

theorem CursorAt.unique {v : DmrVbptc16_11 rows} {k k' : Nat} (h : CursorAt v k)
    (h' : CursorAt v k') : k = k' := by
  rw [← Nat.div_add_mod k rows, ← Nat.div_add_mod k' rows, ← h.row, ← h'.row, ← h.col, ← h'.col]

/-- What an addition at position `k` brings. -/
def expectedBit (v : DmrVbptc16_11 rows) (bits : Vector Bool len) (k p : Nat) : Bool :=
  if p < k then transmitted v.matrix p else messageBit bits (p - k)

theorem received_of_cursorAt {v : DmrVbptc16_11 rows} {k : Nat} (h : CursorAt v k)
    (bits : Vector Bool len) :
    Received (expectedBit v bits k) (transmitted v.matrix) k v where
  row := h.row
  col := h.col
  bits p _ := by
    split
    · next hlt => exact (if_pos hlt).symm
    · rfl

theorem CursorAt.matrixFree_eq {v : DmrVbptc16_11 rows} {k : Nat} (h : CursorAt v k)
    (hk : k ≤ 16 * rows) (hrows : rows < 256) : v.matrixFree = 16 * rows - k :=
  (received_of_cursorAt h #v[]).matrixFree_eq hk hrows

/-- `stored` bits have been added at position `k`, and nothing else has changed. -/
structure Added (v : DmrVbptc16_11 rows) (bits : Vector Bool len) (k stored : Nat)
    (v' : DmrVbptc16_11 rows) : Prop where
  cursor : CursorAt v' (k + stored)
  message : ∀ i < stored, transmitted v'.matrix (k + i) = messageBit bits i
  others : ∀ p < 16 * rows, p < k ∨ k + stored ≤ p →
    transmitted v'.matrix p = transmitted v.matrix p

theorem CursorAt.add {v : DmrVbptc16_11 rows} {k : Nat} (h : CursorAt v k) (hk : k < 16 * rows)
    (hrows : rows < 256) (bits : Vector Bool len) :
    ∃ v', v.add bits = some (0, v') ∧ Added v bits k (min len v.matrixFree % 256) v' := by
  have hfree := h.matrixFree_eq hk.le hrows
  have hstored : min len (16 * rows - k) % 256 = min len v.matrixFree % 256 := by rw [hfree]
  obtain ⟨v', hadd, hv'⟩ := (received_of_cursorAt h bits).add_first hk hrows hstored
    fun i hi _ => by
      rw [expectedBit, if_neg (by omega), Nat.add_sub_cancel_left]
      exact (dif_pos hi).symm
  have hle := Nat.mod_le (min len v.matrixFree) 256
  refine ⟨v', hadd, ⟨hv'.row, hv'.col⟩, fun i hi => ?_, fun p hp hout => ?_⟩
  · rw [hv'.bits _ (by omega), if_pos (by omega), expectedBit, if_neg (by omega),
      Nat.add_sub_cancel_left]
  · rw [hv'.bits p hp]
    obtain hbefore | hbehind := hout
    · rw [if_pos (by omega), expectedBit, if_pos hbefore]
    · rw [if_neg (by omega)]

/-- A step of the receiver: bits are added. -/
def addStep (v : DmrVbptc16_11 rows) (e : Σ len, Vector Bool len) : Option (DmrVbptc16_11 rows) :=
  (v.add e.2).map Prod.snd

/-- What a new matrix becomes by additions. -/
def Reached (v : DmrVbptc16_11 rows) : Prop :=
  ∃ matrix es, after addStep (⟨matrix, 0, 0⟩ : DmrVbptc16_11 rows) es = some v

/-- The cursor has not left the matrix. -/
theorem Reached.cursorAt {v : DmrVbptc16_11 rows} (h : Reached v) (hrows : rows < 256) :
    ∃ k ≤ 16 * rows, CursorAt v k := by
  obtain ⟨matrix, es, hes⟩ := h
  refine inv_after (I := fun v : DmrVbptc16_11 rows => ∃ k ≤ 16 * rows, CursorAt v k) ?_
    ⟨0, Nat.zero_le _, (Nat.zero_mod rows).symm, (Nat.zero_div rows).symm⟩ hes
  rintro v ⟨len, bits⟩ v' ⟨k, hk, hcursor⟩ hstep
  have hfree := hcursor.matrixFree_eq hk hrows
  obtain hlt | rfl := Nat.lt_or_eq_of_le hk
  · obtain ⟨w, hadd, hw⟩ := hcursor.add hlt hrows bits
    have hle := Nat.mod_le (min len v.matrixFree) 256
    rw [addStep, hadd, Option.map_some, Option.some.injEq] at hstep
    obtain rfl : w = v' := hstep
    exact ⟨_, by omega, hw.cursor⟩
  · -- a full matrix is left alone
    have hadd : v.add bits = some (-1, v) := if_pos (by omega)
    rw [addStep, hadd, Option.map_some, Option.some.injEq] at hstep
    obtain rfl : v = v' := hstep
    exact ⟨16 * rows, le_refl _, hcursor⟩

/-- All bits for which there is room are added. -/
def AddsAll (v : DmrVbptc16_11 rows) (bits : Vector Bool len) : Prop :=
  ∃ k v', CursorAt v k ∧ v.add bits = some (0, v') ∧ Added v bits k (min len v.matrixFree) v'

theorem CursorAt.addsAll_iff_le {v : DmrVbptc16_11 rows} {k : Nat} (h : CursorAt v k)
    (hk : k < 16 * rows) (hrows : rows < 256) (bits : Vector Bool len) :
    AddsAll v bits ↔ min len v.matrixFree ≤ 255 := by
  obtain ⟨w, hadd, hw⟩ := h.add hk hrows bits
  constructor
  · rintro ⟨k', v', hk', hv', hall⟩
    obtain rfl := h.unique hk'
    rw [hadd, Option.some.injEq, Prod.mk.injEq] at hv'
    obtain ⟨-, rfl⟩ := hv'
    have hpos := hw.cursor.unique hall.cursor
    have hlt := Nat.mod_lt (min len v.matrixFree) (show 256 > 0 by decide)
    omega
  · intro hfew
    have hmod : min len v.matrixFree % 256 = min len v.matrixFree :=
      Nat.mod_eq_of_lt (Nat.lt_succ_of_le hfew)
    rw [hmod] at hw
    exact ⟨k, w, h, hadd, hw⟩

/-- **Adding.** Wherever earlier additions have left the cursor, all bits for which there is
room are added exactly when the counter can count them. -/
theorem addsAll_iff {v : DmrVbptc16_11 rows} (h : Reached v) (hrows : 1 ≤ rows ∧ rows ≤ 255)
    (hfree : 0 < v.matrixFree) (bits : Vector Bool len) :
    AddsAll v bits ↔ min len v.matrixFree ≤ 255 := by
  obtain ⟨k, hk, hcursor⟩ := h.cursorAt (by omega)
  have hleft := hcursor.matrixFree_eq hk (by omega)
  exact hcursor.addsAll_iff_le (by omega) (by omega) bits

theorem addsAll_iff_twoRows :
    AddsAll (⟨Vector.replicate _ false, 0, 0⟩ : DmrVbptc16_11 2) (Vector.replicate 40 true) ↔
      min 40 (⟨Vector.replicate _ false, 0, 0⟩ : DmrVbptc16_11 2).matrixFree ≤ 255 :=
  addsAll_iff ⟨_, [], rfl⟩ (by decide) (by decide) _

/-- Of 256 bits for 256 free cells none is stored. -/
theorem not_addsAll_sixteenRows :
    let v : DmrVbptc16_11 16 := ⟨Vector.replicate _ false, 0, 0⟩
    Reached v ∧ 0 < v.matrixFree ∧ ¬ AddsAll v (Vector.replicate 256 true) := by
  intro v
  have hcursor : CursorAt v 0 := ⟨rfl, rfl⟩
  refine ⟨⟨_, [], rfl⟩, by decide, fun h => ?_⟩
  rw [hcursor.addsAll_iff_le (by decide) (by decide)] at h
  exact absurd h (by decide)

end DmrVbptc16_11

end Dmrlib
