import Dmrlib.Lib.Loop
import Dmrlib.Lib.LinearCode

/-!
# Hamming codes (`src/dmr/fec/hamming.c`)

All five codes share one encoder (`hamming_parity`) and one checker
(`hamming_parity_check`), driven by a table of generator rows. A `Hamming n k`
is such a table together with the facts the code relies on: it has one row per
bit of the block, and no more message bits than bits.

The checker tries to locate an error through its table and to start over, but it
never writes to the word it checks and never clears the error position, so the
only way to succeed is a word without parity errors:
`hammingParityCheck_eq_true_iff`. In terms of `LinearCode`, it accepts exactly
the codewords.

- `Hamming`: the table of a code; `Valid` are its codewords.
- `hammingParity`, `hammingEncode`: the check bits of a message, and the word with them.
- `hammingParityCheck`: the checker with its attempt at a repair.
- `Detects`: the columns of the table are distinct and not zero, so one and two wrong bits are
  noticed.
- `hamming7_4_3` to `hamming17_12_3`: the five codes with their tables.
-/

namespace Dmrlib

open Loop LinearCode

/-- `hamming_t`: block length `n`, message length `k`, distance `d` and the
generator rows. -/
structure Hamming (n k : Nat) where
  d : Nat
  g : Vector UInt8 n
  k_le : k ≤ n

namespace Hamming

variable {n k : Nat}

/-- Does generator row `y` contribute to parity bit `x`? -/
def gen (h : Hamming n k) : Matrix (Fin k) (Fin (n - k)) Bool :=
  have := h.k_le
  Matrix.of fun y x => h.g[y] &&& (1 <<< UInt8.ofNat (n - k - x - 1)) ≠ 0

/-- The message bits of a block. -/
def message (h : Hamming n k) (d : Vector Bool n) (y : Fin k) : Bool :=
  have := h.k_le
  d[y]

/-- The parity bits of a block. -/
def parity (h : Hamming n k) (d : Vector Bool n) (x : Fin (n - k)) : Bool :=
  have := h.k_le
  d[k + x.val]

/-- The block satisfies every parity equation. -/
def Valid (h : Hamming n k) (d : Vector Bool n) : Prop :=
  IsCodeword h.gen (h.message d) (h.parity d)

end Hamming

variable {n k : Nat}

/-- `hamming_parity`: the parity bits of `d`, over whatever `p` held before. -/
def hammingParity (h : Hamming n k) (d : Vector Bool n) (p : Vector Bool (n - k)) :
    Vector Bool (n - k) :=
  forLoop (n - k) (fun x p =>
    forLoop k (fun y p => if h.gen y x then p.set x (p[x] ^^ h.message d y) else p)
      (p.set x false)) p

/-- One pass over the parity bits: `pos |= (1 << i)` for each mismatch. -/
def parityErrors (h : Hamming n k) (d : Vector Bool n) (p : Vector Bool (n - k))
    (pos : UInt8) : UInt8 :=
  forLoop (n - k) (fun i pos =>
    if h.parity d i != p[i] then pos ||| (1 <<< UInt8.ofNat i) else pos) pos

/-- `h->g[i]`, with `past` the bytes that follow the table in memory. -/
def Hamming.lookup (h : Hamming n k) (past : Nat → UInt8) (i : Nat) : UInt8 :=
  if hi : i < n then h.g[i] else past (i - n)

/-- The `check_again` loop, with `left` attempts to go. -/
def checkAgain (h : Hamming n k) (past : Nat → UInt8) (d : Vector Bool n)
    (p : Vector Bool (n - k)) : (left : Nat) → UInt8 → Bool
  | 0, _ => false
  | left + 1, pos =>
    let pos := parityErrors h d p pos
    if pos = 0 then true
    else checkAgain h past d p left (h.lookup past (pos.toNat - 1))

/-- `hamming_parity_check` -/
def hammingParityCheck (h : Hamming n k) (past : Nat → UInt8) (d : Vector Bool n) : Bool :=
  checkAgain h past d (hammingParity h d (Vector.replicate _ false)) h.d 0

/-- `dmr_hamming_*_encode`: the parity bits go behind the message bits. -/
def hammingEncode (h : Hamming n k) (d : Vector Bool n) : Vector Bool n :=
  have := h.k_le
  let p := hammingParity h d (Vector.replicate _ false)
  forLoop (n - k) (fun x d => d.set (k + x.val) p[x]) d

/-! ## What the shared functions compute -/

/-- Parity bit `x` is the sum over GF(2) of the message bits that row selects. -/
theorem hammingParity_getElem (h : Hamming n k) (d : Vector Bool n)
    (p : Vector Bool (n - k)) (x : Fin (n - k)) :
    (hammingParity h d p)[x] = ∑ y, h.message d y * h.gen y x := by
  -- the inner loop works on cell `x` alone and sums there
  have hcol : ∀ (x : Fin (n - k)) (p : Vector Bool (n - k)),
      forLoop k (fun y p => if h.gen y x then p.set x (p[x] ^^ h.message d y) else p)
        (p.set x false) = p.set x (∑ y, h.message d y * h.gen y x) := by
    intro x p
    have hbody : (fun (y : Fin k) (p : Vector Bool (n - k)) =>
          if h.gen y x then p.set x (p[x] ^^ h.message d y) else p) =
        fun y p => p.set x (p[x] + h.message d y * h.gen y x) := by
      funext y p
      cases hg : h.gen y x
      · have hz : h.message d y * false = 0 := mul_zero _
        simp [hz]
      · have ho : h.message d y * true = h.message d y := mul_one _
        rw [if_pos rfl, ho, Bool.add_eq_xor]
    rw [hbody, forLoop_cell (f := fun y v => v + h.message d y * h.gen y x), forLoop_add,
      Vector.set_set]
    simp only [Fin.getElem_fin, Vector.getElem_set_self]
    exact congrArg (p.set x) (zero_add _)
  unfold hammingParity
  simp only [hcol]
  exact forLoop_set Function.injective_id (fun x => ∑ y, h.message d y * h.gen y x) p x

/-- No bit of `pos` is set exactly when there was none before and no parity bit
differs. -/
theorem parityErrors_eq_zero_iff (h : Hamming n k) (hb : n - k ≤ 8) (d : Vector Bool n)
    (p : Vector Bool (n - k)) (pos : UInt8) :
    parityErrors h d p pos = 0 ↔ pos = 0 ∧ ∀ x, h.parity d x = p[x] := by
  have hbit : ∀ i < 8, (1 : UInt8) <<< UInt8.ofNat i ≠ 0 := by decide
  -- a bit is set for each parity that differs, and none is ever cleared
  have key := forLoop_inv (n := n - k)
    (f := fun i pos =>
      if h.parity d i != p[i] then pos ||| (1 <<< UInt8.ofNat i) else pos)
    (s := pos)
    (fun m t => t = 0 ↔ pos = 0 ∧ ∀ x : Fin (n - k), x < m → h.parity d x = p[x])
    (by simp)
    (fun i t ht => by
      have hsplit : (∀ x : Fin (n - k), (x : Nat) < i + 1 → h.parity d x = p[x]) ↔
          (∀ x : Fin (n - k), (x : Nat) < i → h.parity d x = p[x]) ∧ h.parity d i = p[i] := by
        refine ⟨fun hx => ⟨fun x hlt => hx x (by omega), hx i (by omega)⟩, ?_⟩
        rintro ⟨hx, hi⟩ x hlt
        rcases Nat.lt_succ_iff_lt_or_eq.mp hlt with hlt | heq
        · exact hx x hlt
        · rwa [Fin.ext heq]
      by_cases hi : h.parity d i = p[i]
      · simp only [hi, bne_self_eq_false, Bool.false_eq_true, if_false, ht, hsplit, and_true]
      · have hne : t ||| ((1 : UInt8) <<< UInt8.ofNat i) ≠ 0 := by
          intro h0
          exact hbit i (by omega) (UInt8.or_eq_zero_iff.mp h0).2
        rw [if_pos (by simpa using hi), hsplit]
        exact iff_of_false hne fun hall => hi hall.2.2)
  simp only [Fin.is_lt, forall_const] at key
  exact key

/-- While some parity bit differs, no number of attempts succeeds: the word is
not repaired between attempts. -/
theorem checkAgain_of_mismatch (h : Hamming n k) (hb : n - k ≤ 8) (past : Nat → UInt8)
    {d : Vector Bool n} {p : Vector Bool (n - k)} {x : Fin (n - k)}
    (hx : h.parity d x ≠ p[x]) (left : Nat) (pos : UInt8) :
    checkAgain h past d p left pos = false := by
  induction left generalizing pos with
  | zero => rfl
  | succ left ih =>
    have hne : parityErrors h d p pos ≠ 0 := fun h0 =>
      hx (((parityErrors_eq_zero_iff h hb d p pos).mp h0).2 x)
    rw [checkAgain, if_neg hne]
    exact ih _

/-- **The checker accepts exactly the codewords**, whatever lies behind the
table. -/
theorem hammingParityCheck_eq_true_iff (h : Hamming n k) (hb : n - k ≤ 8) (hd : 0 < h.d)
    (past : Nat → UInt8) (d : Vector Bool n) :
    hammingParityCheck h past d = true ↔ h.Valid d := by
  have hvalid : h.Valid d ↔
      ∀ x : Fin (n - k), h.parity d x = (hammingParity h d (Vector.replicate _ false))[x] := by
    simp only [Hamming.Valid, isCodeword_iff_forall, hammingParity_getElem]
  rw [hvalid]
  constructor
  · intro hcheck x
    by_contra hx
    rw [hammingParityCheck, checkAgain_of_mismatch h hb past hx] at hcheck
    cases hcheck
  · intro hall
    obtain ⟨left, hleft⟩ := Nat.exists_eq_succ_of_ne_zero hd.ne'
    rw [hammingParityCheck, hleft, checkAgain,
      if_pos ((parityErrors_eq_zero_iff h hb d _ 0).mpr ⟨rfl, hall⟩)]

/-! ## Wrong bits -/

/-- The word with bit `j` inverted. -/
def invert (d : Vector Bool n) (j : Fin n) : Vector Bool n := d.set j (!getElem d j j.isLt) j.isLt

theorem invert_getElem (d : Vector Bool n) (j : Fin n) (i : Nat) (hi : i < n) :
    (invert d j)[i] = if j.val = i then !d[i] else d[i] := by
  rw [invert, Vector.getElem_set]
  split
  · next heq => simp only [Fin.getElem_fin, heq]
  · rfl

/-- Inverting a bit again restores the word. -/
theorem invert_invert (d : Vector Bool n) (j : Fin n) : invert (invert d j) j = d := by
  refine Vector.ext fun i hi => ?_
  rw [invert_getElem, invert_getElem]
  split
  · exact Bool.not_not _
  · rfl

namespace Hamming

/-- Column `j` of the check matrix: the parity bits that bit `j` takes part in. -/
def column (h : Hamming n k) (j : Fin n) : Fin (n - k) → Bool :=
  let unit := (Vector.replicate n false).set j true j.isLt
  syndrome h.gen (h.message unit) (h.parity unit)

/-- The code notices every single and every double error. -/
structure Detects (h : Hamming n k) : Prop where
  single : ∀ j, h.column j ≠ 0
  double : ∀ i j, i ≠ j → h.column i ≠ h.column j

variable {h : Hamming n k} {d : Vector Bool n}

theorem syndrome_invert (h : Hamming n k) (d : Vector Bool n) (j : Fin n) :
    syndrome h.gen (h.message (invert d j)) (h.parity (invert d j)) =
      syndrome h.gen (h.message d) (h.parity d) + h.column j := by
  have hk := h.k_le
  have hbit : ∀ i (hi : i < n),
      (invert d j)[i] = d[i] + ((Vector.replicate n false).set j true)[i] := by
    intro i hi
    rw [invert, Vector.getElem_set, Vector.getElem_set, Vector.getElem_replicate, Bool.add_eq_xor]
    split
    · next heq =>
      subst heq
      exact (Bool.xor_true _).symm
    · exact (Bool.xor_false _).symm
  rw [column, ← syndrome_add]
  congr 1
  · funext y
    exact hbit y.val (by omega)
  · funext x
    exact hbit (k + x.val) (by omega)

/-- A codeword with one bit inverted is no codeword … -/
theorem Detects.not_valid_invert (hh : h.Detects) (hd : h.Valid d) (j : Fin n) :
    ¬ h.Valid (invert d j) := by
  intro hj
  unfold Valid at hd hj
  rw [isCodeword_iff_syndrome] at hd hj
  rw [syndrome_invert, hd, zero_add] at hj
  exact hh.single j hj

/-- … and with two bits inverted neither. -/
theorem Detects.not_valid_invert_invert (hh : h.Detects) (hd : h.Valid d) {i j : Fin n}
    (hij : i ≠ j) : ¬ h.Valid (invert (invert d i) j) := by
  intro hboth
  unfold Valid at hd hboth
  rw [isCodeword_iff_syndrome] at hd hboth
  rw [syndrome_invert, syndrome_invert, hd, zero_add] at hboth
  refine hh.double i j hij (funext fun x => ?_)
  have hx : (h.column i x ^^ h.column j x) = false := congrFun hboth x
  exact bne_eq_false_iff_eq.mp hx

end Hamming

/-! ## The encoder -/

/-- Encoding leaves the message bits alone. -/
theorem message_hammingEncode (h : Hamming n k) (d : Vector Bool n) :
    h.message (hammingEncode h d) = h.message d := by
  have := h.k_le
  funext y
  exact forLoop_set_other (f := fun x : Fin (n - k) => (⟨k + x, by omega⟩ : Fin n))
    (fun x => (hammingParity h d (Vector.replicate _ false))[x]) d (by omega) fun x hx => by
      simp only at hx
      omega

/-- An encoded block satisfies every parity equation. -/
theorem valid_hammingEncode (h : Hamming n k) (d : Vector Bool n) :
    h.Valid (hammingEncode h d) := by
  have := h.k_le
  rw [Hamming.Valid, isCodeword_iff_forall]
  intro x
  rw [message_hammingEncode, ← hammingParity_getElem h d (Vector.replicate _ false) x]
  have hinj : Function.Injective (fun x : Fin (n - k) => (⟨k + x, by omega⟩ : Fin n)) := by
    intro a b hab
    have : k + (a : Nat) = k + b := congrArg (fun z : Fin n => (z : Nat)) hab
    exact Fin.ext (by omega)
  exact forLoop_set hinj (fun x => (hammingParity h d (Vector.replicate _ false))[x]) d x

/-! ## The five codes -/

def hamming7_4_3 : Hamming 7 4 where
  d := 3
  g := #v[0x05, 0x07, 0x06, 0x03, 0x04, 0x02, 0x01]
  k_le := by decide

def hamming13_9_3 : Hamming 13 9 where
  d := 3
  g := #v[0x0f, 0x0e, 0x07, 0x0a, 0x05, 0x0b, 0x0c, 0x06, 0x03, 0x08, 0x04, 0x02, 0x01]
  k_le := by decide

def hamming15_11_3 : Hamming 15 11 where
  d := 3
  g := #v[0x09, 0x0d, 0x0f, 0x0e, 0x07, 0x0a, 0x05, 0x0b, 0x0c, 0x06, 0x03, 0x08, 0x04, 0x02,
    0x01]
  k_le := by decide

def hamming16_11_4 : Hamming 16 11 where
  d := 4
  g := #v[0x13, 0x1a, 0x1f, 0x1c, 0x0e, 0x15, 0x0b, 0x16, 0x19, 0x0d, 0x07, 0x10, 0x08, 0x04,
    0x02, 0x01]
  k_le := by decide

def hamming17_12_3 : Hamming 17 12 where
  d := 3
  g := #v[0x1b, 0x1f, 0x1d, 0x1c, 0x0e, 0x07, 0x11, 0x1a, 0x0d, 0x14, 0x0a, 0x05, 0x10, 0x08,
    0x04, 0x02, 0x01]
  k_le := by decide

theorem hamming13_9_3_detects : hamming13_9_3.Detects where
  single := by decide +kernel
  double := by decide +kernel

theorem hamming15_11_3_detects : hamming15_11_3.Detects where
  single := by decide +kernel
  double := by decide +kernel

theorem hamming16_11_4_detects : hamming16_11_4.Detects where
  single := by decide +kernel
  double := by decide +kernel

end Dmrlib
