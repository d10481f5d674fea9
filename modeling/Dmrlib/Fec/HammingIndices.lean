import Dmrlib.Fec.Hamming

/-!
# Where the Hamming checker reads its table (`src/dmr/fec/hamming.c`)

`hamming_parity_check` takes the parity errors it has found for a position in its table, and
looks there for another position. The word is not changed in between, so a few entries of the
table decide where a run goes, and `Hamming.inRange` follows it: it stays in the table iff that
says so (`reads_inRange_iff`).

With three or four parity bits every position is one of the table's 7 or 15 when there are that
many rows. The other three codes have fewer rows than their parity bits have values, and most
errors lead out of the table.

- `Checks`: the run of the checker on a word, as a relation: it may also leave its table.
- `checkReads`, `hammingReads`: the positions that it looks up.
- `Hamming.inRange`, `reads_inRange_iff`: the errors whose run stays in the table.
- `Hamming.harmless`: these errors, in a list.
- `Hamming.ChecksRight`, `checksRight_iff`: the run stays in the table, and succeeds on what is a
  codeword, from the start or after a repair.
-/

namespace Dmrlib

open Loop LinearCode

variable {n k : Nat}

/-! ## The loop -/

/-- The variables of the loop at `check_again`. -/
structure CheckState where
  pos : UInt8
  err : UInt8

/-- What a call leaves: its result, the indices at which it has read the table, and the word. -/
structure CheckResult (n : Nat) where
  ret : Bool
  reads : List Nat
  word : Vector Bool n

/-- `hamming_parity_check` from `check_again` on. -/
inductive ChecksFrom (h : Hamming n k) (past : Nat → UInt8) (d : Vector Bool n)
    (p : Vector Bool (n - k)) : CheckState → CheckResult n → Prop
  | clean {s : CheckState} :
    parityErrors h d p s.pos = 0 → ChecksFrom h past d p s ⟨true, [], d⟩
  | giveUp {s : CheckState} {pos : UInt8} :
    parityErrors h d p s.pos = pos → pos ≠ 0 → ¬ (s.err + 1).toNat < h.d →
    ChecksFrom h past d p s ⟨false, [pos.toNat - 1], d⟩
  | again {s : CheckState} {pos : UInt8} {r : CheckResult n} :
    parityErrors h d p s.pos = pos → pos ≠ 0 → (s.err + 1).toNat < h.d →
    ChecksFrom h past d p ⟨h.lookup past (pos.toNat - 1), s.err + 1⟩ r →
    ChecksFrom h past d p s ⟨r.ret, (pos.toNat - 1) :: r.reads, r.word⟩

/-- `hamming_parity_check`, as a run that ends with `r`. -/
def Checks (h : Hamming n k) (past : Nat → UInt8) (d : Vector Bool n) (r : CheckResult n) : Prop :=
  ChecksFrom h past d (hammingParity h d (Vector.replicate _ false)) ⟨0, 0⟩ r

/-- A run ends in one way. -/
theorem ChecksFrom.det {h : Hamming n k} {past : Nat → UInt8} {d : Vector Bool n}
    {p : Vector Bool (n - k)} {s : CheckState} {r r' : CheckResult n}
    (hr : ChecksFrom h past d p s r) (hr' : ChecksFrom h past d p s r') : r = r' := by
  induction hr generalizing r' with
  | clean h0 =>
    cases hr' with
    | clean => rfl
    | giveUp hpos hne => exact absurd (hpos.symm.trans h0) hne
    | again hpos hne => exact absurd (hpos.symm.trans h0) hne
  | giveUp hpos hne herr =>
    subst hpos
    cases hr' with
    | clean h0 => exact absurd h0 hne
    | giveUp hpos' =>
      subst hpos'
      rfl
    | again _ _ hlt => exact absurd hlt herr
  | again hpos hne hlt _ ih =>
    subst hpos
    cases hr' with
    | clean h0 => exact absurd h0 hne
    | giveUp _ _ herr => exact absurd hlt herr
    | again hpos' _ _ hrest =>
      subst hpos'
      rw [ih hrest]

/-- The indices that `checkAgain` reads at. -/
def checkReads (h : Hamming n k) (past : Nat → UInt8) (d : Vector Bool n)
    (p : Vector Bool (n - k)) : (left : Nat) → UInt8 → List Nat
  | 0, _ => []
  | left + 1, pos =>
    let pos := parityErrors h d p pos
    if pos = 0 then []
    else (pos.toNat - 1) :: checkReads h past d p left (h.lookup past (pos.toNat - 1))

/-- The indices that a call reads at. -/
def hammingReads (h : Hamming n k) (past : Nat → UInt8) (d : Vector Bool n) : List Nat :=
  checkReads h past d (hammingParity h d (Vector.replicate _ false)) h.d 0

theorem toNat_succ_err {err : UInt8} (h : err.toNat + 1 < 256) :
    (err + 1).toNat = err.toNat + 1 := by
  rw [UInt8.toNat_add]
  exact Nat.mod_eq_of_lt h

/-- The counter of the loop counts the attempts that are left. -/
theorem checksFrom_checkAgain (h : Hamming n k) (hd : h.d < 256) (past : Nat → UInt8)
    (d : Vector Bool n) (p : Vector Bool (n - k)) (left : Nat) (s : CheckState)
    (hleft : s.err.toNat + (left + 1) = h.d) :
    ChecksFrom h past d p s
      ⟨checkAgain h past d p (left + 1) s.pos, checkReads h past d p (left + 1) s.pos, d⟩ := by
  have herr : (s.err + 1).toNat = s.err.toNat + 1 := toNat_succ_err (by omega)
  induction left generalizing s with
  | zero =>
    rw [checkAgain, checkReads]
    by_cases hpos : parityErrors h d p s.pos = 0
    · rw [if_pos hpos, if_pos hpos]
      exact .clean hpos
    · rw [if_neg hpos, if_neg hpos]
      exact .giveUp rfl hpos (by omega)
  | succ left ih =>
    rw [checkAgain, checkReads]
    by_cases hpos : parityErrors h d p s.pos = 0
    · rw [if_pos hpos, if_pos hpos]
      exact .clean hpos
    · rw [if_neg hpos, if_neg hpos]
      have hnext : (s.err + 1).toNat + (left + 1) = h.d := by omega
      exact .again rfl hpos (by omega) (ih _ hnext (toNat_succ_err (by
        show (s.err + 1).toNat + 1 < 256
        omega)))

/-- **Termination.** A call ends, with the result of `hammingParityCheck`, and with the word it
was given. -/
theorem checks_hammingParityCheck (h : Hamming n k) (hpos : 0 < h.d) (hd : h.d < 256)
    (past : Nat → UInt8) (d : Vector Bool n) :
    Checks h past d ⟨hammingParityCheck h past d, hammingReads h past d, d⟩ := by
  obtain ⟨left, hleft⟩ := Nat.exists_eq_succ_of_ne_zero hpos.ne'
  unfold hammingParityCheck hammingReads
  rw [hleft]
  exact checksFrom_checkAgain h hd past d _ left ⟨0, 0⟩ (by
    show 0 + (left + 1) = h.d
    omega)

/-! ## The parity errors -/

/-- The parity bits that are wrong, as a number: bit `x` is set when parity bit `x` is wrong. -/
def Hamming.errors (h : Hamming n k) (d : Vector Bool n) : Nat :=
  Nat.ofBits (syndrome h.gen (h.message d) (h.parity d))

/-- A pass adds what it finds to what was there. -/
theorem parityErrors_eq_or (h : Hamming n k) (d : Vector Bool n) (p : Vector Bool (n - k))
    (pos : UInt8) : parityErrors h d p pos = pos ||| parityErrors h d p 0 := by
  unfold parityErrors
  have hzero : pos ||| 0 = pos := UInt8.or_zero
  have key := forLoop_hom (f := fun i t =>
      if h.parity d i != p[i] then t ||| (1 <<< UInt8.ofNat i) else t)
    (g := fun i t => if h.parity d i != p[i] then t ||| (1 <<< UInt8.ofNat i) else t)
    (fun t => pos ||| t) (fun i t => by
      split
      · rw [UInt8.or_assoc]
      · rfl) 0
  rw [hzero] at key
  exact key.symm

/-- A parity bit is wrong when it is not the one that was computed. -/
theorem syndrome_eq_bne (h : Hamming n k) (d : Vector Bool n) (x : Fin (n - k)) :
    syndrome h.gen (h.message d) (h.parity d) x =
      (h.parity d x != getElem (hammingParity h d (Vector.replicate _ false)) x x.isLt) := by
  rw [hammingParity_getElem]
  have hsub : ∀ a b : Bool, a - b = (a != b) := by decide
  exact hsub _ _

/-- What a pass finds are the parity bits that are wrong. -/
theorem toNat_parityErrors (h : Hamming n k) (hb : n - k ≤ 8) (d : Vector Bool n) :
    (parityErrors h d (hammingParity h d (Vector.replicate _ false)) 0).toNat = h.errors d := by
  have hbit : ∀ i < 8, ((1 : UInt8) <<< UInt8.ofNat i).toNat = 2 ^ i := by decide
  obtain ⟨wrong, hwrong⟩ : ∃ wrong : Nat → Bool, ∀ x : Fin (n - k),
      wrong x = (h.parity d x != (hammingParity h d (Vector.replicate _ false))[x]) :=
    ⟨fun j => if hj : j < n - k then syndrome h.gen (h.message d) (h.parity d) ⟨j, hj⟩ else false,
      fun x => (dif_pos x.isLt).trans (syndrome_eq_bne h d x)⟩
  unfold parityErrors
  simp only [← hwrong]
  -- after `m` rounds, the bits below `m` are there
  have key := forLoop_inv (n := n - k)
    (f := fun i pos => if wrong i then pos ||| (1 <<< UInt8.ofNat i) else pos) (s := 0)
    (fun m t => ∀ j, t.toNat.testBit j = (decide (j < m) && wrong j)) (fun j => by simp)
    (fun i t ht j => by
      have hnext : i.val ≠ j → (j < i.val + 1 ↔ j < i.val) := fun hij => by omega
      by_cases herr : wrong i = true
      · rw [if_pos herr, UInt8.toNat_or, Nat.testBit_or, ht, hbit i (by omega),
          Nat.testBit_two_pow]
        by_cases hij : i.val = j
        · subst hij
          simp [herr]
        · simp [hij, hnext hij]
      · rw [if_neg herr, ht]
        by_cases hij : i.val = j
        · subst hij
          simp [herr]
        · simp [hnext hij])
  refine Nat.eq_of_testBit_eq fun j => (key j).trans ?_
  rw [Hamming.errors, Nat.testBit_ofBits]
  by_cases hj : j < n - k
  · rw [dif_pos hj, syndrome_eq_bne, ← hwrong]
    simp [hj]
  · rw [dif_neg hj]
    simp [hj]

/-! ## The positions -/

/-- Does a run from `pos`, with `left` attempts to go, stay in the table? The parity errors are
the same in every attempt, and are added to what the table had. -/
def Hamming.inRange (h : Hamming n k) (errors : UInt8) : (left : Nat) → (pos : UInt8) → Bool
  | 0, _ => true
  | left + 1, pos =>
    let pos := pos ||| errors
    if pos = 0 then true
    else if hi : pos.toNat - 1 < n then h.inRange errors left h.g[pos.toNat - 1]
    else false

theorem checkReads_inRange_iff (h : Hamming n k) (past : Nat → UInt8) (d : Vector Bool n)
    (p : Vector Bool (n - k)) (left : Nat) (pos : UInt8) :
    (∀ i ∈ checkReads h past d p left pos, i < n) ↔
      h.inRange (parityErrors h d p 0) left pos = true := by
  induction left generalizing pos with
  | zero => exact iff_of_true (fun i hi => nomatch hi) rfl
  | succ left ih =>
    rw [checkReads, Hamming.inRange, parityErrors_eq_or]
    by_cases hpos : pos ||| parityErrors h d p 0 = 0
    · rw [if_pos hpos, if_pos hpos]
      exact iff_of_true (fun i hi => nomatch hi) rfl
    · rw [if_neg hpos, if_neg hpos, List.forall_mem_cons]
      by_cases hi : (pos ||| parityErrors h d p 0).toNat - 1 < n
      · rw [dif_pos hi, ih, Hamming.lookup, dif_pos hi]
        exact and_iff_right hi
      · rw [dif_neg hi]
        exact iff_of_false (fun hall => hi hall.1) Bool.false_ne_true

/-- **Where a call reads** is decided by the parity bits that are wrong. -/
theorem reads_inRange_iff (h : Hamming n k) (hb : n - k ≤ 8) (past : Nat → UInt8)
    (d : Vector Bool n) :
    (∀ i ∈ hammingReads h past d, i < n) ↔
      h.inRange (UInt8.ofNat (h.errors d)) h.d 0 = true := by
  rw [hammingReads, checkReads_inRange_iff, ← toNat_parityErrors h hb d, UInt8.ofNat_toNat]

/-- The errors after which a call stays in the table. -/
def Hamming.harmless (h : Hamming n k) : List Nat :=
  (List.range (2 ^ (n - k))).filter fun errors => h.inRange (UInt8.ofNat errors) h.d 0

theorem reads_lt_iff (h : Hamming n k) (hb : n - k ≤ 8) (past : Nat → UInt8) (d : Vector Bool n) :
    (∀ i ∈ hammingReads h past d, i < n) ↔ h.errors d ∈ h.harmless := by
  rw [reads_inRange_iff h hb, Hamming.harmless, List.mem_filter, List.mem_range]
  exact (and_iff_right (Nat.ofBits_lt_two_pow _)).symm

/-- What is expected of a call: it ends, has read the table at indices below `n` only, and has
returned `true` exactly when the parity bits of the word are those of its data bits, or those of
the word it leaves are, where this is another one. -/
def Hamming.ChecksRight (h : Hamming n k) (past : Nat → UInt8) (d : Vector Bool n) : Prop :=
  ∃ r, Checks h past d r ∧ (∀ i ∈ r.reads, i < n) ∧
    (r.ret = true ↔ h.Valid d ∨ (r.word ≠ d ∧ h.Valid r.word))

/-- Of this, only the indices can go wrong. -/
theorem checksRight_iff (h : Hamming n k) (hpos : 0 < h.d) (hd : h.d < 256) (hb : n - k ≤ 8)
    (past : Nat → UInt8) (d : Vector Bool n) :
    h.ChecksRight past d ↔ h.errors d ∈ h.harmless := by
  rw [← reads_lt_iff h hb past]
  have hrun := checks_hammingParityCheck h hpos hd past d
  constructor
  · rintro ⟨r, hr, hreads, -⟩
    obtain rfl := ChecksFrom.det hr hrun
    exact hreads
  · intro hreads
    refine ⟨_, hrun, hreads, ?_⟩
    rw [hammingParityCheck_eq_true_iff h hb hpos]
    simp

theorem harmless7_4_3 : hamming7_4_3.harmless = List.range 8 := by decide +kernel

theorem harmless13_9_3 : hamming13_9_3.harmless = [0, 5, 9, 10, 13] := by decide +kernel

theorem harmless15_11_3 : hamming15_11_3.harmless = List.range 16 := by decide +kernel

theorem harmless16_11_4 : hamming16_11_4.harmless = [0, 5, 7, 10, 11, 13, 14, 15] := by
  decide +kernel

theorem harmless17_12_3 : hamming17_12_3.harmless = [0, 5, 11, 14, 15, 17] := by decide +kernel

/-- A code whose table has a row for every error. -/
theorem mem_harmless_of_range {h : Hamming n k} (hall : h.harmless = List.range (2 ^ (n - k)))
    (d : Vector Bool n) : h.errors d ∈ h.harmless := by
  rw [hall, List.mem_range]
  exact Nat.ofBits_lt_two_pow _

end Dmrlib
