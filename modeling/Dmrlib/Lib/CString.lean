import Mathlib

/-!
# Strings of C

A C string is modelled by its bytes up to the terminating zero, which is left out. Literals
are written with `bytes`.

- `CStr`, `bytes`, `untilNul`: strings, and where they come from.
- `strncmp`, `isspace`, `strtokR`, `strtol`, `atoi`: the functions of the C library, in the C
  locale and with 64-bit `long` and 32-bit `int`.
- `digits`, `decimal`, `readDecimal`: numbers as `printf` writes and `strtol` reads them, which is
  a round trip (`strtol_decimal`, `atoi_decimal`).
-/

/-- A C string, by its bytes. -/
abbrev CStr := List UInt8

namespace CString

/-- A string literal of ASCII characters. -/
def bytes (s : String) : List UInt8 := s.toList.map fun c => UInt8.ofNat c.toNat

/-- The string at the beginning of a buffer. -/
def untilNul (buf : List UInt8) : List UInt8 := buf.takeWhile (· ≠ 0)

/-- `strncmp`, of which only the sign is defined. -/
def strncmp : (a b : List UInt8) → (n : Nat) → Ordering
  | _, _, 0 => .eq
  | [], [], _ + 1 => .eq
  | [], _ :: _, _ + 1 => .lt
  | _ :: _, [], _ + 1 => .gt
  | c :: a, d :: b, n + 1 => if c = d then strncmp a b n else if c < d then .lt else .gt

/-- Comparing as much as one string is long asks whether it begins the other. -/
theorem strncmp_length_eq_iff (a b : List UInt8) : strncmp a b a.length = .eq ↔ a <+: b := by
  induction a generalizing b with
  | nil => simp [strncmp]
  | cons c a ih =>
    cases b with
    | nil => simp [strncmp]
    | cons d b =>
      rw [List.length_cons, strncmp, List.cons_prefix_cons]
      by_cases hcd : c = d
      · rw [if_pos hcd, ih, and_iff_right hcd]
      · rw [if_neg hcd]
        refine iff_of_false ?_ fun h => hcd h.1
        split <;> simp

/-- `isspace` -/
def isspace (c : UInt8) : Bool := c = 0x20 ∨ 0x09 ≤ c ∧ c ≤ 0x0d

/-- `strtok_r` for the first token, with one delimiter: the token, and what is left in the
save pointer. `none` is `NULL`, when there are only delimiters. -/
def strtokR (s : List UInt8) (delim : UInt8) : Option (List UInt8) × List UInt8 :=
  match s.dropWhile (· = delim) with
  | [] => (none, [])
  | c :: rest =>
    (some (c :: rest.takeWhile (· ≠ delim)), (rest.dropWhile (· ≠ delim)).tail)

theorem strtokR_cons {c delim : UInt8} (hc : c ≠ delim) (s : List UInt8) :
    strtokR (c :: s) delim =
      (some (c :: s.takeWhile (· ≠ delim)), (s.dropWhile (· ≠ delim)).tail) := by
  rw [strtokR, List.dropWhile_cons, if_neg (by simpa using hc)]

theorem decide_ne_of_not_mem {k : List UInt8} {delim : UInt8} (h : delim ∉ k) :
    ∀ d ∈ k, decide (d ≠ delim) = true :=
  fun _ hd => decide_eq_true (ne_of_mem_of_not_mem hd h)

/-- A token that a delimiter ends. -/
theorem strtokR_append {k : List UInt8} {delim : UInt8} (hne : k ≠ []) (h : delim ∉ k)
    (v : List UInt8) : strtokR (k ++ delim :: v) delim = (some k, v) := by
  obtain ⟨c, cs, rfl⟩ := List.exists_cons_of_ne_nil hne
  obtain ⟨hc, hcs⟩ := List.ne_and_not_mem_of_not_mem_cons h
  have hall := decide_ne_of_not_mem hcs
  rw [List.cons_append, strtokR_cons hc.symm, List.takeWhile_append_of_pos hall,
    List.dropWhile_append_of_pos hall]
  simp

/-- The last token of a string. -/
theorem strtokR_last {k : List UInt8} {delim : UInt8} (hne : k ≠ []) (h : delim ∉ k) :
    strtokR k delim = (some k, []) := by
  obtain ⟨c, cs, rfl⟩ := List.exists_cons_of_ne_nil hne
  obtain ⟨hc, hcs⟩ := List.ne_and_not_mem_of_not_mem_cons h
  have hall := decide_ne_of_not_mem hcs
  rw [strtokR_cons hc.symm, List.takeWhile_eq_self_iff.mpr hall, List.dropWhile_eq_nil_iff.mpr hall,
    List.tail_nil]

/-- What `strtol` reads from digits. -/
def readDecimal (digits : List UInt8) : Nat :=
  digits.foldl (fun n c => 10 * n + (c - 0x30).toNat) 0

/-- `strtol` to base 10, of which the position after the number is not used. -/
def strtol (s : List UInt8) : Int :=
  let s := s.dropWhile isspace
  let (negative, s) :=
    match s with
    | 0x2d :: s => (true, s)
    | 0x2b :: s => (false, s)
    | s => (false, s)
  let digits := s.takeWhile fun c => 0x30 ≤ c ∧ c ≤ 0x39
  let n := readDecimal digits
  if negative then max (-(n : Int)) (-2 ^ 63) else min (n : Int) (2 ^ 63 - 1)

/-- `atoi` -/
def atoi (s : List UInt8) : Int := (strtol s).bmod (2 ^ 32)

example : atoi (bytes " -12x") = -12 := by decide

example : strtokR (bytes "=a=b=c") 0x3d = (some (bytes "a"), bytes "b=c") := by decide

/-! ## Decimal numbers -/

/-- The digits of a number, to a base of at most 16. -/
def digits (base n : Nat) : List UInt8 := (Nat.toDigits base n).map fun c => UInt8.ofNat c.toNat

/-- A number as `%u` prints it. -/
def decimal (n : Nat) : List UInt8 := digits 10 n

theorem decimal_of_lt {n : Nat} (h : n < 10) : decimal n = [UInt8.ofNat (0x30 + n)] := by
  rw [decimal, digits, Nat.toDigits_of_lt_base h, List.map_singleton,
    Nat.toNat_digitChar_of_lt_ten h, Nat.add_comm]

/-- A longer number is a shorter one and a digit. -/
theorem decimal_of_le {n : Nat} (h : 10 ≤ n) :
    decimal n = decimal (n / 10) ++ decimal (n % 10) := by
  rw [decimal_of_lt (Nat.mod_lt n (by decide)), decimal, digits,
    Nat.toDigits_of_base_le (by decide) h, List.map_append, List.map_singleton,
    Nat.toNat_digitChar_of_lt_ten (Nat.mod_lt n (by decide)), Nat.add_comm, decimal, digits]

theorem readDecimal_append_digit (digits : List UInt8) {d : Nat} (h : d < 10) :
    readDecimal (digits ++ decimal d) = 10 * readDecimal digits + d := by
  have hdigit : (UInt8.ofNat (0x30 + d) - 0x30).toNat = d := by
    interval_cases d <;> rfl
  rw [decimal_of_lt h, readDecimal, List.foldl_append, List.foldl_cons, List.foldl_nil, hdigit]
  rfl

/-- Zeros in front do not count. -/
theorem readDecimal_replicate_append (k : Nat) (digits : List UInt8) :
    readDecimal (List.replicate k 0x30 ++ digits) = readDecimal digits := by
  induction k with
  | zero => rfl
  | succ k ih => exact ih

theorem readDecimal_decimal (n : Nat) : readDecimal (decimal n) = n := by
  induction n using Nat.strongRecOn with
  | ind n ih =>
    by_cases h : n < 10
    · exact (readDecimal_append_digit [] h).trans (Nat.zero_add n)
    · rw [decimal_of_le (Nat.not_lt.mp h), readDecimal_append_digit _ (Nat.mod_lt n (by decide)),
        ih (n / 10) (by omega)]
      omega

/-- A decimal number consists of digits. -/
theorem digit_of_mem_decimal {n : Nat} {c : UInt8} (h : c ∈ decimal n) :
    0x30 ≤ c ∧ c ≤ 0x39 := by
  induction n using Nat.strongRecOn with
  | ind n ih =>
    by_cases hlt : n < 10
    · rw [decimal_of_lt hlt] at h
      rw [List.mem_singleton.mp h]
      interval_cases n <;> decide
    · rw [decimal_of_le (Nat.not_lt.mp hlt), List.mem_append] at h
      rcases h with h | h
      · exact ih _ (by omega) h
      · exact ih _ (by omega) h

theorem decimal_ne_nil (n : Nat) : decimal n ≠ [] := by
  rw [decimal, digits, Ne, List.map_eq_nil_iff]
  exact Nat.toDigits_ne_nil

theorem not_isspace_of_digit {c : UInt8} (h : 0x30 ≤ c ∧ c ≤ 0x39) : isspace c = false := by
  have h1 : 0x30 ≤ c.toNat := UInt8.le_iff_toNat_le.mp h.1
  refine decide_eq_false ?_
  rintro (rfl | ⟨-, h2⟩)
  · exact absurd h1 (by decide)
  · have h2 : c.toNat ≤ 0x0d := UInt8.le_iff_toNat_le.mp h2
    omega

/-- `strtol` reads a number without a sign. -/
theorem strtol_digits {digits : List UInt8} (hne : digits ≠ [])
    (hdigits : ∀ c ∈ digits, 0x30 ≤ c ∧ c ≤ 0x39) (h : readDecimal digits < 2 ^ 63) :
    strtol digits = readDecimal digits := by
  obtain ⟨c, cs, rfl⟩ := List.exists_cons_of_ne_nil hne
  have hc := hdigits c List.mem_cons_self
  have hminus : c ≠ 0x2d := by
    rintro rfl
    exact absurd hc.1 (by decide)
  have hplus : c ≠ 0x2b := by
    rintro rfl
    exact absurd hc.1 (by decide)
  have htake : (c :: cs).takeWhile (fun c => 0x30 ≤ c ∧ c ≤ 0x39) = c :: cs :=
    List.takeWhile_eq_self_iff.mpr fun d hd => decide_eq_true (hdigits d hd)
  have hspace : ¬ isspace c = true := Bool.eq_false_iff.mp (not_isspace_of_digit hc)
  rw [strtol, List.dropWhile_cons_of_neg hspace]
  split
  rename_i negative s heq
  split at heq
  · rename_i h0
    exact absurd (List.cons.inj h0).1 hminus
  · rename_i h0
    exact absurd (List.cons.inj h0).1 hplus
  · obtain ⟨rfl, rfl⟩ := Prod.mk.inj heq
    simp only [htake, Bool.false_eq_true, if_false]
    omega

/-- `strtol` reads back what `%u` prints. -/
theorem strtol_decimal {n : Nat} (h : n < 2 ^ 63) : strtol (decimal n) = n := by
  have hread := readDecimal_decimal n
  have hlt : readDecimal (decimal n) < 2 ^ 63 := by rwa [hread]
  rw [strtol_digits (decimal_ne_nil n) (fun _ hc => digit_of_mem_decimal hc) hlt, hread]

theorem atoi_decimal {n : Nat} (h : n < 2 ^ 31) : atoi (decimal n) = n := by
  rw [atoi, strtol_decimal (by omega), Int.bmod]
  omega

end CString
