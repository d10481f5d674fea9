import Dmrlib.Raw

/-!
# Numbers in hexadecimal (`AX` in `src/dmr/raw.c`)

The four functions that append a number in hexadecimal claim as many bytes as the number
has digits, and print it there with `snprintf`, which needs one byte more. The last digit
never makes it: the byte that was claimed for it is the end of the string.

- `dmrRawAddX`: the four functions at once, for a number of any width.
- `readHex`: the number that a string of hexadecimal digits stands for.
- `AppendsHex`: what the functions are for; the digits of the number come behind what was there.
- `not_appendsHex`: none of them does it, for any number, any buffer and any allocation.
-/

namespace Dmrlib

/-- `AX`: `snprintf` is told that there is room for `size` bytes. -/
def dmrRawAddX (size : Nat) (grown : Bool) (raw : DmrRaw) (v : Nat) : Int × DmrRaw :=
  dmrRawAdd grown raw (fixedField size ((formatNat 16 size v).take (size - 1)))

/-- `dmr_raw_add_xuint16` -/
def dmrRawAddXuint16 (grown : Bool) (raw : DmrRaw) (v : UInt16) : Int × DmrRaw :=
  dmrRawAddX 4 grown raw v.toNat

/-- `dmr_raw_add_xuint24`; an `uint24_t` has 32 bits. -/
def dmrRawAddXuint24 (grown : Bool) (raw : DmrRaw) (v : UInt32) : Int × DmrRaw :=
  dmrRawAddX 6 grown raw v.toNat

/-- `dmr_raw_add_xuint64` -/
def dmrRawAddXuint64 (grown : Bool) (raw : DmrRaw) (v : UInt64) : Int × DmrRaw :=
  dmrRawAddX 16 grown raw v.toNat

/-- `dmr_raw_add_xuint32` is made by the same macro. -/
theorem dmrRawAddXuint32_eq (grown : Bool) (raw : DmrRaw) (v : UInt32) :
    dmrRawAddXuint32 grown raw v = dmrRawAddX 8 grown raw v.toNat := rfl

/-! ## What is appended -/

/-- What an addition that succeeds leaves ends with what was added. -/
theorem content_dmrRawAdd (grown : Bool) (raw : DmrRaw) (bytes : List UInt8)
    (h : (dmrRawAdd grown raw bytes).1 = 0) :
    ∃ old, (dmrRawAdd grown raw bytes).2.content = old ++ bytes := by
  unfold dmrRawAdd at h ⊢
  generalize dmrRawGrowAdd grown raw bytes.length = grownRaw at h ⊢
  obtain ⟨ret, raw'⟩ := grownRaw
  dsimp only at h ⊢
  split at h
  · cases h
  next hret =>
  rw [if_neg hret]
  show ∃ old, (raw'.put bytes).take (raw'.len + bytes.length) = old ++ bytes
  refine ⟨raw'.buf.take raw'.len, ?_⟩
  unfold DmrRaw.put
  by_cases hlen : raw'.len ≤ raw'.buf.length
  · refine List.take_left' ?_
    rw [List.length_append, List.length_take, Nat.min_eq_left hlen]
  · rw [List.drop_eq_nil_of_le (by omega), List.append_nil]
    refine List.take_of_length_le ?_
    rw [List.length_append, List.length_take]
    omega

/-- A text that was cut one byte short of its field. -/
theorem fixedField_take (size : Nat) (text : List UInt8) :
    fixedField (size + 1) (text.take size) = fixedField size text ++ [0] := by
  have hzeros : size + 1 - (text.take size).length = size - text.length + 1 := by
    rw [List.length_take]
    omega
  rw [fixedField, fixedField, List.take_take, Nat.min_eq_right (Nat.le_succ size), hzeros,
    List.replicate_succ', List.append_assoc]

/-! ## Digits -/

/-- The digit of a number that a byte is. -/
def hexDigit (b : UInt8) : Option Nat :=
  if 0x30 ≤ b ∧ b ≤ 0x39 then some (b.toNat - 0x30)
  else if 0x61 ≤ b ∧ b ≤ 0x66 then some (b.toNat - 0x61 + 10)
  else if 0x41 ≤ b ∧ b ≤ 0x46 then some (b.toNat - 0x41 + 10)
  else none

/-- The number that is written in base 16, if there are digits only. -/
def readHex (digits : List UInt8) : Option Nat :=
  digits.foldlM (fun n b => (hexDigit b).map (16 * n + ·)) 0

/-- A byte that is no digit ends no number. -/
theorem readHex_append_of_hexDigit {digits : List UInt8} {b : UInt8} (h : hexDigit b = none) :
    readHex (digits ++ [b]) = none := by
  rw [readHex, List.foldlM_append]
  cases digits.foldlM (fun n b => (hexDigit b).map (16 * n + ·)) 0 with
  | none => rfl
  | some n =>
    rw [Option.bind_eq_bind, Option.bind_some, List.foldlM_cons, h]
    rfl

/-- The outcome of appending a number of `size` digits: behind what was there before are
`size` bytes more, which are the number in base 16. -/
def AppendsHex (size v : Nat) (raw : DmrRaw) (r : Int × DmrRaw) : Prop :=
  r.1 = 0 ∧ ∃ digits, r.2.content = raw.content ++ digits ∧ digits.length = size ∧
    readHex digits = some v

/-- Whatever the size of the field is, its last byte is no digit. -/
theorem not_appendsHex_dmrRawAddX (size : Nat) (grown : Bool) (raw : DmrRaw) (v : Nat) :
    ¬ AppendsHex (size + 1) v raw (dmrRawAddX (size + 1) grown raw v) := by
  rintro ⟨hret, digits, hcontent, hlen, hread⟩
  obtain ⟨old, hold⟩ := content_dmrRawAdd grown raw _ hret
  rw [dmrRawAddX] at hcontent
  rw [hcontent, Nat.add_sub_cancel, fixedField_take] at hold
  -- the new bytes are the field
  have hdigits : digits = fixedField size (formatNat 16 (size + 1) v) ++ [0] := by
    refine (List.append_inj' hold ?_).2
    rw [hlen, List.length_append, length_fixedField]
    rfl
  rw [hdigits, readHex_append_of_hexDigit (by decide)] at hread
  cases hread

/-- **Hexadecimal numbers.** None of the four functions ever appends its number, whatever is
in the buffer, and whether or not the buffer has to grow. -/
theorem not_appendsHex (grown : Bool) (raw : DmrRaw) :
    (∀ v : UInt16, ¬ AppendsHex 4 v.toNat raw (dmrRawAddXuint16 grown raw v)) ∧
      (∀ v : UInt32, ¬ AppendsHex 6 v.toNat raw (dmrRawAddXuint24 grown raw v)) ∧
      (∀ v : UInt32, ¬ AppendsHex 8 v.toNat raw (dmrRawAddXuint32 grown raw v)) ∧
      ∀ v : UInt64, ¬ AppendsHex 16 v.toNat raw (dmrRawAddXuint64 grown raw v) :=
  ⟨fun v => not_appendsHex_dmrRawAddX 3 grown raw v.toNat,
    fun v => not_appendsHex_dmrRawAddX 5 grown raw v.toNat,
    fun v => dmrRawAddXuint32_eq grown raw v ▸ not_appendsHex_dmrRawAddX 7 grown raw v.toNat,
    fun v => not_appendsHex_dmrRawAddX 15 grown raw v.toNat⟩

/-- Repeater 2042001 is `001f2891`, and its last digit is missing. -/
theorem not_appendsHex_repeater :
    (dmrRawAddXuint32 true (.holding 128 []) 2042001).2.content =
      [0x30, 0x30, 0x31, 0x66, 0x32, 0x38, 0x39, 0] ∧
      ¬ AppendsHex 8 2042001 (.holding 128 []) (dmrRawAddXuint32 true (.holding 128 []) 2042001) :=
  ⟨by decide +kernel, not_appendsHex_dmrRawAddX 7 true (.holding 128 []) 2042001⟩

end Dmrlib
