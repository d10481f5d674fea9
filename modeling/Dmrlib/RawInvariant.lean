import Dmrlib.RawMemory
import Dmrlib.Lib.Run

/-!
# What raw buffers hold (`src/dmr/raw.c`)

A raw buffer goes through additions, growth, `dmr_raw_reset` and `dmr_raw_zero`, in any order,
with an allocator that may fail each time. `Represents raw bytes` is what is to be true of it
all along: the fields are right, `bytes` are in it, and zeros behind them. `RawState` remembers
which bytes those should be, from what the calls returned.

The calls are seen twice: in memory (`RawOp.run`), and without types (`RawOp.perform`), where
what they do to a buffer is a few equations. The first refines the second as long as the size of
a new block fits the 32 bits that `talloc_realloc` has for it, and with that every run is as it
should be: `after_represents`. Beyond, it never is: `run_ok_iff`.

- `RawOp`, `RawCall`: an operation on a buffer, and a call of it with or without memory.
- `Represents`: the invariant.
- `rawStep`: one call, which also keeps book of what the buffer is to hold.
- `after_represents`: in a run whose sizes all fit, the buffer holds what the calls have put there.
- `RawOp.run_ok_iff`: one call keeps the fields right exactly when the new size fits 32 bits.
-/

namespace Dmrlib

open RawMemory (Memory Fits Refines lowBytes)

/-- The calls on a buffer, but for those that print hexadecimal numbers. -/
inductive RawOp
  | add (bytes : List UInt8)
  | addHex (bytes : List UInt8)
  | addUint8 (v : UInt8)
  | addUint16 (v : UInt16)
  | addUint24 (v : UInt32)
  | addUint32 (v : UInt32)
  | addUint64 (v : UInt64)
  | addXuint8 (v : UInt8)
  | addf (len : UInt64) (text : List UInt8)
  | grow (len : UInt64)
  | reset
  | zero

namespace RawOp

/-- The call, in memory. -/
def run (bhex : UInt8 → UInt8) (mem : Memory) (raw : RawMemory.DmrRaw) :
    RawOp → Option (Int × RawMemory.DmrRaw)
  | add bytes => RawMemory.dmrRawAdd mem raw bytes
  | addHex bytes => RawMemory.dmrRawAddHex bhex mem raw bytes
  | addUint8 v => RawMemory.dmrRawAddUint8 mem raw v
  | addUint16 v => RawMemory.dmrRawAddUint16 mem raw v
  | addUint24 v => RawMemory.dmrRawAddUint24 mem raw v
  | addUint32 v => RawMemory.dmrRawAddUint32 mem raw v
  | addUint64 v => RawMemory.dmrRawAddUint64 mem raw v
  | addXuint8 v => RawMemory.dmrRawAddXuint8 bhex mem raw v
  | addf len text => RawMemory.dmrRawAddf mem raw len text
  | grow len => RawMemory.dmrRawGrow mem raw len
  | reset => RawMemory.dmrRawReset raw
  | zero => RawMemory.dmrRawZero raw

/-- The call, without types. -/
def perform (bhex : UInt8 → UInt8) (grown : Bool) (raw : DmrRaw) : RawOp → Int × DmrRaw
  | add bytes => dmrRawAdd grown raw bytes
  | addHex bytes => dmrRawAddHex bhex grown raw bytes
  | addUint8 v => dmrRawAddUint8 grown raw v
  | addUint16 v => dmrRawAdd grown raw (lowBytes 2 v.toNat)
  | addUint24 v => dmrRawAddUint24 grown raw v
  | addUint32 v => dmrRawAddUint32 grown raw v
  | addUint64 v => dmrRawAdd grown raw (lowBytes 8 v.toNat)
  | addXuint8 v => dmrRawAdd grown raw (hexBytes bhex [v])
  | addf len text => dmrRawAddf grown raw len.toNat text
  | grow len => dmrRawGrow grown raw len.toNat
  | reset => dmrRawReset raw
  | zero => dmrRawZero raw

/-- The size that a buffer with `len` bytes in it is asked to have. -/
def request (len : Nat) : RawOp → Nat
  | add bytes => len + bytes.length
  | addHex bytes => len + 2 * bytes.length
  | addUint8 _ => len + 1
  | addUint16 _ => len + 2
  | addUint24 _ => len + 3
  | addUint32 _ => len + 4
  | addUint64 _ => len + 8
  | addXuint8 _ => len + 2
  | addf width _ => len + width.toNat + 1
  | grow size => size.toNat
  | reset => 0
  | zero => 0

/-- What should be in the buffer after a call that succeeds. -/
def effect (bhex : UInt8 → UInt8) (old : List UInt8) : RawOp → List UInt8
  | add bytes => old ++ bytes
  | addHex bytes => old ++ hexBytes bhex bytes
  | addUint8 v => old ++ [v]
  | addUint16 v => old ++ lowBytes 2 v.toNat
  | addUint24 v => old ++ lowBytes 3 v.toNat
  | addUint32 v => old ++ lowBytes 4 v.toNat
  | addUint64 v => old ++ lowBytes 8 v.toNat
  | addXuint8 v => old ++ hexBytes bhex [v]
  | addf width text => old ++ fixedField width.toNat text
  | grow _ => old
  | reset => []
  | zero => List.replicate old.length 0

/-- The calls do in memory what they do without types. -/
theorem run_refines (bhex : UInt8 → UInt8) (mem : Memory) {raw : RawMemory.DmrRaw} (h : raw.Ok)
    {op : RawOp} (h62 : op.request raw.len.toNat < 2 ^ 62)
    (hfits : Fits raw (op.request raw.len.toNat)) :
    Refines (op.run bhex mem raw) (op.perform bhex mem.isSome raw.toRaw) := by
  cases op with
  | add bytes => exact RawMemory.dmrRawAdd_refines mem h h62 hfits
  | addHex bytes => exact RawMemory.dmrRawAddHex_refines mem h bhex h62 hfits
  | addUint8 v => exact RawMemory.dmrRawAddUint8_refines mem h h62 hfits
  | addUint16 v => exact RawMemory.dmrRawAddU_refines mem h (by decide) h62 hfits
  | addUint24 v => exact RawMemory.dmrRawAddUint24_refines mem h h62 hfits
  | addUint32 v => exact RawMemory.dmrRawAddUint32_refines mem h h62 hfits
  | addUint64 v => exact RawMemory.dmrRawAddU_refines mem h (by decide) h62 hfits
  | addXuint8 v => exact RawMemory.dmrRawAddXuint8_refines mem h bhex h62 hfits
  | addf len text => exact RawMemory.dmrRawAddf_refines mem h h62 hfits
  | grow len => exact RawMemory.dmrRawGrow_refines mem h h62 hfits
  | reset => exact RawMemory.dmrRawReset_refines h
  | zero => exact RawMemory.dmrRawZero_refines h

end RawOp

/-! ## Buffers without types

The calls as operations on a list of bytes and a size.
-/

/-- The size of a buffer that was asked to have `len` bytes. -/
def grownTo (allocated len : Nat) : Nat := if len < allocated then allocated else roundUp len

theorem le_grownTo (allocated len : Nat) : len ≤ grownTo allocated len := by
  unfold grownTo
  split
  next h => exact h.le
  next => exact RawMemory.le_roundUp len

theorem le_grownTo_allocated (allocated len : Nat) : allocated ≤ grownTo allocated len := by
  unfold grownTo
  split
  next => exact le_rfl
  next h => exact (Nat.not_lt.mp h).trans (RawMemory.le_roundUp len)

theorem dvd_grownTo {allocated : Nat} (h : 128 ∣ allocated) (len : Nat) :
    128 ∣ grownTo allocated len := by
  unfold grownTo
  split
  next => exact h
  next => exact RawMemory.dvd_roundUp len

/-- What a call makes of a buffer with `old` in it: when there is room or memory, `new` is in it
after the call, and otherwise nothing has changed. -/
def outcome (grown : Bool) (allocated len : Nat) (old new : List UInt8) : Int × DmrRaw :=
  if len < allocated ∨ grown = true then (0, .holding (grownTo allocated len) new)
  else (-1, .holding allocated old)

section Holding

variable (grown : Bool) {allocated : Nat} {old : List UInt8} (h : old.length ≤ allocated)

include h

theorem dmrRawGrow_outcome (len : Nat) :
    dmrRawGrow grown (.holding allocated old) len = outcome grown allocated len old old := by
  unfold dmrRawGrow outcome grownTo
  rw [DmrRaw.length_buf_holding h, DmrRaw.content_holding]
  by_cases hlt : len < allocated
  · rw [if_pos hlt, if_pos hlt, if_pos (.inl hlt)]
  · rw [if_neg hlt, if_neg hlt]
    cases grown with
    | true =>
      rw [if_pos rfl, if_pos (.inr rfl)]
      rfl
    | false => rw [if_neg Bool.false_ne_true, if_neg (by simp [hlt])]

/-- What is written fits in when the buffer has grown. -/
theorem grow_outcome {len : Nat} {new : List UInt8} (write : DmrRaw → DmrRaw)
    (hwrite : ∀ size, len ≤ size → write (.holding size old) = .holding size new) :
    (let (ret, raw) := dmrRawGrow grown (.holding allocated old) len
    if ret ≠ 0 then (-1, raw) else (0, write raw)) = outcome grown allocated len old new := by
  rw [dmrRawGrow_outcome grown h, outcome, outcome]
  by_cases hroom : len < allocated ∨ grown = true
  · rw [if_pos hroom, if_pos hroom]
    exact congrArg (Prod.mk 0) (hwrite _ (le_grownTo allocated len))
  · rw [if_neg hroom, if_neg hroom]
    rfl

theorem dmrRawAdd_outcome (bytes : List UInt8) :
    dmrRawAdd grown (.holding allocated old) bytes =
      outcome grown allocated (old.length + bytes.length) old (old ++ bytes) :=
  grow_outcome grown h (fun raw => ⟨raw.put bytes, raw.len + bytes.length⟩)
    fun size _ => put_bytes_holding size old bytes

theorem dmrRawAddf_outcome (width : Nat) (text : List UInt8) :
    dmrRawAddf grown (.holding allocated old) width text =
      outcome grown allocated (old.length + (width + 1)) old (old ++ fixedField width text) :=
  grow_outcome grown h
    (fun raw => ⟨raw.put (text.take width ++ [0]), raw.len + width⟩)
    fun _ hsize => put_text_holding text hsize

theorem dmrRawReset_outcome (hpos : 0 < allocated) :
    dmrRawReset (.holding allocated old) = outcome grown allocated 0 old [] := by
  rw [dmrRawReset, DmrRaw.length_buf_holding h, outcome, if_pos (.inl hpos), grownTo, if_pos hpos]
  rfl

omit h in
theorem dmrRawZero_outcome (hpos : 0 < allocated) :
    dmrRawZero (.holding allocated old) =
      outcome grown allocated 0 old (List.replicate old.length 0) := by
  have hdrop : (DmrRaw.holding allocated old).buf.drop old.length =
      List.replicate (allocated - old.length) 0 := List.drop_left
  have hnew : DmrRaw.holding allocated (List.replicate old.length 0) =
      ⟨List.replicate old.length 0 ++ List.replicate (allocated - old.length) 0, old.length⟩ := by
    rw [DmrRaw.holding, List.length_replicate]
  rw [outcome, if_pos (.inl hpos), grownTo, if_pos hpos, hnew, ← hdrop]
  rfl

/-- **Every call**, seen without types: what it asks for decides whether it needs memory, and
without memory nothing has changed. -/
theorem perform_outcome (hpos : 0 < allocated) (bhex : UInt8 → UInt8) (op : RawOp) :
    op.perform bhex grown (.holding allocated old) =
      outcome grown allocated (op.request old.length) old (op.effect bhex old) := by
  cases op with
  | add bytes => exact dmrRawAdd_outcome grown h bytes
  | addHex bytes =>
    have key := dmrRawAdd_outcome grown h (hexBytes bhex bytes)
    rw [length_hexBytes] at key
    exact key
  | addUint8 v => exact dmrRawAdd_outcome grown h [v]
  | addUint16 v => exact dmrRawAdd_outcome grown h (lowBytes 2 v.toNat)
  | addUint24 v =>
    rw [RawOp.effect, ← RawMemory.uintBytes_eq]
    exact dmrRawAdd_outcome grown h (uintBytes 3 v)
  | addUint32 v =>
    rw [RawOp.effect, ← RawMemory.uintBytes_eq]
    exact dmrRawAdd_outcome grown h (uintBytes 4 v)
  | addUint64 v => exact dmrRawAdd_outcome grown h (lowBytes 8 v.toNat)
  | addXuint8 v => exact dmrRawAdd_outcome grown h (hexBytes bhex [v])
  | addf width text => exact dmrRawAddf_outcome grown h width.toNat text
  | grow len => exact dmrRawGrow_outcome grown h len.toNat
  | reset => exact dmrRawReset_outcome grown h hpos
  | zero => exact dmrRawZero_outcome grown hpos

end Holding

/-! ## Runs

The record of a run says what should be in the buffer; the invariant says that it is.
-/

/-- What is to be true of a buffer: `buf` leads to `allocated` bytes, a multiple of 128, of which
`len` are in use; those are `bytes`, and the rest is zero. -/
structure Represents (raw : RawMemory.DmrRaw) (bytes : List UInt8) : Prop where
  len_le : (raw.len.toNat : Int) ≤ raw.allocated.toInt
  aligned : 128 ∣ raw.allocated.toInt
  pos : 0 < raw.allocated.toInt
  block : (raw.buf.length : Int) = raw.allocated.toInt
  content : raw.buf.take raw.len.toNat = bytes
  tail : ∀ b ∈ raw.buf.drop raw.len.toNat, b = 0

/-- In other words, the buffer is right and holds the bytes. -/
theorem represents_iff {raw : RawMemory.DmrRaw} {bytes : List UInt8} :
    Represents raw bytes ↔ raw.Ok ∧ 128 ∣ raw.buf.length ∧ bytes.length ≤ raw.buf.length ∧
      raw.toRaw = .holding raw.buf.length bytes := by
  constructor
  · rintro ⟨hlen, haligned, hpos, hblock, hcontent, htail⟩
    have hle : raw.len.toNat ≤ raw.buf.length := by omega
    have hbytes : bytes.length = raw.len.toNat := by
      rw [← hcontent, List.length_take]
      omega
    refine ⟨⟨by omega, hblock.symm, hle⟩, by omega, by omega, ?_⟩
    have hbuf : raw.buf = bytes ++ List.replicate (raw.buf.length - bytes.length) 0 := by
      have hzeros : raw.buf.drop raw.len.toNat =
          List.replicate (raw.buf.length - raw.len.toNat) 0 :=
        List.eq_replicate_iff.mpr ⟨List.length_drop, htail⟩
      rw [hbytes, ← hzeros, ← hcontent, List.take_append_drop]
    show (⟨raw.buf, raw.len.toNat⟩ : DmrRaw) = ⟨_, bytes.length⟩
    rw [← hbuf, hbytes]
  · rintro ⟨⟨hpos, hallocated, hlen⟩, haligned, hle, hraw⟩
    have hbuf : raw.buf = bytes ++ List.replicate (raw.buf.length - bytes.length) 0 :=
      congrArg DmrRaw.buf hraw
    have hbytes : raw.len.toNat = bytes.length := congrArg DmrRaw.len hraw
    refine ⟨by omega, by omega, by omega, hallocated.symm, ?_, ?_⟩
    · rw [hbytes, hbuf, List.take_left]
    · rw [hbytes, hbuf, List.drop_left]
      exact fun b hb => List.eq_of_mem_replicate hb

/-- A buffer, and what should be in it: what the additions since the last reset have put there
that succeeded, where `dmr_raw_zero` has turned what came before it into zeros. -/
structure RawState where
  raw : RawMemory.DmrRaw
  bytes : List UInt8

/-- A call, and what the allocator has for it. -/
structure RawCall where
  op : RawOp
  mem : Memory

/-- The size a call asks for. -/
def RawCall.request (c : RawCall) (s : RawState) : Nat := c.op.request s.raw.len.toNat

/-- The call needs memory, and there is none. -/
def RawCall.Fails (c : RawCall) (s : RawState) : Prop :=
  s.raw.allocated.toInt ≤ c.request s ∧ c.mem = none

/-- One call; a call that returns 0 has had its effect. -/
def rawStep (bhex : UInt8 → UInt8) (s : RawState) (c : RawCall) : Option RawState :=
  (c.op.run bhex c.mem s.raw).map fun (ret, raw) =>
    ⟨raw, if ret = 0 then c.op.effect bhex s.bytes else s.bytes⟩

/-- How a call should end: it stores nothing outside of the buffer, and returns 0, unless it
needs memory that is not there, and leaves the buffer as it was. -/
def Ends (bhex : UInt8 → UInt8) (s : RawState) (c : RawCall) : Prop :=
  (c.Fails s → c.op.run bhex c.mem s.raw = some (-1, s.raw)) ∧
    (¬ c.Fails s → ∃ raw, c.op.run bhex c.mem s.raw = some (0, raw))

/-- The sizes of a run stay below 2^62, and where a new block is allocated, its size fits 32
bits. -/
def SizesFit (s : RawState) (c : RawCall) : Prop :=
  c.request s < 2 ^ 62 ∧ Fits s.raw (c.request s)

instance SizesFit.decidable (s : RawState) (c : RawCall) : Decidable (SizesFit s c) :=
  inferInstanceAs (Decidable (_ ∧ _))

/-- What a call without types amounts to, in memory. -/
theorem run_of_represents (bhex : UInt8 → UInt8) {s : RawState} {c : RawCall}
    (h : Represents s.raw s.bytes) (hsize : SizesFit s c) :
    ∃ ret raw, c.op.run bhex c.mem s.raw = some (ret, raw) ∧ raw.Ok ∧
      (ret, raw.toRaw) = outcome c.mem.isSome s.raw.buf.length (c.request s) s.bytes
        (c.op.effect bhex s.bytes) := by
  obtain ⟨hok, -, hle, hraw⟩ := represents_iff.mp h
  obtain ⟨raw, hrun, hok', hraw'⟩ := c.op.run_refines bhex c.mem hok hsize.1 hsize.2
  have hlen : s.raw.len.toNat = s.bytes.length := congrArg DmrRaw.len hraw
  have key := perform_outcome c.mem.isSome hle hok.pos bhex c.op
  rw [← hraw, ← hlen] at key
  refine ⟨_, raw, hrun, hok', ?_⟩
  rw [hraw', key]
  rfl

/-- The bytes a call should leave always fit what it has asked for. -/
theorem length_effect_le (bhex : UInt8 → UInt8) (old : List UInt8) (op : RawOp) :
    (op.effect bhex old).length ≤ max old.length (op.request old.length) := by
  cases op <;> simp [RawOp.effect, RawOp.request, length_hexBytes]

theorem fails_iff {s : RawState} (h : s.raw.Ok) (c : RawCall) :
    c.Fails s ↔ ¬ (c.request s < s.raw.buf.length ∨ c.mem.isSome = true) := by
  unfold RawCall.Fails
  rw [h.allocated, not_or, Bool.not_eq_true, Option.isSome_eq_false_iff, Option.isNone_iff_eq_none,
    Nat.not_lt, Nat.cast_le]

theorem ends_of_represents (bhex : UInt8 → UInt8) {s : RawState} {c : RawCall}
    (h : Represents s.raw s.bytes) (hsize : SizesFit s c) : Ends bhex s c := by
  obtain ⟨hok, -, -, hraw⟩ := represents_iff.mp h
  obtain ⟨ret, raw, hrun, hok', hout⟩ := run_of_represents bhex h hsize
  unfold outcome at hout
  constructor
  · intro hfails
    rw [if_neg ((fails_iff hok c).mp hfails)] at hout
    obtain ⟨rfl, hraw'⟩ := Prod.mk.inj hout
    rw [hrun, hok'.eq_of_toRaw hok (hraw'.trans hraw.symm)]
  · intro hfails
    rw [if_pos (not_not.mp ((fails_iff hok c).not.mp hfails))] at hout
    exact ⟨raw, hrun.trans (by rw [(Prod.mk.inj hout).1])⟩

/-- **One call** keeps the buffer right. -/
theorem represents_of_step (bhex : UInt8 → UInt8) {s s' : RawState} {c : RawCall}
    (h : Represents s.raw s.bytes) (hsize : SizesFit s c) (hstep : rawStep bhex s c = some s') :
    Represents s'.raw s'.bytes := by
  obtain ⟨hok, haligned, hle, hraw⟩ := represents_iff.mp h
  obtain ⟨ret, raw, hrun, hok', hout⟩ := run_of_represents bhex h hsize
  rw [rawStep, hrun] at hstep
  cases hstep
  have hlen : s.raw.len.toNat = s.bytes.length := congrArg DmrRaw.len hraw
  unfold outcome at hout
  by_cases hroom : c.request s < s.raw.buf.length ∨ c.mem.isSome = true
  · rw [if_pos hroom] at hout
    obtain ⟨rfl, hraw'⟩ := Prod.mk.inj hout
    -- what was put into the buffer is not longer than it is now
    have hfit : (c.op.effect bhex s.bytes).length ≤ grownTo s.raw.buf.length (c.request s) := by
      have hreq := le_grownTo s.raw.buf.length (c.request s)
      have hold := le_grownTo_allocated s.raw.buf.length (c.request s)
      have heff := length_effect_le bhex s.bytes c.op
      rw [RawCall.request, hlen] at hreq hold ⊢
      omega
    have hbuf : raw.buf.length = grownTo s.raw.buf.length (c.request s) := by
      have hbuf := congrArg (fun raw : DmrRaw => raw.buf.length) hraw'
      simp only [DmrRaw.holding, List.length_append, List.length_replicate] at hbuf
      change raw.buf.length = _ at hbuf
      omega
    show Represents raw (c.op.effect bhex s.bytes)
    refine represents_iff.mpr ⟨hok', ?_, ?_, ?_⟩
    · rw [hbuf]
      exact dvd_grownTo haligned _
    · rw [hbuf]
      exact hfit
    · rw [hbuf]
      exact hraw'
  · rw [if_neg hroom] at hout
    obtain ⟨rfl, hraw'⟩ := Prod.mk.inj hout
    show Represents raw s.bytes
    rw [hok'.eq_of_toRaw hok (hraw'.trans hraw.symm)]
    exact h

/-- A new buffer is empty. -/
theorem represents_new {size : UInt64} (hpos : 1 ≤ size) (h62 : size.toNat < 2 ^ 62)
    {raw : RawMemory.DmrRaw} (h : RawMemory.dmrRawNew true true size = some raw) :
    Represents raw [] := by
  have hround := RawMemory.toNat_roundUp h62
  have hle := RawMemory.le_roundUp size.toNat
  have hlt : roundUp size.toNat < 2 ^ 63 := by
    unfold roundUp
    omega
  have hsize : 1 ≤ size.toNat := UInt64.le_iff_toNat_le.mp hpos
  cases h
  have hallocated := RawMemory.toInt_toInt64 ((size + 127) &&& -128) (by omega)
  have hbuf : (List.replicate ((size + 127) &&& -128).toNat (0 : UInt8)).length =
      ((size + 127) &&& -128).toNat := List.length_replicate
  refine represents_iff.mpr ⟨⟨?_, ?_, Nat.zero_le _⟩, ?_, Nat.zero_le _, ?_⟩
  · rw [hbuf, hround]
    omega
  · rw [hbuf]
    exact hallocated
  · rw [hbuf, hround]
    exact RawMemory.dvd_roundUp _
  · rw [hbuf]
    rfl

/-- **Raw buffers.** Whatever is done to a new buffer, and whether or not there is memory for it,
as long as the sizes fit: the buffer is right, it holds what the calls that succeeded have put
there, and every call on the way ends as it should. -/
theorem after_represents (bhex : UInt8 → UInt8) {size : UInt64} (hpos : 1 ≤ size)
    (h62 : size.toNat < 2 ^ 62) {raw : RawMemory.DmrRaw}
    (hnew : RawMemory.dmrRawNew true true size = some raw) {calls : List RawCall}
    (hsizes : Run.Throughout (rawStep bhex) SizesFit ⟨raw, []⟩ calls) :
    (∃ s, Run.after (rawStep bhex) ⟨raw, []⟩ calls = some s ∧ Represents s.raw s.bytes) ∧
      Run.Throughout (rawStep bhex) (Ends bhex) ⟨raw, []⟩ calls := by
  have hstart : Represents raw [] := represents_new hpos h62 hnew
  constructor
  · refine Run.Throughout.exists_after (I := fun s => Represents s.raw s.bytes)
      (fun s c hs hsize => ?_) hstart hsizes
    obtain ⟨ret, raw', hrun, -, -⟩ := run_of_represents bhex hs hsize
    have hstep : rawStep bhex s c =
        some ⟨raw', if ret = 0 then c.op.effect bhex s.bytes else s.bytes⟩ := by
      rw [rawStep, hrun]
      rfl
    exact ⟨_, hstep, represents_of_step bhex hs hsize hstep⟩
  · exact Run.Throughout.mono (I := fun s => Represents s.raw s.bytes)
      (fun s c hs hsize => ends_of_represents bhex hs hsize)
      (fun s c s' hs hsize hstep => represents_of_step bhex hs hsize hstep) hstart hsizes

/-- The key that a repeater sends, with a field that is too short for its text, through growth
without and with memory for it, a reset, and another addition. -/
theorem after_represents_key :
    ((∃ s, Run.after (rawStep id) ⟨⟨List.replicate 128 0, 128, 0⟩, []⟩
        [⟨.add [0x52, 0x50, 0x54, 0x4b], none⟩, ⟨.addf 2 [0x31, 0x32, 0x33], none⟩,
          ⟨.grow 128, none⟩, ⟨.grow 128, some fun _ => 7⟩, ⟨.zero, none⟩, ⟨.reset, none⟩,
          ⟨.addUint16 0x0102, none⟩] = some s ∧ Represents s.raw s.bytes) ∧
      Run.Throughout (rawStep id) (Ends id) ⟨⟨List.replicate 128 0, 128, 0⟩, []⟩
        [⟨.add [0x52, 0x50, 0x54, 0x4b], none⟩, ⟨.addf 2 [0x31, 0x32, 0x33], none⟩,
          ⟨.grow 128, none⟩, ⟨.grow 128, some fun _ => 7⟩, ⟨.zero, none⟩, ⟨.reset, none⟩,
          ⟨.addUint16 0x0102, none⟩]) :=
  @after_represents id 76 (by decide) (by decide) _ rfl _ (by decide +kernel)

/-- A size of 2^32 + 1 is 128 for the allocator: the tail that is cleared lies outside of the
block. And to have 2^32 bytes is to have none: without memory, the buffer is gone. -/
theorem not_after_represents :
    ∃ raw, RawMemory.dmrRawNew true true 12 = some raw ∧
      Run.Throughout (rawStep id) (fun s c => c.request s < 2 ^ 62) ⟨raw, []⟩
        [⟨.grow 0x100000001, some fun _ => 0⟩] ∧
      Run.after (rawStep id) ⟨raw, []⟩ [⟨.grow 0x100000001, some fun _ => 0⟩] = none ∧
      RawCall.Fails ⟨.grow 0x100000000, none⟩ ⟨raw, []⟩ ∧
      RawOp.run id none raw (.grow 0x100000000) = some (-1, { raw with buf := [] }) := by
  refine ⟨⟨List.replicate 128 0, 128, 0⟩, rfl, ⟨by decide, fun _ _ => trivial⟩, ?_,
    ⟨by decide, rfl⟩, rfl⟩
  have hout : RawMemory.byteZero (Block.resize (fun _ => (0 : UInt8)) (List.replicate 128 0) 128) 0
      0x100000080 = none := by
    refine Block.storeAll_eq_none ?_ ?_
    · intro h0
      have hlen := congrArg List.length h0
      rw [List.length_replicate] at hlen
      cases hlen
    · rw [Block.length_resize, List.length_replicate]
      decide
  have hgrow : RawOp.run id (some fun _ => 0) ⟨List.replicate 128 0, 128, 0⟩
      (.grow 0x100000001) =
      (RawMemory.byteZero (Block.resize (fun _ => (0 : UInt8)) (List.replicate 128 0) 128) 0
        0x100000080).map fun buf => (0, ⟨buf, 0x100000080, 0⟩) := rfl
  rw [Run.after, rawStep, hgrow, hout]
  rfl

/-! ## Sizes that do not fit

The new size loses its upper bits, so the block is smaller than the buffer says.
-/

/-- A call that asks for a size that does not fit, and gets memory, leaves a buffer whose block has
another size than `allocated`, if it comes through at all. -/
theorem RawOp.allocated_ne_of_run (bhex : UInt8 → UInt8) {raw raw' : RawMemory.DmrRaw}
    (h : raw.Ok) {op : RawOp} (h62 : op.request raw.len.toNat < 2 ^ 62)
    (hfits : ¬ Fits raw (op.request raw.len.toNat)) {junk : Nat → UInt8} {ret : Int}
    (hrun : op.run bhex (some junk) raw = some (ret, raw')) :
    raw'.allocated.toInt ≠ raw'.buf.length := by
  have hsmall : Fits raw 0 := .inr (by decide)
  -- the size that arrives in `talloc_realloc` is too small, and the write stays in that block
  cases op with
  | add bytes =>
    rw [request] at h62 hfits
    have hlen : (UInt64.ofNat bytes.length).toNat = bytes.length :=
      RawMemory.toNat_ofNat (by omega)
    exact RawMemory.allocated_ne_of_growThen h (RawMemory.keepsBlock_append bytes _)
      (by rwa [hlen]) (by rwa [hlen]) hrun
  | addHex bytes =>
    rw [request] at h62 hfits
    have hhex := length_hexBytes bhex bytes
    exact RawMemory.allocated_ne_of_pushes h _ ((RawMemory.toNat_hexLen (by omega)).trans hhex.symm)
      (RawMemory.pushHex_eq bhex bytes) (by rwa [hhex]) (by rwa [hhex]) hrun
  | addUint8 v =>
    exact RawMemory.allocated_ne_of_pushes h [v] rfl
      (fun raw => (Option.bind_fun_some (raw.push v)).symm) h62 hfits hrun
  | addUint16 v => exact RawMemory.allocated_ne_of_addU h (by decide) h62 hfits hrun
  | addUint24 v => exact RawMemory.allocated_ne_of_addU h (by decide) h62 hfits hrun
  | addUint32 v => exact RawMemory.allocated_ne_of_addU h (by decide) h62 hfits hrun
  | addUint64 v => exact RawMemory.allocated_ne_of_addU h (by decide) h62 hfits hrun
  | addXuint8 v =>
    exact RawMemory.allocated_ne_of_pushes h (hexBytes bhex [v]) rfl
      (fun _ => Option.bind_congr fun _ _ => (Option.bind_fun_some _).symm) h62 hfits hrun
  | addf width text =>
    rw [request] at h62 hfits
    have hlen : (width + 1).toNat = width.toNat + 1 := RawMemory.toNat_add (by
      show width.toNat + 1 < 2 ^ 64
      omega)
    exact RawMemory.allocated_ne_of_growThen h (RawMemory.keepsBlock_append _ width)
      (by rwa [hlen]) (by rwa [hlen]) hrun
  | grow len => exact RawMemory.allocated_ne_of_grow h h62 hfits hrun
  | reset => exact absurd hsmall hfits
  | zero => exact absurd hsmall hfits

/-- **The sizes that fit** are those with which a call leaves the buffer right, whatever the
allocator has. -/
theorem RawOp.run_ok_iff (bhex : UInt8 → UInt8) {raw : RawMemory.DmrRaw} (h : raw.Ok) {op : RawOp}
    (h62 : op.request raw.len.toNat < 2 ^ 62) :
    (∀ mem, ∃ ret raw', op.run bhex mem raw = some (ret, raw') ∧ raw'.Ok) ↔
      Fits raw (op.request raw.len.toNat) := by
  constructor
  · intro hall
    by_contra hfits
    obtain ⟨ret, raw', hrun, hok⟩ := hall (some fun _ => 0)
    exact allocated_ne_of_run bhex h h62 hfits hrun hok.allocated
  · intro hfits mem
    obtain ⟨raw', hrun, hok, -⟩ := op.run_refines bhex mem h h62 hfits
    exact ⟨_, raw', hrun, hok⟩

end Dmrlib
