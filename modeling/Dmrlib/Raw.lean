import Dmrlib.Lib.CString

/-!
# Raw buffers (`src/dmr/raw.c`)

A `dmr_raw` is a growing byte buffer that datagrams are assembled in. Its size is a
multiple of 128, and it grows when an addition would fill it to the last byte.

The proofs see a buffer through `DmrRaw.holding`: what has been added so far, followed
by zeros. As long as there is room, every addition appends to that.

- `DmrRaw`: a buffer with its size and the number of bytes used.
- `dmrRawAdd`, `dmrRawAddHex`, `dmrRawAddf` and their relatives: the additions, each of which
  may have to grow the buffer first (`dmrRawGrowAdd`).
- `DmrRaw.holding`: the buffer after the additions of given bytes.
- `dmrRawAdd_holding`, `dmrRawAddf_holding`: an addition appends to what a buffer holds.

What happens when memory or 32 bits run out is the business of `Dmrlib.RawMemory`.
-/

namespace Dmrlib

/-- `dmr_raw`: `allocated` is the length of `buf`. -/
structure DmrRaw where
  buf : List UInt8
  len : Nat

namespace DmrRaw

/-- The bytes that have been added. -/
def content (raw : DmrRaw) : List UInt8 := raw.buf.take raw.len

/-- A store of `bytes` at `buf + len`. -/
def put (raw : DmrRaw) (bytes : List UInt8) : List UInt8 :=
  raw.buf.take raw.len ++ bytes ++ raw.buf.drop (raw.len + bytes.length)

end DmrRaw

/-- `(len + 127) & -128` -/
def roundUp (len : Nat) : Nat := (len + 127) / 128 * 128

/-- `dmr_raw_new`; `allocated` tells whether there is memory for the buffer. -/
def dmrRawNew (allocated : Bool) (len : Nat) : Option DmrRaw :=
  if allocated then some ⟨List.replicate (roundUp len) 0, 0⟩ else none

/-- `dmr_raw_grow`; `grown` tells whether there is memory for a larger buffer. -/
def dmrRawGrow (grown : Bool) (raw : DmrRaw) (len : Nat) : Int × DmrRaw :=
  if len < raw.buf.length then (0, raw)
  else if grown then
    (0, { raw with buf := raw.content ++ List.replicate (roundUp len - raw.len) 0 })
  else (-1, raw)

/-- `dmr_raw_grow_add` -/
def dmrRawGrowAdd (grown : Bool) (raw : DmrRaw) (add : Nat) : Int × DmrRaw :=
  dmrRawGrow grown raw (raw.len + add)

/-- `dmr_raw_add`. Its relatives differ only in what they add. -/
def dmrRawAdd (grown : Bool) (raw : DmrRaw) (bytes : List UInt8) : Int × DmrRaw :=
  let (ret, raw) := dmrRawGrowAdd grown raw bytes.length
  if ret ≠ 0 then (-1, raw) else (0, ⟨raw.put bytes, raw.len + bytes.length⟩)

/-- The two digits of each byte; `bhex` is the table of digits. -/
def hexBytes (bhex : UInt8 → UInt8) (bytes : List UInt8) : List UInt8 :=
  bytes.flatMap fun (b : UInt8) => [bhex (b >>> 4), bhex (b &&& 0x0f)]

theorem length_hexBytes (bhex : UInt8 → UInt8) (bytes : List UInt8) :
    (hexBytes bhex bytes).length = 2 * bytes.length := by
  induction bytes with
  | nil => rfl
  | cons b bytes ih =>
    rw [hexBytes, List.flatMap_cons, List.length_append, ← hexBytes, ih, List.length_cons]
    show 2 + 2 * bytes.length = 2 * (bytes.length + 1)
    omega

/-- `dmr_raw_add_hex` -/
def dmrRawAddHex (bhex : UInt8 → UInt8) (grown : Bool) (raw : DmrRaw) (bytes : List UInt8) :
    Int × DmrRaw :=
  dmrRawAdd grown raw (hexBytes bhex bytes)

/-- `dmr_raw_add_uint8` -/
def dmrRawAddUint8 (grown : Bool) (raw : DmrRaw) (v : UInt8) : Int × DmrRaw :=
  dmrRawAdd grown raw [v]

/-- The bytes the `AU` family of `raw.c` adds, lowest byte first. -/
def uintBytes : (size : Nat) → UInt32 → List UInt8
  | 0, _ => []
  | size + 1, v => v.toUInt8 :: uintBytes size (v >>> 8)

@[simp]
theorem length_uintBytes (size : Nat) (v : UInt32) : (uintBytes size v).length = size := by
  induction size generalizing v with
  | zero => rfl
  | succ size ih => rw [uintBytes, List.length_cons, ih]

/-- `dmr_raw_add_uint24` -/
def dmrRawAddUint24 (grown : Bool) (raw : DmrRaw) (v : UInt32) : Int × DmrRaw :=
  dmrRawAdd grown raw (uintBytes 3 v)

/-- `dmr_raw_add_uint32` -/
def dmrRawAddUint32 (grown : Bool) (raw : DmrRaw) (v : UInt32) : Int × DmrRaw :=
  dmrRawAdd grown raw (uintBytes 4 v)

/-! ## Formatted text -/

/-- An unsigned number in base `base`, padded with zeros to `width` digits: `%0*u` and
`%0*x`. -/
def formatNat (base width n : Nat) : List UInt8 :=
  (CString.digits base n).leftpad width 0x30

/-- A string, padded with blanks on the right: `%-*s`. -/
def formatLeft (width : Nat) (s : CStr) : List UInt8 := s.rightpad width 0x20

/-- What stands in a field of `width` bytes that was zero before, after a text was
printed into it: the text, cut or followed by zeros. -/
def fixedField (width : Nat) (text : List UInt8) : List UInt8 :=
  text.take width ++ List.replicate (width - text.length) 0

@[simp]
theorem length_fixedField (width : Nat) (text : List UInt8) :
    (fixedField width text).length = width := by
  simp only [fixedField, List.length_append, List.length_take, List.length_replicate]
  omega

/-- `dmr_raw_add_xuint32`: `snprintf` is told that there is room for 8 bytes, and the
last of them is the end of the string. -/
def dmrRawAddXuint32 (grown : Bool) (raw : DmrRaw) (v : UInt32) : Int × DmrRaw :=
  dmrRawAdd grown raw (fixedField 8 ((formatNat 16 8 v.toNat).take 7))

/-- `dmr_raw_addf`: `vsnprintf` is told that there is room for one byte more than the
field has. -/
def dmrRawAddf (grown : Bool) (raw : DmrRaw) (width : Nat) (text : List UInt8) : Int × DmrRaw :=
  let (ret, raw) := dmrRawGrowAdd grown raw (width + 1)
  if ret ≠ 0 then (-1, raw) else (0, ⟨raw.put (text.take width ++ [0]), raw.len + width⟩)

/-- `dmr_raw_reset` -/
def dmrRawReset (raw : DmrRaw) : Int × DmrRaw := (0, ⟨List.replicate raw.buf.length 0, 0⟩)

/-- `dmr_raw_zero` -/
def dmrRawZero (raw : DmrRaw) : Int × DmrRaw :=
  (0, { raw with buf := List.replicate raw.len 0 ++ raw.buf.drop raw.len })

/-! ## What a buffer holds -/

/-- A buffer of `allocated` bytes with `bytes` in it. -/
def DmrRaw.holding (allocated : Nat) (bytes : List UInt8) : DmrRaw :=
  ⟨bytes ++ List.replicate (allocated - bytes.length) 0, bytes.length⟩

@[simp]
theorem DmrRaw.content_holding (allocated : Nat) (bytes : List UInt8) :
    (holding allocated bytes).content = bytes :=
  List.take_left

theorem DmrRaw.length_buf_holding {allocated : Nat} {bytes : List UInt8}
    (h : bytes.length ≤ allocated) : (holding allocated bytes).buf.length = allocated := by
  rw [holding, List.length_append, List.length_replicate]
  omega

@[simp]
theorem dmrRawNew_false (len : Nat) : dmrRawNew false len = none := rfl

/-- A new buffer is empty. -/
theorem dmrRawNew_of_allocated {allocated : Bool} (h : allocated = true) (len : Nat) :
    dmrRawNew allocated len = some (.holding (roundUp len) []) := by
  rw [h]
  rfl

section Holding

variable (grown : Bool) {allocated : Nat} {old : List UInt8}

/-- With room to spare nothing needs to grow. -/
theorem dmrRawGrowAdd_holding {add : Nat} (h : old.length + add < allocated) :
    dmrRawGrowAdd grown (.holding allocated old) add = (0, .holding allocated old) := by
  unfold dmrRawGrowAdd dmrRawGrow
  rw [DmrRaw.length_buf_holding (by omega)]
  exact if_pos h

/-- A store appends, and leaves zeros behind it. -/
theorem put_holding (allocated : Nat) (old bytes : List UInt8) :
    (DmrRaw.holding allocated old).put bytes =
      old ++ (bytes ++ List.replicate (allocated - (old.length + bytes.length)) 0) := by
  show (old ++ List.replicate (allocated - old.length) 0).take old.length ++ bytes ++
    (old ++ List.replicate (allocated - old.length) 0).drop (old.length + bytes.length) = _
  rw [List.take_left, List.drop_append, List.drop_eq_nil_of_le (Nat.le_add_right _ _),
    List.nil_append, List.drop_replicate, Nat.add_sub_cancel_left, Nat.sub_sub, List.append_assoc]

theorem put_bytes_holding (allocated : Nat) (old bytes : List UInt8) :
    (⟨(DmrRaw.holding allocated old).put bytes, old.length + bytes.length⟩ : DmrRaw) =
      .holding allocated (old ++ bytes) := by
  rw [put_holding, ← List.append_assoc, ← List.length_append]
  rfl

theorem dmrRawAdd_holding {bytes : List UInt8} (h : old.length + bytes.length < allocated) :
    dmrRawAdd grown (.holding allocated old) bytes = (0, .holding allocated (old ++ bytes)) := by
  unfold dmrRawAdd
  rw [dmrRawGrowAdd_holding grown h]
  show (0, (⟨(DmrRaw.holding allocated old).put bytes, old.length + bytes.length⟩ : DmrRaw)) = _
  rw [put_bytes_holding]

/-- The end of the printed string is one of the zeros behind the text. -/
theorem put_text_holding {width : Nat} (text : List UInt8) (h : old.length + width < allocated) :
    (⟨(DmrRaw.holding allocated old).put (text.take width ++ [0]), old.length + width⟩ : DmrRaw) =
      .holding allocated (old ++ fixedField width text) := by
  have hzeros : [0] ++ List.replicate (allocated - (old.length + (text.take width ++ [0]).length))
      (0 : UInt8) =
      List.replicate (width - text.length) 0 ++
        List.replicate (allocated - (old.length + width)) 0 := by
    rw [← List.replicate_one, List.replicate_append_replicate, List.replicate_append_replicate,
      List.length_append, List.length_take, List.length_replicate]
    congr 1
    omega
  rw [put_holding, List.append_assoc _ [0], hzeros, DmrRaw.holding, List.length_append,
    length_fixedField, fixedField, List.append_assoc old, List.append_assoc (text.take width)]

theorem dmrRawAddf_holding {width : Nat} (text : List UInt8)
    (h : old.length + width + 1 < allocated) :
    dmrRawAddf grown (.holding allocated old) width text =
      (0, .holding allocated (old ++ fixedField width text)) := by
  unfold dmrRawAddf
  rw [dmrRawGrowAdd_holding grown h]
  show (0, (⟨(DmrRaw.holding allocated old).put (text.take width ++ [0]), old.length + width⟩ :
    DmrRaw)) = _
  rw [put_text_holding text (by omega)]

/-- Claiming `more` bytes without adding any claims zeros. -/
theorem holding_claim {more : Nat} (h : old.length + more ≤ allocated) :
    (⟨(DmrRaw.holding allocated old).buf, (DmrRaw.holding allocated old).len + more⟩ : DmrRaw) =
      .holding allocated (old ++ List.replicate more 0) := by
  unfold DmrRaw.holding
  rw [List.append_assoc, List.replicate_append_replicate, List.length_append,
    List.length_replicate]
  have hzeros : allocated - old.length = more + (allocated - (old.length + more)) := by omega
  rw [hzeros]

end Holding

end Dmrlib
