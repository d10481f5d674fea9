import Dmrlib.Lib.Block
import Dmrlib.Raw

/-!
# Raw buffers in memory (`src/dmr/raw.c`)

`Dmrlib.Raw` takes the sizes in a `dmr_raw` for natural numbers, and memory for what it
ought to be. Here the fields have the types of the header, so sizes wrap, and `buf` leads to
a block of memory: a store outside of the block is `none`.

`talloc_realloc` takes the number of elements as an `unsigned`, so a size loses what is above
its lowest 32 bits on the way. As long as nothing is lost, the functions do here what they do
in `Dmrlib.Raw`: `dmrRawGrow_refines`, and `dmrRawAdd_refines` and its relatives.

- `DmrRaw`, `Memory`: the fields with their types, and the memory that a call gets.
- `tallocRealloc`: with the size as it arrives there.
- `dmrRawGrow`, `dmrRawAdd`, `dmrRawAddHex`, `dmrRawAddf` and the others: the functions as they
  store to the block, byte by byte.
- `Refines`: the result stands for that of the model without types.
- `KeepsBlock`, `keepsBlock_append`: a call whose buffer is large enough stays in its block.
-/

namespace Dmrlib.RawMemory

open Block

/-- `dmr_raw`; `buf` is the block that the pointer leads to. -/
structure DmrRaw where
  buf : List UInt8
  allocated : Int64
  len : UInt64

/-- What the allocator has to offer: nothing, or memory with anything in it. -/
abbrev Memory := Option (Nat → UInt8)

/-- `talloc_realloc` for elements of one byte: the resized block, or an error with what is
left of the old one. To resize a block to nothing is to free it. -/
def tallocRealloc (mem : Memory) (block : List UInt8) (count : UInt32) :
    Except (List UInt8) (List UInt8) :=
  if count = 0 then .error []
  else match mem with
    | none => .error block
    | some junk => .ok (resize junk block count.toNat)

/-- `byte_zero` of the `n` bytes from `i` on. -/
def byteZero (block : List UInt8) (i n : Nat) : Option (List UInt8) :=
  storeAll block i (List.replicate n 0)

/-- `dmr_raw_new`; `memRaw` and `memBuf` tell whether there is memory for the two blocks.
`talloc_zero_size` clears what it allocates. -/
def dmrRawNew (memRaw memBuf : Bool) (len : UInt64) : Option DmrRaw :=
  if memRaw then
    let len := (len + 127) &&& -128
    if memBuf then some ⟨List.replicate len.toNat 0, len.toInt64, 0⟩ else none
  else none

/-- `dmr_raw_grow` -/
def dmrRawGrow (mem : Memory) (raw : DmrRaw) (len : UInt64) : Option (Int × DmrRaw) :=
  if len < raw.allocated.toUInt64 then some (0, raw)
  else
    let len := (len + 127) &&& -128
    match tallocRealloc mem raw.buf len.toUInt32 with
    | .error block => some (-1, { raw with buf := block })
    | .ok tmp =>
      let allocated := len.toInt64
      (byteZero tmp raw.len.toNat (allocated.toUInt64 - raw.len).toNat).map fun buf =>
        (0, { raw with buf := buf, allocated := allocated })

/-- `dmr_raw_grow_add` -/
def dmrRawGrowAdd (mem : Memory) (raw : DmrRaw) (add : UInt64) : Option (Int × DmrRaw) :=
  dmrRawGrow mem raw (raw.len + add)

/-- How every function that adds something begins: it makes room for `add` bytes, and goes
on with `write` when there is. -/
def growThen (mem : Memory) (raw : DmrRaw) (add : UInt64) (write : DmrRaw → Option DmrRaw) :
    Option (Int × DmrRaw) :=
  (dmrRawGrowAdd mem raw add).bind fun (ret, raw) =>
    if ret ≠ 0 then some (-1, raw) else (write raw).map fun raw => (0, raw)

namespace DmrRaw

/-- `raw->buf[raw->len++] = b` -/
def push (raw : DmrRaw) (b : UInt8) : Option DmrRaw :=
  (store raw.buf raw.len.toNat b).map fun buf => { raw with buf := buf, len := raw.len + 1 }

/-- Stores at `raw->buf + raw->len`; `len` grows by `claimed` afterwards. -/
def append (raw : DmrRaw) (bytes : List UInt8) (claimed : UInt64) : Option DmrRaw :=
  (storeAll raw.buf raw.len.toNat bytes).map fun buf =>
    { raw with buf := buf, len := raw.len + claimed }

end DmrRaw

/-- `dmr_raw_add` -/
def dmrRawAdd (mem : Memory) (raw : DmrRaw) (bytes : List UInt8) : Option (Int × DmrRaw) :=
  let len := UInt64.ofNat bytes.length
  growThen mem raw len fun raw => raw.append bytes len

/-- The loop of `dmr_raw_add_hex`. -/
def pushHex (bhex : UInt8 → UInt8) : List UInt8 → DmrRaw → Option DmrRaw
  | [], raw => some raw
  | b :: bytes, raw =>
    (raw.push (bhex (b >>> 4))).bind fun raw =>
      (raw.push (bhex (b &&& 0x0f))).bind (pushHex bhex bytes)

/-- `dmr_raw_add_hex` -/
def dmrRawAddHex (bhex : UInt8 → UInt8) (mem : Memory) (raw : DmrRaw) (bytes : List UInt8) :
    Option (Int × DmrRaw) :=
  growThen mem raw (UInt64.ofNat bytes.length * 2) (pushHex bhex bytes)

/-- `dmr_raw_add_uint8` -/
def dmrRawAddUint8 (mem : Memory) (raw : DmrRaw) (v : UInt8) : Option (Int × DmrRaw) :=
  growThen mem raw 1 fun raw => raw.push v

/-- `dmr_raw_add_xuint8` -/
def dmrRawAddXuint8 (bhex : UInt8 → UInt8) (mem : Memory) (raw : DmrRaw) (v : UInt8) :
    Option (Int × DmrRaw) :=
  growThen mem raw 2 fun raw =>
    (raw.push (bhex (v >>> 4))).bind fun raw => raw.push (bhex (v &&& 0x0f))

/-- The loop of `AU`. -/
def pushUint {w : Nat} : (size : Nat) → BitVec w → DmrRaw → Option DmrRaw
  | 0, _, raw => some raw
  | size + 1, v, raw =>
    (raw.push (UInt8.ofBitVec ((v &&& 0xff).setWidth 8))).bind (pushUint size (v >>> 8))

/-- `AU` -/
def dmrRawAddU {w : Nat} (size : Nat) (mem : Memory) (raw : DmrRaw) (v : BitVec w) :
    Option (Int × DmrRaw) :=
  growThen mem raw (UInt64.ofNat size) (pushUint size v)

/-- `dmr_raw_add_uint16` -/
def dmrRawAddUint16 (mem : Memory) (raw : DmrRaw) (v : UInt16) : Option (Int × DmrRaw) :=
  dmrRawAddU 2 mem raw v.toBitVec

/-- `dmr_raw_add_uint24`; an `uint24_t` has 32 bits. -/
def dmrRawAddUint24 (mem : Memory) (raw : DmrRaw) (v : UInt32) : Option (Int × DmrRaw) :=
  dmrRawAddU 3 mem raw v.toBitVec

/-- `dmr_raw_add_uint32` -/
def dmrRawAddUint32 (mem : Memory) (raw : DmrRaw) (v : UInt32) : Option (Int × DmrRaw) :=
  dmrRawAddU 4 mem raw v.toBitVec

/-- `dmr_raw_add_uint64` -/
def dmrRawAddUint64 (mem : Memory) (raw : DmrRaw) (v : UInt64) : Option (Int × DmrRaw) :=
  dmrRawAddU 8 mem raw v.toBitVec

/-- What `vsnprintf` stores when it is told that there is room for `n` bytes. -/
def vsnprintf (n : Nat) (text : List UInt8) : List UInt8 :=
  if n = 0 then [] else text.take (n - 1) ++ [0]

/-- `dmr_raw_addf`; `text` is what the format and its arguments amount to. -/
def dmrRawAddf (mem : Memory) (raw : DmrRaw) (len : UInt64) (text : List UInt8) :
    Option (Int × DmrRaw) :=
  growThen mem raw (len + 1) fun raw => raw.append (vsnprintf (len + 1).toNat text) len

/-- `dmr_raw_reset` -/
def dmrRawReset (raw : DmrRaw) : Option (Int × DmrRaw) :=
  (byteZero raw.buf 0 raw.allocated.toUInt64.toNat).map fun buf =>
    (0, { raw with buf := buf, len := 0 })

/-- `dmr_raw_zero` -/
def dmrRawZero (raw : DmrRaw) : Option (Int × DmrRaw) :=
  (byteZero raw.buf 0 raw.len.toNat).map fun buf => (0, { raw with buf := buf })

/-! ## Sizes

Sums that stay below 2 ^ 64 are those of natural numbers.
-/

/-- The rounding of sizes, as long as it does not wrap. -/
theorem toNat_roundUp {len : UInt64} (h : len.toNat < 2 ^ 62) :
    ((len + 127) &&& -128).toNat = roundUp len.toNat := by
  have hadd : (len + 127).toNat = len.toNat + 127 := by
    rw [UInt64.toNat_add]
    exact Nat.mod_eq_of_lt (by
      show len.toNat + 127 < 2 ^ 64
      omega)
  have hmask : ∀ x : BitVec 64, x &&& (-128 : UInt64).toBitVec = (x >>> 7) <<< 7 := by
    intro x
    refine BitVec.eq_of_getLsbD_eq fun i hi => ?_
    have hbit : ∀ i : Fin 64, (-128 : UInt64).toBitVec.getLsbD i = decide (7 ≤ i.val) := by decide
    rw [BitVec.getLsbD_and, hbit ⟨i, hi⟩, BitVec.getLsbD_shiftLeft, BitVec.getLsbD_ushiftRight]
    by_cases h7 : 7 ≤ i
    · have hidx : 7 + (i - 7) = i := by omega
      simp [h7, hi, hidx, Nat.not_lt.mpr h7]
    · simp [h7, Nat.lt_of_not_le h7]
  have hshift : ((len + 127) &&& -128).toNat = (len + 127).toNat >>> 7 <<< 7 % 2 ^ 64 := by
    show ((len + 127).toBitVec &&& (-128 : UInt64).toBitVec).toNat = _
    rw [hmask, BitVec.toNat_shiftLeft, BitVec.toNat_ushiftRight]
    rfl
  rw [hshift, hadd, Nat.shiftLeft_eq, Nat.shiftRight_eq_div_pow, roundUp]
  omega

theorem le_roundUp (len : Nat) : len ≤ roundUp len := by
  unfold roundUp
  omega

theorem dvd_roundUp (len : Nat) : 128 ∣ roundUp len := Dvd.intro_left _ rfl

/-! ## The functions of `Dmrlib.Raw` -/

/-- The fields of a buffer are true: `buf` leads to `allocated` bytes, and `len` of them are in
use. There are some, or the buffer would be freed when it is to grow by nothing. -/
structure DmrRaw.Ok (raw : DmrRaw) : Prop where
  pos : 0 < raw.buf.length
  allocated : raw.allocated.toInt = raw.buf.length
  len_le : raw.len.toNat ≤ raw.buf.length

/-- The buffer without its types. -/
def DmrRaw.toRaw (raw : DmrRaw) : Dmrlib.DmrRaw := ⟨raw.buf, raw.len.toNat⟩

namespace DmrRaw.Ok

variable {raw : DmrRaw}

theorem toNat_allocated (h : raw.Ok) : raw.allocated.toUInt64.toNat = raw.buf.length := by
  have hint : raw.allocated.toInt = raw.allocated.toUInt64.toBitVec.toInt := rfl
  have hcase := BitVec.toInt_eq_toNat_cond raw.allocated.toUInt64.toBitVec
  have hlt := raw.allocated.toUInt64.toNat_lt
  rw [← hint, h.allocated] at hcase
  change _ = if 2 * raw.allocated.toUInt64.toNat < 2 ^ 64 then
    (raw.allocated.toUInt64.toNat : Int) else raw.allocated.toUInt64.toNat - 2 ^ 64 at hcase
  split at hcase <;> omega

theorem lt_allocated_iff (h : raw.Ok) (len : UInt64) :
    len < raw.allocated.toUInt64 ↔ len.toNat < raw.buf.length := by
  rw [UInt64.lt_iff_toNat_lt, h.toNat_allocated]

theorem length_lt (h : raw.Ok) : raw.buf.length < 2 ^ 63 := by
  have hlt := Int64.toInt_lt raw.allocated
  rw [h.allocated] at hlt
  exact_mod_cast hlt

/-- Other bytes in the block leave the buffer right, and so does another `len` in it. -/
theorem of_length (h : raw.Ok) {buf : List UInt8} {len : UInt64}
    (hbuf : buf.length = raw.buf.length) (hlen : len.toNat ≤ raw.buf.length) :
    DmrRaw.Ok { raw with buf := buf, len := len } where
  pos := hbuf ▸ h.pos
  allocated := hbuf ▸ h.allocated
  len_le := hbuf ▸ hlen

/-- Nothing is lost with the types. -/
theorem eq_of_toRaw {raw' : DmrRaw} (h : raw.Ok) (h' : raw'.Ok) (hraw : raw.toRaw = raw'.toRaw) :
    raw = raw' := by
  have hbuf : raw.buf = raw'.buf := congrArg Dmrlib.DmrRaw.buf hraw
  have hlen : raw.len = raw'.len := UInt64.toNat_inj.mp (congrArg Dmrlib.DmrRaw.len hraw)
  have hallocated : raw.allocated = raw'.allocated :=
    Int64.toInt_inj.mp (by rw [h.allocated, h'.allocated, hbuf])
  cases raw
  cases raw'
  congr

end DmrRaw.Ok

theorem toInt_toInt64 (len : UInt64) (h : len.toNat < 2 ^ 63) : len.toInt64.toInt = len.toNat := by
  show len.toBitVec.toInt = _
  rw [BitVec.toInt_eq_toNat_of_lt]
  · rfl
  · show 2 * len.toNat < 2 ^ 64
    omega

/-- A call that comes through and does to the buffer what is said of the buffer without
types. -/
def Refines (r : Option (Int × DmrRaw)) (s : Int × Dmrlib.DmrRaw) : Prop :=
  ∃ raw, r = some (s.1, raw) ∧ raw.Ok ∧ raw.toRaw = s.2

/-- The size of the new block gets to the allocator undamaged, if there is one. -/
def Fits (raw : DmrRaw) (len : Nat) : Prop :=
  (len : Int) < raw.allocated.toInt ∨ roundUp len < 2 ^ 32

instance Fits.decidable (raw : DmrRaw) (len : Nat) : Decidable (Fits raw len) :=
  inferInstanceAs (Decidable (_ ∨ _))

/-- Clearing a block from `i` to its end. -/
theorem byteZero_rest {block : List UInt8} {i : Nat} (h : i ≤ block.length) :
    byteZero block i (block.length - i) =
      some (block.take i ++ List.replicate (block.length - i) 0) := by
  have hroom : i + (List.replicate (block.length - i) (0 : UInt8)).length = block.length := by
    rw [List.length_replicate]
    omega
  rw [byteZero, storeAll_eq_some hroom.le, hroom, List.drop_length, List.append_nil]

/-- Growing leads to a buffer with the same `len`, and with room for what it grew for. -/
theorem dmrRawGrow_refines (mem : Memory) {raw : DmrRaw} (h : raw.Ok) {len : UInt64}
    (h62 : len.toNat < 2 ^ 62) (hfits : Fits raw len.toNat) :
    Refines (dmrRawGrow mem raw len) (Dmrlib.dmrRawGrow mem.isSome raw.toRaw len.toNat) := by
  unfold dmrRawGrow Dmrlib.dmrRawGrow
  by_cases hlt : len.toNat < raw.buf.length
  · rw [if_pos ((h.lt_allocated_iff len).mpr hlt),
      if_pos (show len.toNat < raw.toRaw.buf.length from hlt)]
    exact ⟨raw, rfl, h, rfl⟩
  rw [if_neg ((h.lt_allocated_iff len).not.mpr hlt),
    if_neg (show ¬ len.toNat < raw.toRaw.buf.length from hlt)]
  have hpos := h.pos
  have hlen := h.len_le
  have hround := toNat_roundUp h62
  have hle := le_roundUp len.toNat
  have h32 : roundUp len.toNat < 2 ^ 32 := hfits.resolve_left (by
    rw [h.allocated]
    exact_mod_cast hlt)
  have hcount : ((len + 127) &&& -128).toUInt32.toNat = roundUp len.toNat := by
    rw [UInt64.toNat_toUInt32, hround]
    exact Nat.mod_eq_of_lt h32
  have hne : ((len + 127) &&& -128).toUInt32 ≠ 0 := by
    intro h0
    rw [h0] at hcount
    change 0 = _ at hcount
    omega
  generalize (len + 127) &&& -128 = size at hround hcount hne
  cases mem with
  | none =>
    simp only [tallocRealloc, if_neg hne]
    exact ⟨raw, rfl, h, rfl⟩
  | some junk =>
    simp only [tallocRealloc, if_neg hne, hcount]
    have htake : (resize junk raw.buf (roundUp len.toNat)).take raw.len.toNat =
        raw.buf.take raw.len.toNat := take_resize junk (by omega) hlen
    have htmp := length_resize junk raw.buf (roundUp len.toNat)
    generalize resize junk raw.buf (roundUp len.toNat) = tmp at htake htmp
    -- the tail that is cleared ends with the block
    have hrest : (size.toInt64.toUInt64 - raw.len).toNat = tmp.length - raw.len.toNat := by
      show (size - raw.len).toNat = _
      rw [UInt64.toNat_sub_of_le, hround, htmp]
      rw [UInt64.le_iff_toNat_le, hround]
      omega
    have hbuf : (raw.buf.take raw.len.toNat ++
        List.replicate (tmp.length - raw.len.toNat) (0 : UInt8)).length = roundUp len.toNat := by
      rw [List.length_append, List.length_take, List.length_replicate]
      omega
    rw [hrest, byteZero_rest (by omega), htake]
    refine ⟨_, rfl, ⟨?_, ?_, ?_⟩, ?_⟩
    · rw [hbuf]
      omega
    · rw [hbuf, toInt_toInt64 _ (by omega), hround]
    · show raw.len.toNat ≤ _
      rw [hbuf]
      omega
    · rw [htmp]
      rfl

/-! ## Stores behind the content

One byte behind what is in the buffer, as all loops that add do it.
-/

theorem toNat_ofNat {n : Nat} (h : n < 2 ^ 64) : (UInt64.ofNat n).toNat = n := by
  rw [UInt64.toNat_ofNat']
  exact Nat.mod_eq_of_lt h

theorem toNat_add {a b : UInt64} (h : a.toNat + b.toNat < 2 ^ 64) :
    (a + b).toNat = a.toNat + b.toNat := by
  rw [UInt64.toNat_add]
  exact Nat.mod_eq_of_lt h

theorem toNat_hexLen {n : Nat} (h : 2 * n < 2 ^ 64) : (UInt64.ofNat n * 2).toNat = 2 * n := by
  rw [UInt64.toNat_mul, toNat_ofNat (by omega), Nat.mul_comm 2]
  exact Nat.mod_eq_of_lt (by
    show n * 2 < 2 ^ 64
    omega)

namespace DmrRaw

/-- One byte after another goes behind the content. -/
def pushAll (raw : DmrRaw) : List UInt8 → Option DmrRaw
  | [] => some raw
  | b :: bytes => (raw.push b).bind fun raw => raw.pushAll bytes

/-- Advancing with every byte, or once at the end, makes no difference. -/
theorem pushAll_eq {raw : DmrRaw} {bytes : List UInt8}
    (h : raw.len.toNat + bytes.length < 2 ^ 64) :
    raw.pushAll bytes = raw.append bytes (UInt64.ofNat bytes.length) := by
  induction bytes generalizing raw with
  | nil =>
    show some raw = some { raw with len := raw.len + 0 }
    rw [UInt64.add_zero]
  | cons b bytes ih =>
    rw [List.length_cons] at h
    have hnext : (raw.len + 1).toNat = raw.len.toNat + 1 :=
      toNat_add (b := 1) (by
        show raw.len.toNat + 1 < 2 ^ 64
        omega)
    have hlen : raw.len + 1 + UInt64.ofNat bytes.length =
        raw.len + UInt64.ofNat (bytes.length + 1) := by
      rw [UInt64.ofNat_add, UInt64.add_assoc, UInt64.add_comm 1]
      rfl
    rw [pushAll, push, append, storeAll, List.length_cons, ← hlen, Option.bind_map,
      Option.map_bind]
    refine Option.bind_congr fun buf _ => ?_
    show pushAll { raw with buf := buf, len := raw.len + 1 } bytes = _
    rw [ih (by
      rw [hnext]
      omega), append, hnext]
    rfl

/-- Where there is room for it, a store behind the content is a `put`. -/
theorem append_refines {raw : DmrRaw} (h : raw.Ok) (bytes : List UInt8) (claimed : UInt64)
    (hroom : raw.len.toNat + bytes.length ≤ raw.buf.length)
    (hclaim : raw.len.toNat + claimed.toNat ≤ raw.buf.length) :
    ∃ raw', raw.append bytes claimed = some raw' ∧ raw'.Ok ∧
      raw'.toRaw = ⟨raw.toRaw.put bytes, raw.toRaw.len + claimed.toNat⟩ := by
  have hlt := h.length_lt
  have hlen : (raw.len + claimed).toNat = raw.len.toNat + claimed.toNat := toNat_add (by omega)
  have hput : (raw.toRaw.put bytes).length = raw.buf.length := by
    show (raw.buf.take raw.len.toNat ++ bytes ++
      raw.buf.drop (raw.len.toNat + bytes.length)).length = _
    simp only [List.length_append, List.length_take, List.length_drop]
    omega
  rw [append, storeAll_eq_some hroom]
  refine ⟨_, rfl, h.of_length hput ?_, ?_⟩
  · rw [hlen]
    exact hclaim
  · show (⟨raw.toRaw.put bytes, (raw.len + claimed).toNat⟩ : Dmrlib.DmrRaw) = _
    rw [hlen]
    rfl

end DmrRaw

/-! ## The loops

A loop that stores byte by byte appends its bytes, as long as each store is in the block.
-/

theorem pushHex_eq (bhex : UInt8 → UInt8) (bytes : List UInt8) (raw : DmrRaw) :
    pushHex bhex bytes raw = raw.pushAll (hexBytes bhex bytes) := by
  induction bytes generalizing raw with
  | nil => rfl
  | cons b bytes ih =>
    rw [hexBytes, List.flatMap_cons, ← hexBytes]
    show (raw.push (bhex (b >>> 4))).bind (fun raw =>
      (raw.push (bhex (b &&& 0x0f))).bind (pushHex bhex bytes)) =
      (raw.push (bhex (b >>> 4))).bind fun raw =>
        (raw.push (bhex (b &&& 0x0f))).bind fun raw => raw.pushAll (hexBytes bhex bytes)
    rw [funext ih]

/-- The `size` lowest bytes of a number, lowest first. -/
def lowBytes : (size : Nat) → Nat → List UInt8
  | 0, _ => []
  | size + 1, v => UInt8.ofNat v :: lowBytes size (v / 256)

@[simp]
theorem length_lowBytes (size v : Nat) : (lowBytes size v).length = size := by
  induction size generalizing v with
  | zero => rfl
  | succ size ih => rw [lowBytes, List.length_cons, ih]

theorem uintBytes_eq (size : Nat) (v : UInt32) : uintBytes size v = lowBytes size v.toNat := by
  induction size generalizing v with
  | zero => rfl
  | succ size ih =>
    have hshift : (v >>> 8).toNat = v.toNat / 256 := by
      rw [UInt32.toNat_shiftRight]
      exact Nat.shiftRight_eq_div_pow v.toNat 8
    rw [uintBytes, lowBytes, ih, hshift]
    rfl

theorem pushUint_eq {w : Nat} (hw : 8 ≤ w) (size : Nat) (v : BitVec w) (raw : DmrRaw) :
    pushUint size v raw = raw.pushAll (lowBytes size v.toNat) := by
  induction size generalizing v raw with
  | zero => rfl
  | succ size ih =>
    have hmask : ((0xff : BitVec w)).toNat = 2 ^ 8 - 1 :=
      Nat.mod_eq_of_lt (Nat.lt_of_lt_of_le (by decide) (Nat.pow_le_pow_right (by decide) hw))
    have hlow : UInt8.ofBitVec ((v &&& 0xff).setWidth 8) = UInt8.ofNat v.toNat := by
      refine UInt8.toNat_inj.mp ?_
      show ((v &&& 0xff).setWidth 8).toNat = _
      rw [BitVec.toNat_setWidth, BitVec.toNat_and, hmask, Nat.and_two_pow_sub_one_eq_mod,
        Nat.mod_mod, UInt8.toNat_ofNat']
    have hshift : (v >>> 8).toNat = v.toNat / 256 := by
      rw [BitVec.toNat_ushiftRight]
      exact Nat.shiftRight_eq_div_pow v.toNat 8
    rw [pushUint, lowBytes, DmrRaw.pushAll, hlow, funext (ih (v >>> 8)), hshift]

/-! ## The functions that add

Growing comes first; where it is granted, the store that follows is in the block.
-/

/-- A buffer that grew has room, and the rest is as before. -/
theorem grown_room (grown : Bool) (raw : Dmrlib.DmrRaw) (len : Nat) (h : raw.len ≤ raw.buf.length)
    (hret : (Dmrlib.dmrRawGrow grown raw len).1 = 0) :
    len ≤ (Dmrlib.dmrRawGrow grown raw len).2.buf.length ∧
      (Dmrlib.dmrRawGrow grown raw len).2.len = raw.len := by
  unfold Dmrlib.dmrRawGrow at hret ⊢
  split
  next hlt => exact ⟨hlt.le, rfl⟩
  next hlt =>
    cases grown with
    | false =>
      rw [if_neg hlt] at hret
      cases hret
    | true =>
      refine ⟨?_, rfl⟩
      show len ≤ (raw.content ++ List.replicate (roundUp len - raw.len) 0).length
      have hround := le_roundUp len
      rw [List.length_append, List.length_replicate, DmrRaw.content, List.length_take]
      omega

section Growing

variable (mem : Memory) {raw : DmrRaw} (h : raw.Ok)

include h

/-- The functions that add something: the stores behind the content find the room that was
made for them. -/
theorem growThen_refines (add claimed : UInt64) (bytes : List UInt8)
    (write : DmrRaw → Option DmrRaw) (h62 : raw.len.toNat + add.toNat < 2 ^ 62)
    (hfits : Fits raw (raw.len.toNat + add.toNat)) (hbytes : bytes.length ≤ add.toNat)
    (hclaim : claimed.toNat ≤ add.toNat)
    (hwrite : ∀ raw' : DmrRaw, raw'.len = raw.len → write raw' = raw'.append bytes claimed) :
    Refines (growThen mem raw add write)
      (let (ret, raw) := Dmrlib.dmrRawGrowAdd mem.isSome raw.toRaw add.toNat
      if ret ≠ 0 then (-1, raw) else (0, ⟨raw.put bytes, raw.len + claimed.toNat⟩)) := by
  have hadd : (raw.len + add).toNat = raw.len.toNat + add.toNat := toNat_add (by omega)
  obtain ⟨raw', hgrow, hok, hraw⟩ := dmrRawGrow_refines mem h (by rwa [hadd])
    (by rwa [hadd])
  rw [hadd] at hgrow hraw
  -- what was granted is enough for the write
  have hroom := grown_room mem.isSome raw.toRaw (raw.len.toNat + add.toNat) h.len_le
  unfold growThen dmrRawGrowAdd Dmrlib.dmrRawGrowAdd
  rw [hgrow, Option.bind_some]
  show Refines (if (Dmrlib.dmrRawGrow mem.isSome raw.toRaw (raw.len.toNat + add.toNat)).1 ≠ 0 then
    some (-1, raw') else (write raw').map fun raw => (0, raw))
    (let (ret, raw) := Dmrlib.dmrRawGrow mem.isSome raw.toRaw (raw.len.toNat + add.toNat)
    if ret ≠ 0 then (-1, raw) else (0, ⟨raw.put bytes, raw.len + claimed.toNat⟩))
  generalize Dmrlib.dmrRawGrow mem.isSome raw.toRaw (raw.len.toNat + add.toNat) = grown
    at hraw hroom
  obtain ⟨ret, raw''⟩ := grown
  dsimp only at hraw hroom ⊢
  subst hraw
  -- the write appends, or there was no memory and nothing is written
  by_cases hret : ret = 0
  · obtain ⟨hbuf, hlen⟩ := hroom hret
    have hlen' : raw'.len = raw.len := UInt64.toNat_inj.mp hlen
    have hbuf' : raw.len.toNat + add.toNat ≤ raw'.buf.length := hbuf
    obtain ⟨raw'', happ, hok', hraw'⟩ := DmrRaw.append_refines hok bytes claimed (by
        rw [hlen']
        omega) (by
        rw [hlen']
        omega)
    rw [if_neg (not_not.mpr hret), if_neg (not_not.mpr hret), hwrite raw' hlen', happ]
    exact ⟨raw'', rfl, hok', hraw'⟩
  · rw [if_pos hret, if_pos hret]
    exact ⟨raw', rfl, hok, rfl⟩

theorem dmrRawAdd_refines {bytes : List UInt8} (h62 : raw.len.toNat + bytes.length < 2 ^ 62)
    (hfits : Fits raw (raw.len.toNat + bytes.length)) :
    Refines (dmrRawAdd mem raw bytes) (Dmrlib.dmrRawAdd mem.isSome raw.toRaw bytes) := by
  have hlen : (UInt64.ofNat bytes.length).toNat = bytes.length := toNat_ofNat (by omega)
  have key := growThen_refines mem h (UInt64.ofNat bytes.length) (UInt64.ofNat bytes.length) bytes
    (fun raw => raw.append bytes (UInt64.ofNat bytes.length)) (by rwa [hlen]) (by rwa [hlen])
    hlen.ge le_rfl fun _ _ => rfl
  rw [hlen] at key
  exact key

/-- A loop that adds `bytes`. -/
theorem pushes_refines (bytes : List UInt8) {add : UInt64} {write : DmrRaw → Option DmrRaw}
    (hadd : add.toNat = bytes.length) (hwrite : ∀ raw, write raw = raw.pushAll bytes)
    (h62 : raw.len.toNat + bytes.length < 2 ^ 62)
    (hfits : Fits raw (raw.len.toNat + bytes.length)) :
    Refines (growThen mem raw add write) (Dmrlib.dmrRawAdd mem.isSome raw.toRaw bytes) := by
  have hlen : (UInt64.ofNat bytes.length).toNat = bytes.length := toNat_ofNat (by omega)
  have hofNat : add = UInt64.ofNat bytes.length := UInt64.toNat_inj.mp (hadd.trans hlen.symm)
  have happend : ∀ raw' : DmrRaw, raw'.len = raw.len → write raw' = raw'.append bytes add := by
    intro raw' hraw'
    rw [hwrite, DmrRaw.pushAll_eq (by
      rw [hraw']
      omega), ← hofNat]
  have key := growThen_refines mem h add add bytes write (by rwa [hadd]) (by rwa [hadd]) hadd.ge
    le_rfl happend
  rw [hadd] at key
  exact key

theorem dmrRawAddHex_refines (bhex : UInt8 → UInt8) {bytes : List UInt8}
    (h62 : raw.len.toNat + 2 * bytes.length < 2 ^ 62)
    (hfits : Fits raw (raw.len.toNat + 2 * bytes.length)) :
    Refines (dmrRawAddHex bhex mem raw bytes)
      (Dmrlib.dmrRawAddHex bhex mem.isSome raw.toRaw bytes) := by
  have hhex := length_hexBytes bhex bytes
  have hadd : (UInt64.ofNat bytes.length * 2).toNat = (hexBytes bhex bytes).length := by
    rw [hhex, toNat_hexLen (by omega)]
  exact pushes_refines mem h _ hadd (pushHex_eq bhex bytes) (by rwa [hhex]) (by rwa [hhex])

theorem dmrRawAddUint8_refines {v : UInt8} (h62 : raw.len.toNat + 1 < 2 ^ 62)
    (hfits : Fits raw (raw.len.toNat + 1)) :
    Refines (dmrRawAddUint8 mem raw v) (Dmrlib.dmrRawAddUint8 mem.isSome raw.toRaw v) :=
  pushes_refines mem h [v] rfl
    (fun raw => (Option.bind_fun_some (raw.push v)).symm) h62 hfits

theorem dmrRawAddXuint8_refines (bhex : UInt8 → UInt8) {v : UInt8}
    (h62 : raw.len.toNat + 2 < 2 ^ 62) (hfits : Fits raw (raw.len.toNat + 2)) :
    Refines (dmrRawAddXuint8 bhex mem raw v)
      (Dmrlib.dmrRawAdd mem.isSome raw.toRaw (hexBytes bhex [v])) :=
  pushes_refines mem h (hexBytes bhex [v]) rfl
    (fun _ => Option.bind_congr fun _ _ => (Option.bind_fun_some _).symm) h62 hfits

theorem dmrRawAddU_refines {w size : Nat} (hw : 8 ≤ w) {v : BitVec w}
    (h62 : raw.len.toNat + size < 2 ^ 62) (hfits : Fits raw (raw.len.toNat + size)) :
    Refines (dmrRawAddU size mem raw v)
      (Dmrlib.dmrRawAdd mem.isSome raw.toRaw (lowBytes size v.toNat)) := by
  have hlow := length_lowBytes size v.toNat
  exact pushes_refines mem h _ ((toNat_ofNat (by omega)).trans hlow.symm) (pushUint_eq hw size v)
    (by rwa [hlow]) (by rwa [hlow])

theorem dmrRawAddUint24_refines {v : UInt32} (h62 : raw.len.toNat + 3 < 2 ^ 62)
    (hfits : Fits raw (raw.len.toNat + 3)) :
    Refines (dmrRawAddUint24 mem raw v) (Dmrlib.dmrRawAddUint24 mem.isSome raw.toRaw v) := by
  rw [Dmrlib.dmrRawAddUint24, uintBytes_eq]
  exact dmrRawAddU_refines mem h (by decide) h62 hfits

theorem dmrRawAddUint32_refines {v : UInt32} (h62 : raw.len.toNat + 4 < 2 ^ 62)
    (hfits : Fits raw (raw.len.toNat + 4)) :
    Refines (dmrRawAddUint32 mem raw v) (Dmrlib.dmrRawAddUint32 mem.isSome raw.toRaw v) := by
  rw [Dmrlib.dmrRawAddUint32, uintBytes_eq]
  exact dmrRawAddU_refines mem h (by decide) h62 hfits

theorem dmrRawAddf_refines {len : UInt64} {text : List UInt8}
    (h62 : raw.len.toNat + len.toNat + 1 < 2 ^ 62)
    (hfits : Fits raw (raw.len.toNat + len.toNat + 1)) :
    Refines (dmrRawAddf mem raw len text) (Dmrlib.dmrRawAddf mem.isSome raw.toRaw len.toNat text)
    := by
  have hadd : (len + 1).toNat = len.toNat + 1 := toNat_add (by
    show len.toNat + 1 < 2 ^ 64
    omega)
  have htext : vsnprintf (len + 1).toNat text = text.take len.toNat ++ [0] := by
    rw [hadd]
    rfl
  have key := growThen_refines mem h (len + 1) len (text.take len.toNat ++ [0])
    (fun raw => raw.append (vsnprintf (len + 1).toNat text) len)
    (by rwa [hadd]) (by rwa [hadd]) (by
      rw [hadd, List.length_append, List.length_take, List.length_singleton]
      omega) (by omega) fun _ _ => by rw [htext]
  unfold dmrRawAddf
  rw [hadd] at key ⊢
  exact key

end Growing

/-! ## The functions that clear -/

/-- Clearing the first `n` bytes. -/
theorem byteZero_eq {block : List UInt8} {n : Nat} (h : n ≤ block.length) :
    byteZero block 0 n = some (List.replicate n 0 ++ block.drop n) := by
  rw [byteZero, storeAll_eq_some (by
    rw [List.length_replicate]
    omega), List.take_zero, List.nil_append, List.length_replicate, Nat.zero_add]

theorem dmrRawReset_refines {raw : DmrRaw} (h : raw.Ok) :
    Refines (dmrRawReset raw) (Dmrlib.dmrRawReset raw.toRaw) := by
  have hzero : byteZero raw.buf 0 raw.allocated.toUInt64.toNat =
      some (List.replicate raw.buf.length 0) := by
    rw [h.toNat_allocated, byteZero_eq le_rfl, List.drop_length, List.append_nil]
  rw [dmrRawReset, hzero]
  exact ⟨_, rfl, h.of_length List.length_replicate (Nat.zero_le _), rfl⟩

theorem dmrRawZero_refines {raw : DmrRaw} (h : raw.Ok) :
    Refines (dmrRawZero raw) (Dmrlib.dmrRawZero raw.toRaw) := by
  have hlen : (List.replicate raw.len.toNat (0 : UInt8) ++ raw.buf.drop raw.len.toNat).length =
      raw.buf.length := by
    have hle := h.len_le
    rw [List.length_append, List.length_replicate, List.length_drop]
    omega
  rw [dmrRawZero, byteZero_eq h.len_le]
  exact ⟨_, rfl, h.of_length hlen h.len_le, rfl⟩

/-! ## Sizes that do not fit

When the size of a new block loses bits, and there is memory for what is left of it, `allocated`
is not the size of the block any more. -/

/-- What adds something stays in the block it finds. -/
def KeepsBlock (write : DmrRaw → Option DmrRaw) : Prop :=
  ∀ raw raw', write raw = some raw' →
    raw'.buf.length = raw.buf.length ∧ raw'.allocated = raw.allocated

theorem keepsBlock_append (bytes : List UInt8) (claimed : UInt64) :
    KeepsBlock fun raw => raw.append bytes claimed := by
  intro raw raw' h
  obtain ⟨buf, hbuf, rfl⟩ := Option.map_eq_some_iff.mp h
  exact ⟨length_of_storeAll _ hbuf, rfl⟩

theorem keepsBlock_pushAll (bytes : List UInt8) : KeepsBlock fun raw => raw.pushAll bytes := by
  induction bytes with
  | nil =>
    intro raw raw' h
    cases h
    exact ⟨rfl, rfl⟩
  | cons b bytes ih =>
    intro raw raw' h
    obtain ⟨mid, hmid, hrest⟩ := Option.bind_eq_some_iff.mp h
    obtain ⟨buf, hbuf, rfl⟩ := Option.map_eq_some_iff.mp hmid
    have hlen : buf.length = raw.buf.length :=
      length_of_storeAll [b] (Option.bind_eq_some_iff.mpr ⟨buf, hbuf, rfl⟩)
    obtain ⟨hrestLen, hrestAllocated⟩ := ih _ raw' hrest
    exact ⟨hrestLen.trans hlen, hrestAllocated⟩

section Truncated

variable {junk : Nat → UInt8} {raw raw' : DmrRaw} {ret : Int} (h : raw.Ok)

include h

theorem allocated_ne_of_grow {len : UInt64} (h62 : len.toNat < 2 ^ 62)
    (hfits : ¬ Fits raw len.toNat) (hgrow : dmrRawGrow (some junk) raw len = some (ret, raw')) :
    raw'.allocated.toInt ≠ raw'.buf.length := by
  obtain ⟨hlt, h32⟩ := not_or.mp hfits
  rw [h.allocated] at hlt
  have hcond : ¬ len < raw.allocated.toUInt64 := by
    rw [h.lt_allocated_iff]
    exact_mod_cast hlt
  have hround := toNat_roundUp h62
  have hlt63 : roundUp len.toNat < 2 ^ 63 := by
    unfold roundUp
    omega
  unfold dmrRawGrow at hgrow
  rw [if_neg hcond] at hgrow
  generalize (len + 127) &&& -128 = size at hround hgrow
  by_cases hcount : size.toUInt32 = 0
  · -- the block was freed
    simp only [tallocRealloc, if_pos hcount] at hgrow
    cases hgrow
    have hpos := h.pos
    rw [h.allocated, List.length_nil]
    omega
  · simp only [tallocRealloc, if_neg hcount] at hgrow
    obtain ⟨buf, hbuf, heq⟩ := Option.map_eq_some_iff.mp hgrow
    cases heq
    have hlen := length_of_storeAll _ hbuf
    have hsmall := size.toUInt32.toNat_lt
    rw [length_resize] at hlen
    show size.toInt64.toInt ≠ (buf.length : Int)
    rw [toInt_toInt64 _ (by omega), hround, hlen]
    omega

theorem allocated_ne_of_growThen {add : UInt64} {write : DmrRaw → Option DmrRaw}
    (hwrite : KeepsBlock write) (h62 : raw.len.toNat + add.toNat < 2 ^ 62)
    (hfits : ¬ Fits raw (raw.len.toNat + add.toNat))
    (hgrow : growThen (some junk) raw add write = some (ret, raw')) :
    raw'.allocated.toInt ≠ raw'.buf.length := by
  have hadd : (raw.len + add).toNat = raw.len.toNat + add.toNat := toNat_add (by omega)
  obtain ⟨⟨ret₁, mid⟩, hmid, hrest⟩ := Option.bind_eq_some_iff.mp hgrow
  have hne := allocated_ne_of_grow h (by rwa [hadd]) (by rwa [hadd]) hmid
  dsimp only at hrest
  split at hrest
  · cases hrest
    exact hne
  · obtain ⟨last, hlast, heq⟩ := Option.map_eq_some_iff.mp hrest
    cases heq
    obtain ⟨hlen, hallocated⟩ := hwrite mid raw' hlast
    rwa [hlen, hallocated]

/-- A loop that would add `bytes`. -/
theorem allocated_ne_of_pushes (bytes : List UInt8) {add : UInt64}
    {write : DmrRaw → Option DmrRaw} (hadd : add.toNat = bytes.length)
    (hwrite : ∀ raw, write raw = raw.pushAll bytes)
    (h62 : raw.len.toNat + bytes.length < 2 ^ 62)
    (hfits : ¬ Fits raw (raw.len.toNat + bytes.length))
    (hgrow : growThen (some junk) raw add write = some (ret, raw')) :
    raw'.allocated.toInt ≠ raw'.buf.length := by
  refine allocated_ne_of_growThen h ?_ (by rwa [hadd]) (by rwa [hadd]) hgrow
  rw [funext hwrite]
  exact keepsBlock_pushAll bytes

theorem allocated_ne_of_addU {w size : Nat} (hw : 8 ≤ w) {v : BitVec w}
    (h62 : raw.len.toNat + size < 2 ^ 62) (hfits : ¬ Fits raw (raw.len.toNat + size))
    (hgrow : dmrRawAddU size (some junk) raw v = some (ret, raw')) :
    raw'.allocated.toInt ≠ raw'.buf.length := by
  have hlow := length_lowBytes size v.toNat
  exact allocated_ne_of_pushes h _ ((toNat_ofNat (by omega)).trans hlow.symm)
    (pushUint_eq hw size v) (by rwa [hlow]) (by rwa [hlow]) hgrow

end Truncated

end Dmrlib.RawMemory
