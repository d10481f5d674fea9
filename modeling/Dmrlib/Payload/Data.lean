import Dmrlib.Crc
import Dmrlib.Fec.Trellis

/-!
# Data blocks (`src/dmr/payload/data.c`)

A block of rate 3/4 data is 18 bytes. Unconfirmed, all of them are data; confirmed, the first
two hold a serial number and a checksum of nine bits.

`dmr_data_block_decode` never copies the data of an unconfirmed block, and of a confirmed one it
copies as many bytes as its buffer has, but from the third on, so it reads two bytes behind the
buffer (`data_block_decode_iff`). The checksum does not protect the block either: `dmr_crc9`
shifts the bit it begins with by the number of bits it is asked for, so that of the eight bits
of a byte none are left, and of the seven of a serial number only the last (`crc9_protects_iff`).

- `DmrDataBlock`: the block that is decoded to, with serial number and checksum.
- `dmrDataBlockDecode`: the decoder, with the trellis decoder for a parameter.
- `IsConfirmed`, `IsUnconfirmed`: what a decoded block is to be.
- `ReadsInside`, `readsInside_iff`: no byte behind the buffer is read.
- `BlockBit`: a bit of a block that the checksum is to protect.
-/

namespace Dmrlib

open Loop

/-- `dmr_data_rate` -/
abbrev DmrDataRate := UInt32

abbrev DMR_DATA_RATE1 : DmrDataRate := 1
abbrev DMR_DATA_RATE12 : DmrDataRate := 12
abbrev DMR_DATA_RATE34 : DmrDataRate := 34

/-- `dmr_data_block` -/
structure DmrDataBlock where
  serial : UInt8
  crc : UInt16
  ok : Bool
  data : Vector UInt8 24
  length : UInt8
deriving DecidableEq

/-- `dmr_data_block_size` -/
def dmrDataBlockSize (rate : DmrDataRate) (confirmed : Bool) : UInt8 :=
  if rate = DMR_DATA_RATE1 then if confirmed then 22 else 24
  else if rate = DMR_DATA_RATE12 then if confirmed then 10 else 12
  else if rate = DMR_DATA_RATE34 then if confirmed then 16 else 18
  else 0

/-- The checksum of the data bytes and the serial number of a confirmed block. -/
def blockCrc9 {n : Nat} (data : Fin n → UInt8) (serial : UInt8) : UInt16 :=
  let crc := forLoop n (fun i crc => dmrCrc9 crc (data i) 8) 0
  let crc := dmrCrc9 crc serial 7
  let crc := dmrCrc9Finish crc 8
  ((~~~crc) &&& 0x01ff) ^^^ 0x01ff

/-- What `dmr_data_block_decode` returns, the block, and which elements of its local array
`bytes` it reads. -/
structure DataBlockDecoded where
  ret : Int
  block : DmrDataBlock
  reads : List Nat

theorem dmrDataBlockSize_le (rate : DmrDataRate) (confirmed : Bool) :
    (dmrDataBlockSize rate confirmed).toNat ≤ 24 := by
  unfold dmrDataBlockSize
  cases confirmed
  all_goals
    repeat' split
    all_goals decide

/-- What the trellis decoder leaves in an array of zeros. -/
def rate34Bytes (rate34 : DmrPacket → Vector UInt8 18 → Int × Vector UInt8 18)
    (packet : DmrPacket) : Vector UInt8 18 :=
  (rate34 packet (Vector.replicate 18 0)).2

/-- The branch for confirmed blocks; `bytes` is the local array of `size` bytes, with what lies
behind it. -/
def decodeConfirmed (bytes : Nat → UInt8) (size : Nat) (length : UInt8)
    (hlength : length.toNat ≤ 24) : DataBlockDecoded :=
  let serial := bytes 0 >>> 1
  let crc := (bytes 0 &&& 0x01).toUInt16 <<< 8 ||| (bytes 1).toUInt16
  let data := forLoop (min 24 size) (fun i data => data.set i.val (bytes (2 + i.val)))
    (Vector.replicate 24 0)
  let ok : Bool := blockCrc9 (fun i : Fin length.toNat => data[i.val]) serial = crc
  ⟨if ok then 0 else -1, ⟨serial, crc, ok, data, length⟩,
    [0, 0, 1] ++ (List.range (min 24 size)).map (2 + ·)⟩

/-- `dmr_data_block_decode`; `rate34` is the trellis decoder, and `past` what lies behind the
local array. -/
def dmrDataBlockDecode (rate34 : DmrPacket → Vector UInt8 18 → Int × Vector UInt8 18)
    (past : Nat → UInt8) (packet : DmrPacket) (confirmed : Bool) (dataType : DmrDataType) :
    DataBlockDecoded :=
  let block : DmrDataBlock := ⟨0, 0, false, Vector.replicate 24 0, 0⟩
  if dataType = DMR_DATA_TYPE_RATE34_DATA then
    let block := { block with length := dmrDataBlockSize DMR_DATA_RATE34 confirmed }
    -- the array has two bytes more than the block, and the decoder writes the first 18
    let size := (dmrDataBlockSize DMR_DATA_RATE34 confirmed).toNat + 2
    let (ret, t) := rate34 packet (Vector.replicate 18 0)
    let bytes := fun i => if h : i < 18 then t[i] else if i < size then 0 else past i
    if ret ≠ 0 then ⟨-1, block, []⟩
    else if confirmed then
      decodeConfirmed bytes size (dmrDataBlockSize DMR_DATA_RATE34 confirmed)
        (dmrDataBlockSize_le DMR_DATA_RATE34 confirmed)
    else ⟨0, block, []⟩
  else ⟨-1, block, []⟩

/-! ## The checksum -/

/-- Of a whole byte no bit is fed. -/
theorem dmrCrc9_eight (crc : UInt16) (byte : UInt8) : dmrCrc9 crc byte 8 = dmrCrc9Finish crc 8 := by
  have hmask : forLoop (UInt8.toNat 8) (fun _ (v : UInt8) => v >>> 1) 0x80 = 0 := by decide
  unfold dmrCrc9 dmrCrc9Finish
  simp only [hmask]
  -- a round with no bit to pick is a round that clears the register
  rw [← forLoop_hom (f := fun _ => crc9FinishRound) (fun crc : UInt16 => (crc, (0 : UInt8)))
    fun _ crc => ?_]
  · rfl
  · simp only [crc9Round, UInt8.and_zero, ne_eq, not_true, if_false]
    rfl

/-- Of a serial number only the lowest bit is fed. -/
theorem blockCrc9_eq {n : Nat} (data : Fin n → UInt8) (serial : UInt8) :
    blockCrc9 data serial = if serial &&& 1 = 0 then 0 else 0x3a := by
  have hbytes : forLoop n (fun i crc => dmrCrc9 crc (data i) 8) 0 = 0 := by
    refine forLoop_inv (fun _ crc => crc = 0) rfl fun i crc hcrc => ?_
    rw [dmrCrc9_eight, hcrc]
    rfl
  have hserial : ∀ v : BitVec 8,
      ((~~~dmrCrc9Finish (dmrCrc9 0 ⟨v⟩ 7) 8) &&& 0x01ff) ^^^ 0x01ff =
        if (⟨v⟩ : UInt8) &&& 1 = 0 then 0 else 0x3a := by
    decide +kernel
  unfold blockCrc9
  rw [hbytes]
  exact hserial serial.toBitVec

/-- A bit that the checksum is to protect. -/
inductive BlockBit where
  | data (i : Fin 16) (j : Fin 8)
  | serial (j : Fin 7)

/-- The data bytes with the bit received wrong … -/
def BlockBit.flipData (bytes : Fin 16 → UInt8) : BlockBit → Fin 16 → UInt8
  | .data i j => Function.update bytes i (bytes i ^^^ (1 <<< UInt8.ofNat j.val))
  | .serial _ => bytes

/-- … and the serial number. -/
def BlockBit.flipSerial (number : UInt8) : BlockBit → UInt8
  | .data _ _ => number
  | .serial j => number ^^^ (1 <<< UInt8.ofNat j.val)

/-- **The checksum of a block.** An error in a single bit changes it exactly if it is in the
lowest bit of the serial number. -/
theorem crc9_protects_iff (data : Fin 16 → UInt8) (serial : UInt8) (bit : BlockBit) :
    blockCrc9 (bit.flipData data) (bit.flipSerial serial) ≠ blockCrc9 data serial ↔
      bit = .serial 0 := by
  rw [blockCrc9_eq, blockCrc9_eq]
  cases bit with
  | data i j => exact iff_of_false (fun h => h rfl) nofun
  | serial j =>
    have hflip : ∀ (v : BitVec 8) (j : Fin 7),
        (if ((⟨v⟩ : UInt8) ^^^ (1 <<< UInt8.ofNat j.val)) &&& 1 = 0 then (0 : UInt16) else 0x3a) ≠
          (if (⟨v⟩ : UInt8) &&& 1 = 0 then 0 else 0x3a) ↔ j = 0 := by
      decide +kernel
    rw [BlockBit.serial.injEq]
    exact hflip serial.toBitVec j

/-- In a block of zeros, an error in the first bit of the data does not change it. -/
theorem not_crc9_protects :
    let data : Fin 16 → UInt8 := fun _ => 0
    let bit : BlockBit := .data 0 7
    ¬ blockCrc9 (bit.flipData data) (bit.flipSerial 0) ≠ blockCrc9 data 0 :=
  fun hne => hne (by decide +kernel)

/-! ## Decoding -/

/-- A confirmed block, as the 18 bytes hold it. -/
structure IsConfirmed (t : Vector UInt8 18) (block : DmrDataBlock) : Prop where
  length : block.length = 16
  serial : block.serial.toNat = t[0].toNat / 2
  crc : block.crc.toNat = t[0].toNat % 2 * 256 + t[1].toNat
  data : ∀ i : Fin 16, block.data[i.val] = t[2 + i.val]

/-- An unconfirmed one. -/
structure IsUnconfirmed (t : Vector UInt8 18) (block : DmrDataBlock) : Prop where
  length : block.length = 18
  data : ∀ i : Fin 18, block.data[i.val] = t[i.val]

/-- Only bytes that the trellis decoder has stored are read. -/
def ReadsInside (d : DataBlockDecoded) : Prop := ∀ i ∈ d.reads, i < 18

/-- A block that is accepted is the one received, and read from within the local array. -/
def DecodesBlock (t : Vector UInt8 18) (confirmed : Bool) (d : DataBlockDecoded) : Prop :=
  d.ret = 0 →
    (if confirmed then IsConfirmed t d.block else IsUnconfirmed t d.block) ∧ ReadsInside d

/-- The checksum that a confirmed block comes with. -/
def receivedCrc9 (t : Vector UInt8 18) : UInt16 :=
  (t[0] &&& 0x01).toUInt16 <<< 8 ||| t[1].toUInt16

/-- The checksum that its data and serial number have. -/
def computedCrc9 (t : Vector UInt8 18) : UInt16 :=
  blockCrc9 (fun i : Fin 16 => t[2 + i.val]) (t[0] >>> 1)

theorem toNat_receivedCrc9 (t : Vector UInt8 18) :
    (receivedCrc9 t).toNat = t[0].toNat % 2 * 256 + t[1].toNat := by
  have hlow := t[1].toNat_lt
  have htop : (t[0] &&& 0x01).toNat = t[0].toNat % 2 := by
    rw [UInt8.toNat_and]
    exact Nat.and_one_is_mod t[0].toNat
  have hshift : ((t[0] &&& 0x01).toUInt16 <<< 8).toNat = (t[0].toNat % 2) <<< 8 := by
    rw [UInt16.toNat_shiftLeft, UInt8.toNat_toUInt16, htop]
    refine Nat.mod_eq_of_lt ?_
    rw [Nat.shiftLeft_eq]
    have hmod := Nat.mod_lt t[0].toNat (show 0 < 2 by decide)
    exact lt_of_le_of_lt (Nat.mul_le_mul_right _ (Nat.le_of_lt_succ hmod)) (by decide)
  rw [receivedCrc9, UInt16.toNat_or, hshift, UInt8.toNat_toUInt16,
    ← Nat.shiftLeft_add_eq_or_of_lt hlow, Nat.shiftLeft_eq]

section Confirmed

variable {bytes : Nat → UInt8} {t : Vector UInt8 18} (ht : ∀ i : Fin 18, bytes i.val = t[i.val])

include ht

theorem decodeConfirmed_data (i : Fin 16) :
    (decodeConfirmed bytes 18 16 (by decide)).block.data[i.val] = t[2 + i.val] := by
  have hinj : Function.Injective fun i : Fin 18 => (⟨i.val, by omega⟩ : Fin 24) := by
    intro a b hab
    exact Fin.ext (congrArg (fun k : Fin 24 => k.val) hab)
  exact (forLoop_set hinj (fun i => bytes (2 + i.val)) (Vector.replicate 24 0)
    ⟨i.val, by omega⟩).trans (ht ⟨2 + i.val, by omega⟩)

theorem decodeConfirmed_crc : (decodeConfirmed bytes 18 16 (by decide)).block.crc =
    receivedCrc9 t := by
  have h0 := ht 0
  have h1 := ht 1
  simp only [decodeConfirmed, receivedCrc9]
  rw [show bytes 0 = t[0] from h0, show bytes 1 = t[1] from h1]

theorem decodeConfirmed_serial : (decodeConfirmed bytes 18 16 (by decide)).block.serial =
    t[0] >>> 1 :=
  congrArg (fun byte : UInt8 => byte >>> 1) (ht 0)

/-- What the branch for confirmed blocks makes of a local array that holds `t`. -/
theorem isConfirmed_decodeConfirmed :
    IsConfirmed t (decodeConfirmed bytes 18 16 (by decide)).block where
  length := rfl
  serial := by
    rw [decodeConfirmed_serial ht, UInt8.toNat_shiftRight]
    rfl
  crc := by rw [decodeConfirmed_crc ht, toNat_receivedCrc9]
  data := decodeConfirmed_data ht

theorem ret_decodeConfirmed : (decodeConfirmed bytes 18 16 (by decide)).ret = 0 ↔
    computedCrc9 t = receivedCrc9 t := by
  have hok : (decodeConfirmed bytes 18 16 (by decide)).block.ok =
      decide (blockCrc9 (fun i : Fin 16 =>
        (decodeConfirmed bytes 18 16 (by decide)).block.data[i.val])
          (decodeConfirmed bytes 18 16 (by decide)).block.serial =
        (decodeConfirmed bytes 18 16 (by decide)).block.crc) := rfl
  have hret : (decodeConfirmed bytes 18 16 (by decide)).ret =
      if (decodeConfirmed bytes 18 16 (by decide)).block.ok then 0 else -1 := rfl
  rw [decodeConfirmed_serial ht, decodeConfirmed_crc ht, funext (decodeConfirmed_data ht)] at hok
  have hzero : ∀ ok : Bool, (if ok then (0 : Int) else -1) = 0 ↔ ok = true := by decide
  rw [hret, hzero, hok, decide_eq_true_iff]
  rfl

end Confirmed

/-- The last byte copied is the second one behind the array. -/
theorem mem_reads_decodeConfirmed (bytes : Nat → UInt8) :
    19 ∈ (decodeConfirmed bytes 18 16 (by decide)).reads := by
  show 19 ∈ [0, 0, 1] ++ (List.range (min 24 18)).map (2 + ·)
  decide

section Decode

variable (rate34 : DmrPacket → Vector UInt8 18 → Int × Vector UInt8 18) (past : Nat → UInt8)
  (packet : DmrPacket)

theorem dmrDataBlockDecode_failed {confirmed : Bool}
    (h : (rate34 packet (Vector.replicate 18 0)).1 ≠ 0) :
    dmrDataBlockDecode rate34 past packet confirmed DMR_DATA_TYPE_RATE34_DATA =
      ⟨-1, ⟨0, 0, false, Vector.replicate 24 0, dmrDataBlockSize DMR_DATA_RATE34 confirmed⟩,
        []⟩ := by
  unfold dmrDataBlockDecode
  simp only [if_pos h, if_true]

theorem dmrDataBlockDecode_unconfirmed (h : (rate34 packet (Vector.replicate 18 0)).1 = 0) :
    dmrDataBlockDecode rate34 past packet false DMR_DATA_TYPE_RATE34_DATA =
      ⟨0, ⟨0, 0, false, Vector.replicate 24 0, 18⟩, []⟩ := by
  unfold dmrDataBlockDecode
  simp only [h, ne_eq, not_true, if_false, if_true, Bool.false_eq_true]
  rfl

theorem dmrDataBlockDecode_confirmed (h : (rate34 packet (Vector.replicate 18 0)).1 = 0) :
    dmrDataBlockDecode rate34 past packet true DMR_DATA_TYPE_RATE34_DATA =
      decodeConfirmed (fun i => if h : i < 18 then (rate34Bytes rate34 packet)[i]
        else if i < 18 then 0 else past i) 18 16 (by decide) := by
  unfold dmrDataBlockDecode
  simp only [h, ne_eq, not_true, if_false, if_true]
  rfl

end Decode

/-- **The reads.** Every confirmed block that comes through the trellis decoder is read beyond the
array, whether its checksum is right or not. -/
theorem readsInside_iff (rate34 : DmrPacket → Vector UInt8 18 → Int × Vector UInt8 18)
    (past : Nat → UInt8) (packet : DmrPacket) (confirmed : Bool) :
    ReadsInside (dmrDataBlockDecode rate34 past packet confirmed DMR_DATA_TYPE_RATE34_DATA) ↔
      (rate34 packet (Vector.replicate 18 0)).1 ≠ 0 ∨ confirmed = false := by
  by_cases hret : (rate34 packet (Vector.replicate 18 0)).1 = 0
  · rw [or_iff_right (not_not_intro hret)]
    cases confirmed with
    | true =>
      rw [dmrDataBlockDecode_confirmed rate34 past packet hret]
      refine iff_of_false (fun h => ?_) (by decide)
      exact absurd (h 19 (mem_reads_decodeConfirmed _)) (by decide)
    | false =>
      rw [dmrDataBlockDecode_unconfirmed rate34 past packet hret]
      exact iff_of_true (fun i hi => nomatch hi) rfl
  · refine iff_of_true ?_ (Or.inl hret)
    rw [dmrDataBlockDecode_failed rate34 past packet hret]
    exact fun i hi => nomatch hi

/-- **Data blocks.** A block that is accepted is right only if it is unconfirmed and all zeros. Of
a confirmed one the fields are right (`isConfirmed_decodeConfirmed`), but two bytes behind the
array are read, also where the block is then refused. -/
theorem data_block_decode_iff (rate34 : DmrPacket → Vector UInt8 18 → Int × Vector UInt8 18)
    (past : Nat → UInt8) (packet : DmrPacket) (confirmed : Bool) :
    (DecodesBlock (rate34Bytes rate34 packet) confirmed
        (dmrDataBlockDecode rate34 past packet confirmed DMR_DATA_TYPE_RATE34_DATA) ↔
      (rate34 packet (Vector.replicate 18 0)).1 ≠ 0 ∨
        (if confirmed then computedCrc9 (rate34Bytes rate34 packet) ≠
            receivedCrc9 (rate34Bytes rate34 packet)
          else (rate34Bytes rate34 packet) = Vector.replicate 18 0)) ∧
      (ReadsInside (dmrDataBlockDecode rate34 past packet confirmed DMR_DATA_TYPE_RATE34_DATA) ↔
        (rate34 packet (Vector.replicate 18 0)).1 ≠ 0 ∨ confirmed = false) := by
  have hreads := readsInside_iff rate34 past packet confirmed
  refine ⟨?_, hreads⟩
  by_cases hret : (rate34 packet (Vector.replicate 18 0)).1 = 0
  · rw [or_iff_right (not_not_intro hret)]
    cases confirmed with
    | true =>
      have hbytes : ∀ i : Fin 18, (fun i => if h : i < 18 then (rate34Bytes rate34 packet)[i]
          else if i < 18 then 0 else past i) i.val = (rate34Bytes rate34 packet)[i.val] :=
        fun i => dif_pos i.isLt
      -- two bytes behind the buffer are read, whatever the checksum says
      have houtside := hreads.not.mpr (by simp [hret])
      rw [dmrDataBlockDecode_confirmed rate34 past packet hret] at houtside ⊢
      rw [if_pos rfl, DecodesBlock, ret_decodeConfirmed hbytes]
      refine ⟨fun h heq => ?_, fun hne heq => absurd heq hne⟩
      exact houtside (h heq).2
    | false =>
      rw [dmrDataBlockDecode_unconfirmed rate34 past packet hret]
      -- nothing is copied, so the block stays zero
      constructor
      · intro h
        refine Vector.ext fun i hi => ?_
        have hdata := (h rfl).1.data ⟨i, hi⟩
        rw [Vector.getElem_replicate] at hdata ⊢
        exact hdata.symm
      · intro hzero _
        refine ⟨⟨rfl, fun i => ?_⟩, fun i hi => nomatch hi⟩
        rw [hzero, Vector.getElem_replicate, Vector.getElem_replicate]
  · refine iff_of_true (fun h => ?_) (Or.inl hret)
    rw [dmrDataBlockDecode_failed rate34 past packet hret] at h
    exact absurd (show (-1 : Int) = 0 from h) (by decide)

/-- A burst that the trellis decoder accepts: as a confirmed block, two bytes behind the array are
read. -/
theorem not_data_block_decode :
    let packet : DmrPacket :=
      #v[0x22, 0x22, 0x22, 0x22, 0x22, 0x22, 0x22, 0x22, 0x22, 0x22, 0x22, 0x22, 0x22, 0x22, 0x22,
        0x22, 0x22, 0x22, 0x22, 0x22, 0x22, 0x22, 0x22, 0x22, 0x20, 0, 0, 0, 0, 0, 0, 0, 0]
    let rate34 := dmrTrellisRate34Decode ⟨Vector.replicate 264 false, Vector.replicate 196 false,
      Vector.replicate 98 0, Vector.replicate 98 0, Vector.replicate 49 0, Vector.replicate 48 0⟩
    ¬ DecodesBlock (rate34Bytes rate34 packet) true
      (dmrDataBlockDecode rate34 (fun _ => 0) packet true DMR_DATA_TYPE_RATE34_DATA) := by
  intro packet rate34 hdecode
  have hpoints : trellisPoints (firstBits packet) = Vector.replicate 49 0 :=
    trellisPoints_ofFn ⟨fun k => if k.val % 2 = 0 then 1 else -1, by decide +kernel,
      by decide +kernel⟩
  have hpath : ∃ tribits, IsTrellisPath (trellisPoints (firstBits packet)) tribits := by
    refine ⟨fun _ => 0, ?_⟩
    rw [isTrellisPath_zero_iff, hpoints]
    exact fun i => Vector.getElem_replicate _
  have hrate34 : rate34 packet (Vector.replicate 18 0) = (0, Vector.replicate 18 0) :=
    dmrTrellisRate34Decode_of_path hpath _ _
  have hbytes : rate34Bytes rate34 packet = Vector.replicate 18 0 := by rw [rate34Bytes, hrate34]
  rw [dmrDataBlockDecode_confirmed rate34 _ packet (by rw [hrate34]), hbytes] at hdecode
  have hcrc : computedCrc9 (Vector.replicate 18 0) = receivedCrc9 (Vector.replicate 18 0) := by
    decide +kernel
  have hread := (hdecode ((ret_decodeConfirmed fun i => dif_pos i.isLt).mpr hcrc)).2 19
    (mem_reads_decodeConfirmed _)
  exact absurd hread (by decide)

end Dmrlib
