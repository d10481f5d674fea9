import Dmrlib.Bits

/-!
# Reed-Solomon(12,9) (`src/dmr/fec/rs_12_9.c`)

Three parity bytes over GF(256) follow nine data bytes. The parity is computed by
a shift register that divides by the generator polynomial, and the checker
computes it again and compares: `dmrRs12_9_4Decode_eq_zero_iff`. The register
reads the nine data bytes only, so whatever is done to the parity bytes does not
change what they are compared with (`rsParity_congr`).

- `gmult`: the product of two bytes by way of the two tables.
- `rsShift`, `rsParity`: one round of the register, and what it holds after nine.
- `dmrRs12_9_4Encode`, `dmrRs12_9_4Decode`: encoder and checker.
- `dmrRs12_9_4Encode_data`, `dmrRs12_9_4Encode_parity`: what the encoder stores where.
-/

namespace Dmrlib

open Loop

/-- `POLY`, the generator polynomial. -/
def rsPoly : Vector UInt8 12 := #v[64, 56, 14, 1, 0, 0, 0, 0, 0, 0, 0, 0]

/-- `EXP_TABLE`, sixteen entries to a row. -/
def rsExpTable : Vector (Vector UInt8 16) 32 := #v[
  #v[0x01, 0x02, 0x04, 0x08, 0x10, 0x20, 0x40, 0x80,
    0x1D, 0x3A, 0x74, 0xE8, 0xCD, 0x87, 0x13, 0x26],
  #v[0x4C, 0x98, 0x2D, 0x5A, 0xB4, 0x75, 0xEA, 0xC9,
    0x8F, 0x03, 0x06, 0x0C, 0x18, 0x30, 0x60, 0xC0],
  #v[0x9D, 0x27, 0x4E, 0x9C, 0x25, 0x4A, 0x94, 0x35,
    0x6A, 0xD4, 0xB5, 0x77, 0xEE, 0xC1, 0x9F, 0x23],
  #v[0x46, 0x8C, 0x05, 0x0A, 0x14, 0x28, 0x50, 0xA0,
    0x5D, 0xBA, 0x69, 0xD2, 0xB9, 0x6F, 0xDE, 0xA1],
  #v[0x5F, 0xBE, 0x61, 0xC2, 0x99, 0x2F, 0x5E, 0xBC,
    0x65, 0xCA, 0x89, 0x0F, 0x1E, 0x3C, 0x78, 0xF0],
  #v[0xFD, 0xE7, 0xD3, 0xBB, 0x6B, 0xD6, 0xB1, 0x7F,
    0xFE, 0xE1, 0xDF, 0xA3, 0x5B, 0xB6, 0x71, 0xE2],
  #v[0xD9, 0xAF, 0x43, 0x86, 0x11, 0x22, 0x44, 0x88,
    0x0D, 0x1A, 0x34, 0x68, 0xD0, 0xBD, 0x67, 0xCE],
  #v[0x81, 0x1F, 0x3E, 0x7C, 0xF8, 0xED, 0xC7, 0x93,
    0x3B, 0x76, 0xEC, 0xC5, 0x97, 0x33, 0x66, 0xCC],
  #v[0x85, 0x17, 0x2E, 0x5C, 0xB8, 0x6D, 0xDA, 0xA9,
    0x4F, 0x9E, 0x21, 0x42, 0x84, 0x15, 0x2A, 0x54],
  #v[0xA8, 0x4D, 0x9A, 0x29, 0x52, 0xA4, 0x55, 0xAA,
    0x49, 0x92, 0x39, 0x72, 0xE4, 0xD5, 0xB7, 0x73],
  #v[0xE6, 0xD1, 0xBF, 0x63, 0xC6, 0x91, 0x3F, 0x7E,
    0xFC, 0xE5, 0xD7, 0xB3, 0x7B, 0xF6, 0xF1, 0xFF],
  #v[0xE3, 0xDB, 0xAB, 0x4B, 0x96, 0x31, 0x62, 0xC4,
    0x95, 0x37, 0x6E, 0xDC, 0xA5, 0x57, 0xAE, 0x41],
  #v[0x82, 0x19, 0x32, 0x64, 0xC8, 0x8D, 0x07, 0x0E,
    0x1C, 0x38, 0x70, 0xE0, 0xDD, 0xA7, 0x53, 0xA6],
  #v[0x51, 0xA2, 0x59, 0xB2, 0x79, 0xF2, 0xF9, 0xEF,
    0xC3, 0x9B, 0x2B, 0x56, 0xAC, 0x45, 0x8A, 0x09],
  #v[0x12, 0x24, 0x48, 0x90, 0x3D, 0x7A, 0xF4, 0xF5,
    0xF7, 0xF3, 0xFB, 0xEB, 0xCB, 0x8B, 0x0B, 0x16],
  #v[0x2C, 0x58, 0xB0, 0x7D, 0xFA, 0xE9, 0xCF, 0x83,
    0x1B, 0x36, 0x6C, 0xD8, 0xAD, 0x47, 0x8E, 0x01],
  #v[0x02, 0x04, 0x08, 0x10, 0x20, 0x40, 0x80, 0x1D,
    0x3A, 0x74, 0xE8, 0xCD, 0x87, 0x13, 0x26, 0x4C],
  #v[0x98, 0x2D, 0x5A, 0xB4, 0x75, 0xEA, 0xC9, 0x8F,
    0x03, 0x06, 0x0C, 0x18, 0x30, 0x60, 0xC0, 0x9D],
  #v[0x27, 0x4E, 0x9C, 0x25, 0x4A, 0x94, 0x35, 0x6A,
    0xD4, 0xB5, 0x77, 0xEE, 0xC1, 0x9F, 0x23, 0x46],
  #v[0x8C, 0x05, 0x0A, 0x14, 0x28, 0x50, 0xA0, 0x5D,
    0xBA, 0x69, 0xD2, 0xB9, 0x6F, 0xDE, 0xA1, 0x5F],
  #v[0xBE, 0x61, 0xC2, 0x99, 0x2F, 0x5E, 0xBC, 0x65,
    0xCA, 0x89, 0x0F, 0x1E, 0x3C, 0x78, 0xF0, 0xFD],
  #v[0xE7, 0xD3, 0xBB, 0x6B, 0xD6, 0xB1, 0x7F, 0xFE,
    0xE1, 0xDF, 0xA3, 0x5B, 0xB6, 0x71, 0xE2, 0xD9],
  #v[0xAF, 0x43, 0x86, 0x11, 0x22, 0x44, 0x88, 0x0D,
    0x1A, 0x34, 0x68, 0xD0, 0xBD, 0x67, 0xCE, 0x81],
  #v[0x1F, 0x3E, 0x7C, 0xF8, 0xED, 0xC7, 0x93, 0x3B,
    0x76, 0xEC, 0xC5, 0x97, 0x33, 0x66, 0xCC, 0x85],
  #v[0x17, 0x2E, 0x5C, 0xB8, 0x6D, 0xDA, 0xA9, 0x4F,
    0x9E, 0x21, 0x42, 0x84, 0x15, 0x2A, 0x54, 0xA8],
  #v[0x4D, 0x9A, 0x29, 0x52, 0xA4, 0x55, 0xAA, 0x49,
    0x92, 0x39, 0x72, 0xE4, 0xD5, 0xB7, 0x73, 0xE6],
  #v[0xD1, 0xBF, 0x63, 0xC6, 0x91, 0x3F, 0x7E, 0xFC,
    0xE5, 0xD7, 0xB3, 0x7B, 0xF6, 0xF1, 0xFF, 0xE3],
  #v[0xDB, 0xAB, 0x4B, 0x96, 0x31, 0x62, 0xC4, 0x95,
    0x37, 0x6E, 0xDC, 0xA5, 0x57, 0xAE, 0x41, 0x82],
  #v[0x19, 0x32, 0x64, 0xC8, 0x8D, 0x07, 0x0E, 0x1C,
    0x38, 0x70, 0xE0, 0xDD, 0xA7, 0x53, 0xA6, 0x51],
  #v[0xA2, 0x59, 0xB2, 0x79, 0xF2, 0xF9, 0xEF, 0xC3,
    0x9B, 0x2B, 0x56, 0xAC, 0x45, 0x8A, 0x09, 0x12],
  #v[0x24, 0x48, 0x90, 0x3D, 0x7A, 0xF4, 0xF5, 0xF7,
    0xF3, 0xFB, 0xEB, 0xCB, 0x8B, 0x0B, 0x16, 0x2C],
  #v[0x58, 0xB0, 0x7D, 0xFA, 0xE9, 0xCF, 0x83, 0x1B,
    0x36, 0x6C, 0xD8, 0xAD, 0x47, 0x8E, 0x01, 0x00]]

/-- `LOG_TABLE` -/
def rsLogTable : Vector (Vector UInt8 16) 16 := #v[
  #v[0x00, 0x00, 0x01, 0x19, 0x02, 0x32, 0x1A, 0xC6,
    0x03, 0xDF, 0x33, 0xEE, 0x1B, 0x68, 0xC7, 0x4B],
  #v[0x04, 0x64, 0xE0, 0x0E, 0x34, 0x8D, 0xEF, 0x81,
    0x1C, 0xC1, 0x69, 0xF8, 0xC8, 0x08, 0x4C, 0x71],
  #v[0x05, 0x8A, 0x65, 0x2F, 0xE1, 0x24, 0x0F, 0x21,
    0x35, 0x93, 0x8E, 0xDA, 0xF0, 0x12, 0x82, 0x45],
  #v[0x1D, 0xB5, 0xC2, 0x7D, 0x6A, 0x27, 0xF9, 0xB9,
    0xC9, 0x9A, 0x09, 0x78, 0x4D, 0xE4, 0x72, 0xA6],
  #v[0x06, 0xBF, 0x8B, 0x62, 0x66, 0xDD, 0x30, 0xFD,
    0xE2, 0x98, 0x25, 0xB3, 0x10, 0x91, 0x22, 0x88],
  #v[0x36, 0xD0, 0x94, 0xCE, 0x8F, 0x96, 0xDB, 0xBD,
    0xF1, 0xD2, 0x13, 0x5C, 0x83, 0x38, 0x46, 0x40],
  #v[0x1E, 0x42, 0xB6, 0xA3, 0xC3, 0x48, 0x7E, 0x6E,
    0x6B, 0x3A, 0x28, 0x54, 0xFA, 0x85, 0xBA, 0x3D],
  #v[0xCA, 0x5E, 0x9B, 0x9F, 0x0A, 0x15, 0x79, 0x2B,
    0x4E, 0xD4, 0xE5, 0xAC, 0x73, 0xF3, 0xA7, 0x57],
  #v[0x07, 0x70, 0xC0, 0xF7, 0x8C, 0x80, 0x63, 0x0D,
    0x67, 0x4A, 0xDE, 0xED, 0x31, 0xC5, 0xFE, 0x18],
  #v[0xE3, 0xA5, 0x99, 0x77, 0x26, 0xB8, 0xB4, 0x7C,
    0x11, 0x44, 0x92, 0xD9, 0x23, 0x20, 0x89, 0x2E],
  #v[0x37, 0x3F, 0xD1, 0x5B, 0x95, 0xBC, 0xCF, 0xCD,
    0x90, 0x87, 0x97, 0xB2, 0xDC, 0xFC, 0xBE, 0x61],
  #v[0xF2, 0x56, 0xD3, 0xAB, 0x14, 0x2A, 0x5D, 0x9E,
    0x84, 0x3C, 0x39, 0x53, 0x47, 0x6D, 0x41, 0xA2],
  #v[0x1F, 0x2D, 0x43, 0xD8, 0xB7, 0x7B, 0xA4, 0x76,
    0xC4, 0x17, 0x49, 0xEC, 0x7F, 0x0C, 0x6F, 0xF6],
  #v[0x6C, 0xA1, 0x3B, 0x52, 0x29, 0x9D, 0x55, 0xAA,
    0xFB, 0x60, 0x86, 0xB1, 0xBB, 0xCC, 0x3E, 0x5A],
  #v[0xCB, 0x59, 0x5F, 0xB0, 0x9C, 0xA9, 0xA0, 0x51,
    0x0B, 0xF5, 0x16, 0xEB, 0x7A, 0x75, 0x2C, 0xD7],
  #v[0x4F, 0xAE, 0xD5, 0xE9, 0xE6, 0xE7, 0xAD, 0xE8,
    0x74, 0xD6, 0xF4, 0xEA, 0xA8, 0x50, 0x58, 0xAF]]

/-- `gmult`: multiplication using logarithms. -/
def gmult (a b : UInt8) : UInt8 :=
  if a = 0 ∨ b = 0 then 0
  else
    let i := byteTable rsLogTable a
    let j := byteTable rsLogTable b
    have := i.toNat_lt
    have := j.toNat_lt
    rsExpTable[(i.toNat + j.toNat) / 16][(i.toNat + j.toNat) % 16]

/-- One round of `encode`: the register after data byte `byte`. The inner loop runs
`j` from 2 down to 1. -/
def rsShift (byte : UInt8) (parity : Vector UInt8 3) : Vector UInt8 3 :=
  let dbyte := byte ^^^ parity.get 2
  let parity := forLoop 2 (fun r parity =>
    parity.set (2 - r.val) (parity[1 - r.val] ^^^ gmult rsPoly[2 - r.val] dbyte)) parity
  parity.set (0 : Fin 3) (gmult (rsPoly.get 0) dbyte)

/-- `encode`: the parity of the first nine of `bytes`. -/
def rsParity (bytes : Vector UInt8 12) : Vector UInt8 3 :=
  forLoop 9 (fun i parity => rsShift (bytes.get (i.castAdd 3)) parity)
    (Vector.replicate 3 0)

/-- `dmr_rs_12_9_4_decode` -/
def dmrRs12_9_4Decode (bytes : Vector UInt8 12) : Int :=
  let parity := rsParity bytes
  if bytes.get 9 ^^^ parity.get 2 ≠ 0 ∨
    bytes.get 10 ^^^ parity.get 1 ≠ 0 ∨
    bytes.get 11 ^^^ parity.get 0 ≠ 0 then -1
  else 0

/-- `dmr_rs_12_9_4_encode` -/
def dmrRs12_9_4Encode (bytes : Vector UInt8 12) : Vector UInt8 12 :=
  let parity := rsParity bytes
  forLoop 3 (fun i bytes => bytes.set (11 - i.val) parity[i]) bytes

/-! ## What encoder and checker compute -/

/-- The parity depends on the nine data bytes alone. -/
theorem rsParity_congr {a b : Vector UInt8 12}
    (h : ∀ i : Fin 9, getElem a i (i.castAdd 3).isLt = getElem b i (i.castAdd 3).isLt) :
    rsParity a = rsParity b := by
  unfold rsParity
  have hbody : (fun (i : Fin 9) parity => rsShift (a.get (i.castAdd 3)) parity) =
      fun i parity => rsShift (b.get (i.castAdd 3)) parity :=
    funext fun i => by rw [show a.get (i.castAdd 3) = b.get (i.castAdd 3) from h i]
  rw [hbody]

/-- The encoder keeps the data bytes … -/
theorem dmrRs12_9_4Encode_data (bytes : Vector UInt8 12) (i : Fin 9) :
    getElem (dmrRs12_9_4Encode bytes) i (i.castAdd 3).isLt =
      getElem bytes i (i.castAdd 3).isLt :=
  forLoop_set_other (f := fun i : Fin 3 => (⟨11 - i.val, by omega⟩ : Fin 12))
    (fun r => (rsParity bytes)[r]) bytes (by omega) fun r hr => by simp only at hr; omega

/-- … and stores the parity behind them, last byte first. -/
theorem dmrRs12_9_4Encode_parity (bytes : Vector UInt8 12) (r : Fin 3) :
    (dmrRs12_9_4Encode bytes)[11 - r.val] = (rsParity bytes)[r] :=
  forLoop_set (f := fun i : Fin 3 => (⟨11 - i.val, by omega⟩ : Fin 12))
    (fun a b hab => Fin.ext (by have := Fin.val_eq_of_eq hab; simp only at this; omega))
    (fun r => (rsParity bytes)[r]) bytes r

/-- The checker accepts exactly the words whose last three bytes are their
parity. -/
theorem dmrRs12_9_4Decode_eq_zero_iff (bytes : Vector UInt8 12) :
    dmrRs12_9_4Decode bytes = 0 ↔ ∀ r : Fin 3, bytes[11 - r.val] = (rsParity bytes)[r] := by
  have hall : (∀ r : Fin 3, bytes[11 - r.val] = (rsParity bytes)[r]) ↔
      ¬ (bytes[9] ^^^ (rsParity bytes)[2] ≠ 0 ∨ bytes[10] ^^^ (rsParity bytes)[1] ≠ 0 ∨
        bytes[11] ^^^ (rsParity bytes)[0] ≠ 0) := by
    simp only [ne_eq, UInt8.xor_eq_zero_iff, Fin.forall_fin_succ]
    simp
    tauto
  rw [dmrRs12_9_4Decode, hall]
  split
  · next hdiff => exact iff_of_false (by decide) fun h => h hdiff
  · next hsame => exact iff_of_true rfl hsame

end Dmrlib
