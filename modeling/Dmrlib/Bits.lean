import Dmrlib.Lib.Loop

/-!
# Bytes and bits (`src/dmr/bits.c`)

The library unpacks bytes into arrays of `bool`, most significant bit first,
does its coding on the bits and packs them again. A `bool[8]` argument is a
function `Fin 8 → Bool`; a sized array is a `Vector`, so that every index in
the loops below is checked against the array it goes into.

`dmrBytesToBits_getElem` and `dmrBitsToBytes_getElem` say where each bit ends
up; with the two round trips of a single byte they make packing and unpacking
inverse to each other.

- `dmrByteToBits`, `dmrBitsToByte`: a byte and its eight bits, each the inverse of the other.
- `dmrBytesToBits`, `dmrBitsToBytes`: the loops over whole arrays.
- `byteTable`: the way the tables of the codes are written down.
- `dmrBytesToBits_dmrBitsToBytes`, `dmrBitsToBytes_dmrBytesToBits`: nothing is lost on the way
  there and back.

The rest are facts about bytes, masks and shifts that the encoders and decoders of packets share.
-/

namespace Dmrlib

open Loop

/-- `dmr_byte_to_bits` -/
def dmrByteToBits (byte : UInt8) : Vector Bool 8 :=
  #v[byte &&& 128 > 0, byte &&& 64 > 0, byte &&& 32 > 0, byte &&& 16 > 0,
    byte &&& 8 > 0, byte &&& 4 > 0, byte &&& 2 > 0, byte &&& 1 > 0]

/-- `dmr_bits_to_byte` -/
def dmrBitsToByte (bits : Fin 8 → Bool) : UInt8 :=
  forLoop 8 (fun i val => if bits i then val ||| (1 <<< UInt8.ofNat (7 - (i : Nat))) else val) 0

/-- `dmr_bytes_to_bits`: unpack `bytes` over the array `bits`. -/
def dmrBytesToBits {n m : Nat} (bytes : Vector UInt8 n) (bits : Vector Bool m) :
    Vector Bool m :=
  forLoop (min (m / 8) n) (fun i bits =>
    forLoop 8 (fun j bits => bits.set (i * 8 + j) (dmrByteToBits bytes[i])[j]) bits) bits

/-- `dmr_bits_to_bytes`: pack `bits` over the array `bytes`. -/
def dmrBitsToBytes {n m : Nat} (bits : Vector Bool m) (bytes : Vector UInt8 n) :
    Vector UInt8 n :=
  forLoop (min (m / 8) n) (fun i bytes =>
    bytes.set i (dmrBitsToByte fun j => bits[(i : Nat) * 8 + j])) bytes

/-- Entry `i` of a table of 256 entries that is written sixteen to a row, so that a
lookup evaluates quickly. -/
def byteTable {α : Type} (rows : Vector (Vector α 16) 16) (i : UInt8) : α :=
  have := i.toNat_lt
  rows[i.toNat / 16][i.toNat % 16]

/-! ## One byte -/

/-- Packing a byte's bits gives the byte back. -/
theorem dmrBitsToByte_dmrByteToBits (b : UInt8) :
    dmrBitsToByte (fun j => (dmrByteToBits b)[j]) = b := by
  have h : ∀ v : BitVec 8,
      dmrBitsToByte (fun j => (dmrByteToBits (UInt8.ofBitVec v))[j]) = UInt8.ofBitVec v := by
    decide +kernel
  exact h b.toBitVec

/-- Unpacking a packed byte gives the bits back. -/
theorem dmrByteToBits_dmrBitsToByte (bits : Fin 8 → Bool) (j : Fin 8) :
    (dmrByteToBits (dmrBitsToByte bits))[j] = bits j := by
  have h : ∀ b0 b1 b2 b3 b4 b5 b6 b7 : Bool, ∀ j : Fin 8,
      (dmrByteToBits (dmrBitsToByte ![b0, b1, b2, b3, b4, b5, b6, b7]))[j]
        = ![b0, b1, b2, b3, b4, b5, b6, b7] j := by
    decide +kernel
  have hbits : bits = ![bits 0, bits 1, bits 2, bits 3, bits 4, bits 5, bits 6, bits 7] := by
    funext k
    fin_cases k <;> rfl
  rw [hbits]
  exact h ..

/-- `dmr_byte_to_bits` lists the bits from the most significant one down. -/
theorem dmrByteToBits_getElem (b : UInt8) (j : Fin 8) :
    (dmrByteToBits b)[j] = b.toBitVec.getMsbD j := by
  have h : ∀ v : BitVec 8, ∀ j : Fin 8,
      (dmrByteToBits (UInt8.ofBitVec v))[j] = v.getMsbD j := by
    decide +kernel
  exact h b.toBitVec j

/-- Bytes with the same bits are the same byte. -/
theorem byte_ext {a b : UInt8} (h : ∀ j : Fin 8, (dmrByteToBits a)[j] = (dmrByteToBits b)[j]) :
    a = b := by
  rw [← dmrBitsToByte_dmrByteToBits a, ← dmrBitsToByte_dmrByteToBits b]
  exact congrArg dmrBitsToByte (funext h)

/-! ## The bytes of a word -/

theorem or_and_distrib (a b mask : UInt8) :
    (a ||| b) &&& mask = (a &&& mask) ||| (b &&& mask) := by
  refine UInt8.eq_of_toBitVec_eq ?_
  exact BitVec.and_or_distrib_right

/-- A word that fits a byte comes back from it. -/
theorem toUInt32_toUInt8_of_lt {v : UInt32} (h : v.toNat < 256) : v.toUInt8.toUInt32 = v := by
  refine UInt32.toNat_inj.mp ?_
  rw [UInt8.toNat_toUInt32, UInt32.toNat_toUInt8]
  exact Nat.mod_eq_of_lt h

theorem toNat_shiftRight_eight (v : UInt32) : (v >>> 8).toNat = v.toNat / 256 := by
  rw [UInt32.toNat_shiftRight]
  exact Nat.shiftRight_eq_div_pow v.toNat 8

theorem shiftRight_sixteen (v : UInt32) : v >>> 16 = (v >>> 8) >>> 8 := by
  refine UInt32.toNat_inj.mp ?_
  rw [toNat_shiftRight_eight, toNat_shiftRight_eight, UInt32.toNat_shiftRight,
    Nat.div_div_eq_div_mul]
  exact Nat.shiftRight_eq_div_pow v.toNat 16

theorem shiftLeft_sixteen (v : UInt32) :
    v <<< (16 : UInt32) = v <<< (8 : UInt32) <<< (8 : UInt32) :=
  UInt32.shiftLeft_add (b := 8) (c := 8) (by decide) (by decide) (by decide)

/-- A word is put together from its lowest byte and the others. -/
theorem lowByte_or_shift (v : UInt32) : v.toUInt8.toUInt32 ||| (v >>> 8) <<< (8 : UInt32) = v := by
  refine UInt32.toNat_inj.mp ?_
  rw [UInt32.toNat_or, UInt8.toNat_toUInt32, UInt32.toNat_toUInt8, UInt32.toNat_shiftLeft,
    toNat_shiftRight_eight]
  show v.toNat % 2 ^ 8 ||| (v.toNat / 256) <<< 8 % 2 ^ 32 = v.toNat
  have hlt := v.toNat_lt
  have hhigh : (v.toNat / 256) <<< 8 % 2 ^ 32 = (v.toNat / 256) <<< 8 := by
    rw [Nat.shiftLeft_eq]
    omega
  rw [hhigh, Nat.or_comm, ← Nat.shiftLeft_add_eq_or_of_lt (Nat.mod_lt _ (by decide)),
    Nat.shiftLeft_eq]
  omega

/-! ## Whole arrays -/

/-- The inner loop writes the eight cells of byte `i` and no others. -/
theorem unpackByte_getElem {m : Nat} (byte : UInt8) (bits : Vector Bool m) {i : Nat}
    (hi : i * 8 + 7 < m) {q : Nat} (hq : q < m) :
    (forLoop 8 (fun j bits => bits.set (i * 8 + j) (dmrByteToBits byte)[j]) bits)[q] =
      if q / 8 = i then (dmrByteToBits byte)[q % 8] else bits[q] := by
  have hinj : Function.Injective (fun j : Fin 8 => (⟨i * 8 + j, by omega⟩ : Fin m)) := by
    intro a b hab
    have : i * 8 + (a : Nat) = i * 8 + b := congrArg Fin.val hab
    exact Fin.ext (by omega)
  split
  · next hsame =>
    have hmod : q % 8 < 8 := Nat.mod_lt _ (by decide)
    have hset := forLoop_set hinj (fun j => (dmrByteToBits byte)[j]) bits ⟨q % 8, hmod⟩
    have hidx : i * 8 + q % 8 = q := by omega
    simp only [Fin.getElem_fin, hidx] at hset
    simpa only [Fin.getElem_fin] using hset
  · next hother =>
    exact forLoop_set_other (f := fun j : Fin 8 => (⟨i * 8 + j, by omega⟩ : Fin m))
      (fun j => (dmrByteToBits byte)[j]) bits hq fun j hj => by
        simp only at hj
        omega

/-- Bit `q` of an unpacked array is bit `q % 8` of byte `q / 8`. -/
theorem dmrBytesToBits_getElem {n m : Nat} (bytes : Vector UInt8 n) (bits : Vector Bool m)
    {q : Nat} (hq : q < m) (hm : q / 8 < m / 8) (hn : q / 8 < n) :
    (dmrBytesToBits bytes bits)[q] = (dmrByteToBits bytes[q / 8])[q % 8] := by
  have key := forLoop_inv (n := min (m / 8) n)
    (f := fun i (bits : Vector Bool m) =>
      forLoop 8 (fun j bits => bits.set (i * 8 + j) (dmrByteToBits bytes[i])[j]) bits)
    (s := bits)
    (fun k t => ∀ (r : Nat) (hr : r < m) (hn : r / 8 < n), r / 8 < k →
      t[r] = (dmrByteToBits bytes[r / 8])[r % 8])
    (fun r _ _ hr => absurd hr (Nat.not_lt_zero _))
    (fun i t ht r hr hn hk => by
      rw [unpackByte_getElem _ t (by omega) hr]
      split
      · next hsame => simp only [Fin.getElem_fin, hsame]
      · exact ht r hr hn (by omega))
  exact key q hq hn (by omega)

/-- Byte `i` of a packed array is packed from bits `8 * i` to `8 * i + 7`. -/
theorem dmrBitsToBytes_getElem {n m : Nat} (bits : Vector Bool m) (bytes : Vector UInt8 n)
    {i : Nat} (hm : i < m / 8) (hn : i < n) :
    (dmrBitsToBytes bits bytes)[i] = dmrBitsToByte fun j => bits[i * 8 + j.val] := by
  have hinj : Function.Injective
      (fun k : Fin (min (m / 8) n) => (⟨k, by omega⟩ : Fin n)) := by
    intro a b hab
    exact Fin.ext (congrArg (fun k : Fin n => (k : Nat)) hab)
  exact forLoop_set hinj (fun k => dmrBitsToByte fun j => bits[(k : Nat) * 8 + j.val]) bytes
    ⟨i, by omega⟩

/-- Unpacking what was packed gives the bits back. -/
theorem dmrBytesToBits_dmrBitsToBytes {n : Nat} (bits bits' : Vector Bool (8 * n))
    (bytes : Vector UInt8 n) :
    dmrBytesToBits (dmrBitsToBytes bits bytes) bits' = bits := by
  refine Vector.ext fun q hq => ?_
  have hm : q / 8 < 8 * n / 8 := by omega
  have hn : q / 8 < n := by omega
  rw [dmrBytesToBits_getElem _ _ hq hm hn, dmrBitsToBytes_getElem _ _ hm hn]
  have hmod : q % 8 < 8 := Nat.mod_lt _ (by decide)
  have hbit := dmrByteToBits_dmrBitsToByte
    (fun j => bits[q / 8 * 8 + j.val]) ⟨q % 8, hmod⟩
  simp only [Fin.getElem_fin] at hbit
  rw [hbit]
  congr 1
  omega

/-- Packing what was unpacked gives the bytes back. -/
theorem dmrBitsToBytes_dmrBytesToBits {n : Nat} (bytes bytes' : Vector UInt8 n)
    (bits : Vector Bool (8 * n)) :
    dmrBitsToBytes (dmrBytesToBits bytes bits) bytes' = bytes := by
  refine Vector.ext fun i hi => ?_
  rw [dmrBitsToBytes_getElem _ _ (by omega) hi]
  rw [← dmrBitsToByte_dmrByteToBits bytes[i]]
  congr 1
  funext j
  rw [dmrBytesToBits_getElem _ _ (by omega) (by omega) (by omega)]
  have hdiv : (i * 8 + (j : Nat)) / 8 = i := by omega
  have hmod : (i * 8 + (j : Nat)) % 8 = j := by omega
  simp only [hdiv, hmod, Fin.getElem_fin]

end Dmrlib
