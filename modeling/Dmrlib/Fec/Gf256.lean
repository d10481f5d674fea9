import Dmrlib.Lib.LogField
import Dmrlib.Fec.Rs129

/-!
# The field behind `gmult` (`src/dmr/fec/rs_12_9.c`)

`EXP_TABLE` lists the powers of 2 modulo x⁸ + x⁴ + x³ + x² + 1, twice over, so
that a sum of two logarithms needs no reduction, and `LOG_TABLE` inverts it.
Bytes with exclusive or and `gmult` are therefore a field (`LogTables.toField`):
doubling is a shift and a correction by 0x1D, and so additive.

- `expEntry`, `expByte`: the entries of the table of powers.
- `double`: multiplication by 2.
- `tables`: the two tables have what `LogTables` asks for.
- `Gf256`: bytes as elements of the field.
- `byte_mul`: the field's product is the `gmult` of the source.
-/

namespace Dmrlib

/-- `EXP_TABLE[n]`, within the table. -/
def expEntry (n : Nat) (h : n < 512) : UInt8 := rsExpTable[n / 16][n % 16]

/-- Power `n` of 2; the table repeats after 255 entries. -/
def expByte (n : Nat) : UInt8 := expEntry (n % 255) (by omega)

/-- Multiplication by 2: bit 7 comes back as 0x1D. -/
def double (b : UInt8) : UInt8 :=
  b <<< 1 ^^^ b >>> 7 ^^^ (b >>> 7) <<< 2 ^^^ (b >>> 7) <<< 3 ^^^ (b >>> 7) <<< 4

theorem double_xor (a b : UInt8) : double (a ^^^ b) = double a ^^^ double b := by
  unfold double
  simp only [UInt8.shiftLeft_xor, UInt8.shiftRight_xor]
  ac_rfl

/-! ## What the tables owe -/

theorem expEntry_eq : ∀ n : Fin 510, expEntry n (by omega) = expByte n := by decide +kernel

theorem expByte_ne_zero (n : Nat) : expByte n ≠ 0 := by
  have hall : ∀ n : Fin 255, expByte n ≠ 0 := by decide +kernel
  have hn := hall ⟨n % 255, Nat.mod_lt _ (by decide)⟩
  simpa [expByte] using hn

theorem expByte_succ (n : Nat) : expByte (n + 1) = double (expByte n) := by
  have hall : ∀ n : Fin 255, expByte (n + 1) = double (expByte n) := by decide +kernel
  have hn := hall ⟨n % 255, Nat.mod_lt _ (by decide)⟩
  simpa [expByte] using hn

theorem logByte (b : UInt8) : (byteTable rsLogTable b).toNat < 255 ∧
    (b ≠ 0 → expByte (byteTable rsLogTable b).toNat = b) := by
  have hall : ∀ n : Fin 256, (byteTable rsLogTable (UInt8.ofNat n)).toNat < 255 ∧
      (UInt8.ofNat n ≠ 0 →
        expByte (byteTable rsLogTable (UInt8.ofNat n)).toNat = UInt8.ofNat n) := by
    decide +kernel
  have hb := hall ⟨b.toNat, b.toNat_lt⟩
  simpa using hb

/-! ## The field -/

/-- A byte as a field element. -/
@[ext]
structure Gf256 where
  byte : UInt8
deriving DecidableEq

namespace Gf256

instance : Add Gf256 := ⟨fun a b => ⟨a.byte ^^^ b.byte⟩⟩

instance : Zero Gf256 := ⟨⟨0⟩⟩

instance : Neg Gf256 := ⟨fun a => a⟩

instance : AddCommGroup Gf256 where
  add_assoc a b c := Gf256.ext (UInt8.xor_assoc _ _ _)
  zero_add a := Gf256.ext UInt8.zero_xor
  add_zero a := Gf256.ext UInt8.xor_zero
  neg_add_cancel a := Gf256.ext UInt8.xor_self
  add_comm a b := Gf256.ext (UInt8.xor_comm _ _)
  nsmul := nsmulRec
  zsmul := zsmulRec

/-- `EXP_TABLE` and `LOG_TABLE` -/
def tables : LogTables Gf256 where
  exp n := ⟨expByte n⟩
  log a := (byteTable rsLogTable a.byte).toNat
  step :=
    { toFun := fun a => ⟨double a.byte⟩
      map_zero' := by decide
      map_add' := fun a b => Gf256.ext (double_xor a.byte b.byte) }
  order := 255
  exp_ne_zero n h := expByte_ne_zero n (congrArg byte h)
  exp_log a ha := Gf256.ext ((logByte a.byte).2 fun h => ha (Gf256.ext h))
  log_le a := (logByte a.byte).1.le
  exp_succ n := Gf256.ext (expByte_succ n)
  exp_order := by decide

instance : Field Gf256 := tables.toField

/-- `gmult` is the multiplication of the field. -/
theorem byte_mul (a b : Gf256) : (a * b).byte = gmult a.byte b.byte := by
  show (tables.mul a b).byte = gmult a.byte b.byte
  have hzero : ∀ c : Gf256, c = 0 ↔ c.byte = 0 := fun c => Gf256.ext_iff
  unfold LogTables.mul gmult
  simp only [hzero]
  split
  · rfl
  · have hlog := (logByte a.byte).1
    have hlog' := (logByte b.byte).1
    exact (expEntry_eq ⟨(byteTable rsLogTable a.byte).toNat + (byteTable rsLogTable b.byte).toNat,
      by omega⟩).symm

end Gf256

end Dmrlib
