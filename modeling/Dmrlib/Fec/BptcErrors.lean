import Dmrlib.Fec.Bptc19696

/-!
# Wrong information bits in a BPTC(196,96) burst

The decoder repairs nothing, so what is left to ask of it is that it does not
hand out a wrong block. Each of the nine rows it checks is a word of the
Hamming(15,11) code, which notices one and two wrong bits (`Hamming.Detects`):
with at most two wrong entries in the matrix, no wrong entry of an accepted
matrix lies in those rows (`invertEntry_accepted`). The data bits are read from
the nine rows only, whatever the column pass makes of the other entries.

- `flipBits`: a burst with the bits of a list inverted.
- `invertEntry_accepted`: a matrix with up to two wrong entries that the decoder accepts has none
  of them in its first nine rows.
- `dmrBptc196_96Decode_flipBits`: with up to two wrong bits the decoder fails, or returns the block
  that was encoded.
-/

namespace Dmrlib

open Loop

/-- The burst with the listed information bits inverted, one after the other. -/
def flipBits (packet : DmrPacket) (flips : List (Fin 196)) : DmrPacket :=
  flips.foldl (fun packet r => flipBit packet (infoBit r)) packet

/-- On the matrix, each wrong information bit is a wrong entry. -/
theorem packetMatrix_flipBits (packet : DmrPacket) (flips : List (Fin 196)) :
    packetMatrix (flipBits packet flips) =
      (flips.map matrixEntry).foldl invertEntry (packetMatrix packet) := by
  unfold flipBits
  induction flips generalizing packet with
  | nil => rfl
  | cons r flips ih =>
    rw [List.foldl_cons, ih, packetMatrix_flipBit, List.map_cons, List.foldl_cons, invertEntry]

theorem invertEntry_comm (deint : Vector Bool 196) {a b : Fin 196} (hab : a ≠ b) :
    invertEntry (invertEntry deint a) b = invertEntry (invertEntry deint b) a := by
  have hne : a.val ≠ b.val := fun h => hab (Fin.ext h)
  unfold invertEntry
  simp only [Fin.getElem_fin]
  rw [Vector.getElem_set_ne _ _ hne, Vector.getElem_set_ne _ _ hne.symm,
    Vector.set_comm _ _ hne]

theorem invertEntry_self (deint : Vector Bool 196) (a : Fin 196) :
    invertEntry (invertEntry deint a) a = deint := by
  unfold invertEntry
  simp

/-- Of two wrong entries in an accepted matrix the first lies below the rows: it
and the second would be one or two wrong bits of a codeword. -/
theorem first_below_rows {deint : Vector Bool 196} (h : MatrixOk deint) {a b : Fin 196}
    (hab : a ≠ b) (hok : MatrixOk (invertEntry (invertEntry deint a) b)) : 135 ≤ a.val := by
  by_contra hlt
  have hvalid := h.rows ⟨a.val / 15, by omega⟩
  have hrow := hok.rows ⟨a.val / 15, by omega⟩
  by_cases hsame : b.val / 15 = a.val / 15
  · rw [invertEntry, rowOf_set_not _ b _ hsame, invertEntry, rowOf_set_not _ a _ rfl] at hrow
    have hcol : (⟨a.val % 15, Nat.mod_lt _ (by decide)⟩ : Fin 15) ≠
        ⟨b.val % 15, Nat.mod_lt _ (by decide)⟩ := by
      intro heq
      have hmod : a.val % 15 = b.val % 15 := congrArg Fin.val heq
      exact hab (Fin.ext (by omega))
    exact hamming15_11_3_detects.not_valid_invert_invert hvalid hcol hrow
  · rw [invertEntry, rowOf_set_other _ b _ _ hsame, invertEntry, rowOf_set_not _ a _ rfl] at hrow
    exact hamming15_11_3_detects.not_valid_invert hvalid _ hrow

/-- At most two wrong entries in an accepted matrix leave its data alone. -/
theorem invertEntry_accepted {deint : Vector Bool 196} (h : MatrixOk deint)
    (ks : List (Fin 196)) (hks : ks.length ≤ 2) (hok : MatrixOk (ks.foldl invertEntry deint)) :
    matrixData (ks.foldl invertEntry deint) = matrixData deint := by
  match ks, hks with
  | [], _ => rfl
  | [a], _ =>
    have ha : 135 ≤ a.val := ((matrixOk_set_not_iff h a).mp hok).1
    exact matrixData_set_other deint a _ ha
  | [a, b], _ =>
    rw [List.foldl_cons, List.foldl_cons, List.foldl_nil] at hok ⊢
    -- a bit that is inverted twice is right again
    by_cases hab : a = b
    · subst hab
      rw [invertEntry_self]
    · have ha : 135 ≤ a.val := first_below_rows h hab hok
      have hb : 135 ≤ b.val := by
        rw [invertEntry_comm _ hab] at hok
        exact first_below_rows h (Ne.symm hab) hok
      calc matrixData (invertEntry (invertEntry deint a) b)
          = matrixData (invertEntry deint a) := matrixData_set_other _ b _ hb
        _ = matrixData deint := matrixData_set_other _ a _ ha

/-- A burst that carries a block, received with at most two wrong information
bits, is refused or delivers that block. -/
theorem Carries.decode_flipBits {packet : DmrPacket} {data : Vector UInt8 12}
    (h : Carries packet data) (flips : List (Fin 196)) (hflips : flips.length ≤ 2)
    (bptc : DmrBptc196_96) (out : Vector UInt8 12)
    (hret : (dmrBptc196_96Decode (flipBits packet flips) bptc out).1 = 0) :
    (dmrBptc196_96Decode (flipBits packet flips) bptc out).2.2 = data := by
  have hok : MatrixOk (packetMatrix (flipBits packet flips)) := by
    by_contra hbad
    rw [(decode_of_not_matrixOk _ bptc out hbad).1] at hret
    cases hret
  have hdata : matrixData (packetMatrix (flipBits packet flips)) =
      matrixData (packetMatrix packet) := by
    rw [packetMatrix_flipBits] at hok ⊢
    exact invertEntry_accepted h.ok _ (by rwa [List.length_map]) hok
  exact (decode_of_carries ⟨hok, hdata.trans h.data_eq⟩ bptc out).2

/-- **No silent corruption.** An encoded burst with at most two information bits
inverted never decodes to another block. -/
theorem dmrBptc196_96Decode_flipBits (packet : DmrPacket) (bptc bptc' : DmrBptc196_96)
    (data out : Vector UInt8 12) (bits : Vector Bool 264) (flips : List (Fin 196))
    (hflips : flips.length ≤ 2) :
    ¬ ((dmrBptc196_96Decode (flipBits (dmrBptc196_96Encode packet bptc data bits).2.1 flips)
          bptc' out).1 = 0 ∧
        (dmrBptc196_96Decode (flipBits (dmrBptc196_96Encode packet bptc data bits).2.1 flips)
          bptc' out).2.2 ≠ data) := by
  rintro ⟨hret, hne⟩
  exact hne ((carries_encode packet bptc data bits).decode_flipBits flips hflips bptc' out hret)

/-- Two wrong bits in an encoded block of ones. -/
theorem dmrBptc196_96Decode_flipBits_two :
    ¬ ((dmrBptc196_96Decode (flipBits (dmrBptc196_96Encode (Vector.replicate 33 0)
            ⟨Vector.replicate 196 false, Vector.replicate 196 false⟩ (Vector.replicate 12 0xff)
            (Vector.replicate 264 false)).2.1 [1, 195])
          ⟨Vector.replicate 196 false, Vector.replicate 196 false⟩
          (Vector.replicate 12 0)).1 = 0 ∧
        (dmrBptc196_96Decode (flipBits (dmrBptc196_96Encode (Vector.replicate 33 0)
            ⟨Vector.replicate 196 false, Vector.replicate 196 false⟩ (Vector.replicate 12 0xff)
            (Vector.replicate 264 false)).2.1 [1, 195])
          ⟨Vector.replicate 196 false, Vector.replicate 196 false⟩
          (Vector.replicate 12 0)).2.2 ≠ Vector.replicate 12 0xff) :=
  dmrBptc196_96Decode_flipBits _ _ _ _ _ _ [1, 195] (by decide)

end Dmrlib
