import Dmrlib.Lib.Distance
import Dmrlib.Payload.Burst

/-!
# Errors in a SYNC pattern

What the decoder computes for a pattern is the Hamming distance between the SYNC field and
the pattern, over the 48 bits under the mask. Any two patterns differ in more than six of
these, so a field with up to three errors is near one pattern only.

- `syncWord`: the 48 bits.
- `NearPattern`: at most three of them differ from a pattern.
- `NearPattern.unique`: one pattern is near at most.
- `syncPatternAmong`: the decoder with the patterns in any order.
- `dmrSyncPatternDecode_errors`: with up to three errors the pattern is found, in every order.
-/

namespace Dmrlib

open Distance Loop

/-! ## The distance from a pattern -/

/-- Bit `k` of seven bytes. -/
def fieldBit (bytes : Vector UInt8 7) (k : Fin 56) : Bool :=
  (dmrByteToBits bytes[k.val / 8])[k.val % 8]

/-- The bits under the mask. -/
def syncWord (bytes : Vector UInt8 7) (i : Fin 48) : Bool := fieldBit bytes ⟨4 + i, by omega⟩

/-- In a packet these are bits 108 to 155. -/
theorem syncWord_syncField (packet : DmrPacket) (i : Fin 48) :
    syncWord (syncField packet) i = packetBit packet ⟨108 + i, by omega⟩ := by
  have hdiv : 13 + (4 + i.val) / 8 = (108 + i.val) / 8 := by omega
  have hmod : (4 + i.val) % 8 = (108 + i.val) % 8 := by omega
  have hbyte : (syncField packet)[(4 + i.val) / 8] = packet[13 + (4 + i.val) / 8] :=
    Vector.getElem_ofFn _
  simp only [syncWord, fieldBit, packetBit, hbyte, hdiv, hmod]

/-- The table counts the bits of a byte. -/
theorem toNat_dmrSyncBits (b : UInt8) :
    (byteTable dmrSyncBits b).toNat = ∑ j : Fin 8, (getElem (dmrByteToBits b) j j.isLt).toNat := by
  have hall : ∀ v : BitVec 8, (byteTable dmrSyncBits (UInt8.ofBitVec v)).toNat =
      ∑ j : Fin 8, (dmrByteToBits (UInt8.ofBitVec v))[j].toNat := by
    decide +kernel
  exact hall b.toBitVec

theorem dmrByteToBits_mask_xor (m a b : UInt8) (j : Fin 8) :
    getElem (dmrByteToBits (m &&& (a ^^^ b))) j j.isLt =
      (getElem (dmrByteToBits m) j j.isLt &&
        (getElem (dmrByteToBits a) j j.isLt ^^ getElem (dmrByteToBits b) j j.isLt)) := by
  simp only [dmrByteToBits_getElem, UInt8.toBitVec_and, UInt8.toBitVec_xor, BitVec.getMsbD_and,
    BitVec.getMsbD_xor]

/-- A bit counts if it is under the mask and differs. -/
theorem toNat_dmrBitDiff_eq_sum (a b : Vector UInt8 7) :
    (dmrBitDiff a b).toNat = ∑ k : Fin 56,
      (fieldBit dmrSyncPatternMask k && (fieldBit a k ^^ fieldBit b k)).toNat := by
  have hsum := forLoop_add_mod (φ := UInt8.toNat) rfl UInt8.toNat_add fun i : Fin 7 =>
    byteTable dmrSyncBits (dmrSyncPatternMask[i] &&& (a[i] ^^^ b[i]))
  -- fifty-six bits do not make a byte wrap around
  have hsmall : ∑ i : Fin 7,
      (byteTable dmrSyncBits (dmrSyncPatternMask[i] &&& (a[i] ^^^ b[i]))).toNat < 2 ^ 8 := by
    refine (Finset.sum_le_card_nsmul _ _ 8 fun i _ => ?_).trans_lt (show 7 * 8 < 2 ^ 8 by decide)
    rw [toNat_dmrSyncBits]
    exact Finset.sum_le_card_nsmul _ _ 1 fun j _ => Bool.toNat_le _
  unfold dmrBitDiff
  rw [hsum, Nat.mod_eq_of_lt hsmall, ← (@finProdFinEquiv 7 8).sum_comp, Fintype.sum_prod_type]
  refine Finset.sum_congr rfl fun i _ => ?_
  rw [toNat_dmrSyncBits]
  refine Finset.sum_congr rfl fun j _ => ?_
  have hdiv : (j.val + 8 * i.val) / 8 = i := by omega
  have hmod : (j.val + 8 * i.val) % 8 = j := by omega
  have hbit : ∀ v : Vector UInt8 7, fieldBit v (finProdFinEquiv (i, j)) =
      (dmrByteToBits v[i])[j] := by
    intro v
    simp only [fieldBit, finProdFinEquiv_apply_val, hdiv, hmod, Fin.getElem_fin]
  rw [dmrByteToBits_mask_xor, hbit, hbit, hbit]

theorem sum_fin_eq_add {n a b : Nat} (h : n = a + b) (f : Fin n → Nat) :
    ∑ k, f k = ∑ i : Fin a, f ⟨i, by omega⟩ + ∑ i : Fin b, f ⟨a + i, by omega⟩ := by
  subst h
  exact Fin.sum_univ_add f

/-- What the decoder computes is a Hamming distance. -/
theorem toNat_dmrBitDiff (a b : Vector UInt8 7) :
    (dmrBitDiff a b).toNat = hammingDist (syncWord a) (syncWord b) := by
  have hlow : ∀ i : Fin 4, fieldBit dmrSyncPatternMask ⟨i, by omega⟩ = false := by decide
  have hmid : ∀ i : Fin 48, fieldBit dmrSyncPatternMask ⟨4 + i, by omega⟩ = true := by decide
  have hhigh : ∀ i : Fin 4, fieldBit dmrSyncPatternMask ⟨4 + (48 + i), by omega⟩ = false := by
    decide
  rw [toNat_dmrBitDiff_eq_sum, sum_fin_eq_add (a := 4) (b := 52) rfl,
    sum_fin_eq_add (a := 48) (b := 4) rfl]
  simp only [hlow, hmid, hhigh, Bool.false_and, Bool.true_and, Bool.toNat_false,
    Finset.sum_const_zero, Nat.zero_add, Nat.add_zero]
  rw [hammingDist, Finset.card_filter]
  refine Finset.sum_congr rfl fun i _ => ?_
  show (syncWord a i ^^ syncWord b i).toNat = if syncWord a i ≠ syncWord b i then 1 else 0
  cases syncWord a i <;> cases syncWord b i <;> rfl

/-! ## Patterns -/

/-- The pattern is within the distance that the decoder allows. -/
def NearPattern (packet : DmrPacket) (p : DmrSyncPattern × Vector UInt8 7) : Prop :=
  hammingDist (syncWord (syncField packet)) (syncWord p.2) ≤ 3

theorem dmrBitDiff_lt_iff (packet : DmrPacket) (p : DmrSyncPattern × Vector UInt8 7) :
    dmrBitDiff (syncField packet) p.2 < dmrSyncDeltaMax ↔ NearPattern packet p := by
  rw [UInt8.lt_iff_toNat_lt, toNat_dmrBitDiff]
  exact Nat.lt_succ_iff

/-- Any two patterns are more than six bits apart. -/
theorem dmrSyncPatterns_distance : ∀ p ∈ dmrSyncPatterns, ∀ q ∈ dmrSyncPatterns, p ≠ q →
    2 * 3 < hammingDist (syncWord p.2) (syncWord q.2) := by
  simp only [← toNat_dmrBitDiff]
  decide +kernel

theorem NearPattern.unique {packet : DmrPacket} {p q : DmrSyncPattern × Vector UInt8 7}
    (hp : p ∈ dmrSyncPatterns) (hq : q ∈ dmrSyncPatterns) (hnear : NearPattern packet p)
    (hnear' : NearPattern packet q) : p = q := by
  by_contra hne
  have hfar := lt_hammingDist_of_near (dmrSyncPatterns_distance p hp q hq hne) hnear
  exact absurd hnear' (Nat.not_le_of_lt hfar)

/-- `dmr_sync_pattern_decode` with the patterns tried in the order of the list. -/
def syncPatternAmong (patterns : List (DmrSyncPattern × Vector UInt8 7)) (packet : DmrPacket) :
    DmrSyncPattern :=
  match patterns.find? fun p => dmrBitDiff (syncField packet) p.2 < dmrSyncDeltaMax with
  | some p => p.1
  | none => .unknown

theorem syncPatternAmong_perm {patterns : List (DmrSyncPattern × Vector UInt8 7)}
    (h : dmrSyncPatterns.Perm patterns) (packet : DmrPacket) :
    syncPatternAmong patterns packet = dmrSyncPatternDecode packet := by
  have hfind := find?_perm (p := fun p => decide (dmrBitDiff (syncField packet) p.2 <
    dmrSyncDeltaMax)) (fun p hp q hq hnear hnear' => by
      rw [decide_eq_true_iff, dmrBitDiff_lt_iff] at hnear hnear'
      exact hnear.unique hp hq hnear') h
  rw [syncPatternAmong, ← hfind]
  rfl

/-- A pattern near the field is the one decoded. -/
theorem NearPattern.dmrSyncPatternDecode_eq {packet : DmrPacket}
    {p : DmrSyncPattern × Vector UInt8 7} (hp : p ∈ dmrSyncPatterns) (h : NearPattern packet p) :
    dmrSyncPatternDecode packet = p.1 := by
  have hp' := (dmrBitDiff_lt_iff packet p).mpr h
  unfold dmrSyncPatternDecode
  cases hfind : dmrSyncPatterns.find? fun p =>
      decide (dmrBitDiff (syncField packet) p.2 < dmrSyncDeltaMax) with
  | none =>
    rw [List.find?_eq_none] at hfind
    exact absurd (decide_eq_true hp') (hfind p hp)
  | some q =>
    have hq := List.find?_some hfind
    rw [decide_eq_true_iff, dmrBitDiff_lt_iff] at hq
    rw [hq.unique (List.mem_of_find?_eq_some hfind) hp h]

/-- What carries a pattern has the pattern's bits. -/
theorem CarriesSync.syncWord_eq {packet : DmrPacket} {pattern : DmrSyncPattern}
    (h : CarriesSync packet pattern) :
    ∃ bytes, (pattern, bytes) ∈ dmrSyncPatterns ∧
      hammingDist (syncWord (syncField packet)) (syncWord bytes) = 0 := by
  obtain ⟨bytes, hmem, hfield⟩ := h.exists_bytes
  refine ⟨bytes, hmem, ?_⟩
  rw [← toNat_dmrBitDiff, dmrBitDiff_congr hfield, toNat_dmrBitDiff, hammingDist_self]

/-- **Errors in a SYNC pattern.** Up to three wrong bits in an encoded pattern (bits 108 to 155 of
the packet, `syncWord_syncField`) do not change what is decoded; no burst is that near two
patterns, so the order in which the decoder tries them does not matter. -/
theorem dmrSyncPatternDecode_errors :
    (∀ (packet received : DmrPacket) (pattern : DmrSyncPattern), pattern ≠ .unknown →
      hammingDist (syncWord (syncField received))
        (syncWord (syncField (dmrSyncPatternEncode packet pattern).2)) ≤ 3 →
      dmrSyncPatternDecode received = pattern) ∧
    (∀ packet : DmrPacket, ∀ p ∈ dmrSyncPatterns, ∀ q ∈ dmrSyncPatterns,
      NearPattern packet p → NearPattern packet q → p = q) ∧
    ∀ patterns, dmrSyncPatterns.Perm patterns → ∀ packet : DmrPacket,
      syncPatternAmong patterns packet = dmrSyncPatternDecode packet := by
  refine ⟨fun packet received pattern hpattern hdist => ?_,
    fun packet p hp q hq hnear hnear' => hnear.unique hp hq hnear',
    fun patterns hperm packet => syncPatternAmong_perm hperm packet⟩
  obtain ⟨bytes, hmem, hzero⟩ := (dmrSyncPatternEncode_spec packet hpattern).2.syncWord_eq
  have hnear : NearPattern received (pattern, bytes) := by
    have htriangle := hammingDist_triangle (syncWord (syncField received))
      (syncWord (syncField (dmrSyncPatternEncode packet pattern).2)) (syncWord bytes)
    show hammingDist _ (syncWord bytes) ≤ 3
    omega
  exact hnear.dmrSyncPatternDecode_eq hmem

end Dmrlib
