import Dmrlib.Lib.Fields
import Dmrlib.Payload.Emb
import Dmrlib.Fec.Bptc19696
import Dmrlib.Packet

/-!
# The fields of a burst

Four encoders write into the middle of a burst: slot type, SYNC pattern, EMB and embedded
fragment. None starts or ends on a byte boundary, so each keeps bits of the bytes it shares
with the others. Here a burst is the buffer of `Dmrlib.Lib.Fields` and its cells are bits.

The fragment encoder overwrites byte 18 as a whole, and its low nibble with bits that
belong to the high one; the EMB encoder that it calls last puts this right.

- `slotTypeBits`, `syncBits`, `embBits`, `fragmentBits`: the bits of each field.
- `ChangesAtMost`: a burst keeps all bits but those of a field, and all information bits.
- `burst_fields`: every encoder does, and the slot type commutes with the other fields.
- `decodedDataType_fragment_iff`: the fragments in which no SYNC pattern is found.
-/

namespace Dmrlib

open Fields Loop

/-! ## Stores into one byte -/

theorem packetBit_injective : Function.Injective packetBit := by
  intro p p' h
  refine Vector.ext fun k hk => byte_ext fun j => ?_
  have hq := congrFun h ⟨8 * k + j, by omega⟩
  have hdiv : (8 * k + (j : Nat)) / 8 = k := by omega
  have hmod : (8 * k + (j : Nat)) % 8 = j := by omega
  simpa only [packetBit, hdiv, hmod, Fin.getElem_fin] using hq

theorem packetBit_set (packet : DmrPacket) {k : Nat} (hk : k < 33) (b : UInt8) (q : Fin 264) :
    packetBit (packet.set k b) q =
      if k = q.val / 8 then (dmrByteToBits b)[q.val % 8] else packetBit packet q := by
  unfold packetBit
  rw [Vector.getElem_set]
  split <;> rfl

theorem place_in_byte_lt (q : Fin 264) : q.val % 8 < 8 := Nat.mod_lt _ (by decide)

/-- The bits of byte `k` that the mask `keep` does not keep. -/
def byteBits (k : Nat) (keep : UInt8) : Set (Fin 264) :=
  { q | k = q.val / 8 ∧ getElem (dmrByteToBits keep) (q.val % 8) (place_in_byte_lt q) = false }

/-- A store that leaves the bits under the mask as they were. -/
theorem keeps_set {k : Nat} (hk : k < 33) {keep : UInt8} (φ : UInt8 → UInt8)
    (h : ∀ b (j : Fin 8), (dmrByteToBits keep)[j] = true →
      (dmrByteToBits (φ b))[j] = (dmrByteToBits b)[j]) :
    Keeps packetBit (byteBits k keep) (fun packet => packet.set k (φ packet[k])) := by
  intro packet q hq
  rw [packetBit_set]
  split
  · next hkq =>
    have hkeep : (dmrByteToBits keep)[q.val % 8] = true :=
      Bool.eq_true_of_not_eq_false fun hfalse => hq ⟨hkq, hfalse⟩
    have hbit := h packet[k] ⟨q.val % 8, Nat.mod_lt _ (by decide)⟩ hkeep
    simp only [Fin.getElem_fin] at hbit
    rw [hbit]
    simp only [packetBit, hkq]
  · rfl

/-- A store whose bits outside the mask do not depend on the byte. -/
theorem stores_set {k : Nat} (hk : k < 33) {keep : UInt8} (φ : UInt8 → UInt8)
    (h : ∀ b b' (j : Fin 8), (dmrByteToBits keep)[j] = false →
      (dmrByteToBits (φ b))[j] = (dmrByteToBits (φ b'))[j]) :
    Stores packetBit (byteBits k keep) (fun packet => packet.set k (φ packet[k])) := by
  rintro packet packet' q ⟨hkq, hkeep⟩
  have hbit := h packet[k] packet'[k] ⟨q.val % 8, Nat.mod_lt _ (by decide)⟩ hkeep
  simp only [Fin.getElem_fin] at hbit
  rw [packetBit_set, packetBit_set, if_pos hkq, if_pos hkq, hbit]

/-- `p[k] = (p[k] & keep) | v`, where `v` has no bits under the mask. -/
theorem fills_set {k : Nat} (hk : k < 33) {keep v : UInt8} (hv : v &&& keep = 0) :
    Fills packetBit (byteBits k keep)
      (fun packet => packet.set k (packet[k] &&& keep ||| v)) := by
  have hvbit : ∀ j : Fin 8, (dmrByteToBits keep)[j] = true → (dmrByteToBits v)[j] = false := by
    intro j hj
    have hand := congrArg (fun b : UInt8 => b.toBitVec.getMsbD j) hv
    simp only [UInt8.toBitVec_and, BitVec.getMsbD_and] at hand
    rw [dmrByteToBits_getElem] at hj ⊢
    rw [hj, Bool.and_true] at hand
    rw [hand]
    exact BitVec.getMsbD_zero
  have hbit : ∀ (b : UInt8) (j : Fin 8), (dmrByteToBits (b &&& keep ||| v))[j] =
      ((dmrByteToBits b)[j] && (dmrByteToBits keep)[j] || (dmrByteToBits v)[j]) := by
    intro b j
    simp only [dmrByteToBits_getElem, UInt8.toBitVec_or, UInt8.toBitVec_and, BitVec.getMsbD_or,
      BitVec.getMsbD_and]
  constructor
  · refine keeps_set hk (fun b => b &&& keep ||| v) fun b j hj => ?_
    rw [hbit, hj, hvbit j hj, Bool.and_true, Bool.or_false]
  · refine stores_set hk (fun b => b &&& keep ||| v) fun b b' j hj => ?_
    rw [hbit, hbit, hj, Bool.and_false, Bool.and_false]

theorem dmrByteToBits_zero (j : Fin 8) : getElem (dmrByteToBits 0) j j.isLt = false := by
  revert j
  decide

/-- `p[k] = v` -/
theorem fills_byte {k : Nat} (hk : k < 33) (v : UInt8) :
    Fills packetBit (byteBits k 0) (fun packet => packet.set k v) := by
  constructor
  · refine keeps_set hk (fun _ => v) fun b j hj => ?_
    rw [dmrByteToBits_zero] at hj
    cases hj
  · exact stores_set hk (fun _ => v) fun _ _ _ _ => rfl

/-! ## The fields -/

/-- Where the slot type goes. -/
def slotTypeBits : Set (Fin 264) :=
  { q | 98 ≤ q.val ∧ q.val ≤ 107 ∨ 156 ≤ q.val ∧ q.val ≤ 165 }

/-- Where a SYNC pattern goes, or embedded signalling. -/
def syncBits : Set (Fin 264) := { q | 108 ≤ q.val ∧ q.val ≤ 155 }

/-- Where the EMB goes. -/
def embBits : Set (Fin 264) :=
  { q | 108 ≤ q.val ∧ q.val ≤ 115 ∨ 148 ≤ q.val ∧ q.val ≤ 155 }

theorem embBits_subset : embBits ⊆ syncBits := by
  rintro q (⟨hlo, hhi⟩ | ⟨hlo, hhi⟩)
  · exact ⟨hlo, by omega⟩
  · exact ⟨by omega, hhi⟩

theorem disjoint_slotTypeBits_syncBits : Disjoint slotTypeBits syncBits := by
  rw [Set.disjoint_left]
  rintro q (⟨-, h⟩ | ⟨h, -⟩) ⟨hlo, hhi⟩
  · omega
  · omega

theorem slotTypeBits_eq :
    byteBits 12 0xc0 ∪ byteBits 13 0x0f ∪ byteBits 19 0xf0 ∪ byteBits 20 0x03 = slotTypeBits := by
  ext q
  simp only [byteBits, slotTypeBits, Set.mem_union, Set.mem_ofPred_eq]
  revert q
  decide +kernel

theorem syncBits_eq :
    ⋃ i : Fin 7, byteBits (13 + i.val) (~~~getElem dmrSyncPatternMask i i.isLt) = syncBits := by
  ext q
  simp only [byteBits, syncBits, Set.mem_iUnion, Set.mem_ofPred_eq]
  revert q
  decide +kernel

theorem embBits_eq :
    byteBits 13 0xf0 ∪ byteBits 14 0x0f ∪ byteBits 18 0xf0 ∪ byteBits 19 0x0f = embBits := by
  ext q
  simp only [byteBits, embBits, Set.mem_union, Set.mem_ofPred_eq]
  revert q
  decide +kernel

/-! ## What each encoder fills -/

theorem and_masked {m keep : UInt8} (b : UInt8) (h : m &&& keep = 0) : b &&& m &&& keep = 0 := by
  rw [UInt8.and_assoc, h, UInt8.and_zero]

theorem or_masked {a b keep : UInt8} (ha : a &&& keep = 0) (hb : b &&& keep = 0) :
    (a ||| b) &&& keep = 0 := by
  rw [or_and_distrib, ha, hb, UInt8.or_zero]

theorem shiftRight_masked (b : UInt8) : (b >>> 4) &&& (0xf0 : UInt8) = 0 := by
  refine UInt8.eq_of_toBitVec_eq ?_
  ext i hi
  interval_cases i <;> simp

theorem shiftLeft_masked (b : UInt8) : (b <<< 4) &&& (0x0f : UInt8) = 0 := by
  refine UInt8.eq_of_toBitVec_eq ?_
  ext i hi
  interval_cases i <;> simp

theorem fills_putSlotType (bytes : Vector UInt8 3) :
    Fills packetBit slotTypeBits (fun packet => putSlotType packet bytes) := by
  have h12 := fills_set (k := 12) (by decide) (and_masked (bytes[0] >>> 2)
    (show (0x3f : UInt8) &&& 0xc0 = 0 by decide))
  have h13 := fills_set (k := 13) (by decide) (or_masked
    (and_masked (bytes[0] <<< 6) (show (0xc0 : UInt8) &&& 0x0f = 0 by decide))
    (and_masked (bytes[1] >>> 2) (show (0x30 : UInt8) &&& 0x0f = 0 by decide)))
  have h19 := fills_set (k := 19) (by decide) (and_masked (bytes[1] >>> 2)
    (show (0x0f : UInt8) &&& 0xf0 = 0 by decide))
  have h20 := fills_set (k := 20) (by decide) (or_masked
    (and_masked (bytes[1] <<< 6) (show (0xc0 : UInt8) &&& 0x03 = 0 by decide))
    (and_masked (bytes[2] >>> 2) (show (0x3c : UInt8) &&& 0x03 = 0 by decide)))
  have hall := h20.comp (h19.comp (h13.comp h12))
  simp only [← UInt8.or_assoc] at hall
  rw [← slotTypeBits_eq]
  exact hall

theorem fills_scatterEmb (embBytes : Vector UInt8 2) :
    Fills packetBit embBits (fun packet => scatterEmb packet embBytes) := by
  have h13 := fills_set (k := 13) (by decide) (shiftRight_masked embBytes[0])
  have h14 := fills_set (k := 14) (by decide) (shiftLeft_masked embBytes[0])
  have h18 := fills_set (k := 18) (by decide) (shiftRight_masked embBytes[1])
  have h19 := fills_set (k := 19) (by decide) (shiftLeft_masked embBytes[1])
  rw [← embBits_eq]
  exact h19.comp (h18.comp (h14.comp h13))

/-- The cells of the fragment's first four stores. -/
def fragmentBits : Set (Fin 264) :=
  byteBits 14 0xf0 ∪ byteBits 15 0 ∪ byteBits 16 0 ∪ byteBits 17 0

/-- Of byte 18, the high nibble is the fragment's and the low one what the high one was. -/
theorem scatterFragment_fields (lcBytes : Vector UInt8 4) :
    Keeps packetBit (fragmentBits ∪ byteBits 18 0)
        (fun packet => scatterFragment packet lcBytes) ∧
      Stores packetBit (fragmentBits \ byteBits 18 0 ∪ byteBits 18 0x0f)
        (fun packet => scatterFragment packet lcBytes) := by
  have h14 := fills_set (k := 14) (by decide) (shiftRight_masked lcBytes[0])
  have h15 := fills_byte (k := 15) (by decide) ((lcBytes[0] <<< 4) ||| (lcBytes[1] >>> 4))
  have h16 := fills_byte (k := 16) (by decide) ((lcBytes[1] <<< 4) ||| (lcBytes[2] >>> 4))
  have h17 := fills_byte (k := 17) (by decide) ((lcBytes[2] <<< 4) ||| (lcBytes[3] >>> 4))
  have hfirst : Fills packetBit fragmentBits _ := h17.comp (h16.comp (h15.comp h14))
  have hkeep : Keeps packetBit (byteBits 18 0) _ :=
    keeps_set (k := 18) (by decide) (fun b => (lcBytes[3] <<< 4) ||| (b >>> 4)) fun b j hj => by
      rw [dmrByteToBits_zero] at hj
      cases hj
  have hstore : Stores packetBit (byteBits 18 0x0f) _ :=
    stores_set (k := 18) (by decide) (fun b => (lcBytes[3] <<< 4) ||| (b >>> 4)) fun b b' j hj => by
      have hhigh : j.val < 4 := by
        revert j
        decide
      have hshift : ∀ b : UInt8, (b >>> 4).toBitVec.getMsbD j = false := by
        intro b
        simp [BitVec.getMsbD_ushiftRight, hhigh]
      simp only [dmrByteToBits_getElem, UInt8.toBitVec_or, BitVec.getMsbD_or, hshift]
  constructor
  · exact hkeep.comp hfirst.keeps
  · exact hstore.comp hkeep hfirst.stores

/-- The EMB that follows repairs that nibble. -/
theorem fills_fragment (lcBytes : Vector UInt8 4) (embBytes : Vector UInt8 2) :
    Fills packetBit syncBits
      (fun packet => scatterEmb (scatterFragment packet lcBytes) embBytes) := by
  obtain ⟨hkeep, hstore⟩ := scatterFragment_fields lcBytes
  have hemb := fills_scatterEmb embBytes
  constructor
  · refine (hemb.keeps.comp hkeep).mono fun q hq => ?_
    simp only [fragmentBits, byteBits, embBits, syncBits, Set.mem_union, Set.mem_ofPred_eq] at hq ⊢
    revert q
    decide +kernel
  · refine (hemb.stores.comp hemb.keeps hstore).mono fun q hq => ?_
    simp only [fragmentBits, byteBits, embBits, syncBits, Set.mem_union, Set.mem_sdiff,
      Set.mem_ofPred_eq] at hq ⊢
    revert q
    decide +kernel

/-! ## The encoders -/

theorem mayFill_dmrSlotTypeEncode (colorCode : DmrColorCode) (dataType : DmrDataType) :
    MayFill packetBit slotTypeBits
      (fun packet => (dmrSlotTypeEncode packet colorCode dataType).2) := by
  unfold dmrSlotTypeEncode
  split
  · exact .inl fun packet => rfl
  · split
    · exact .inl fun packet => rfl
    · exact (fills_putSlotType _).mayFill

theorem mayFill_dmrSyncPatternEncode (pattern : DmrSyncPattern) :
    MayFill packetBit syncBits (fun packet => (dmrSyncPatternEncode packet pattern).2) := by
  by_cases hunknown : pattern = .unknown
  · subst hunknown
    exact .inl fun packet => rfl
  · obtain ⟨bytes, hfind, hmask⟩ : ∃ bytes,
        dmrSyncPatterns.find? (fun p => p.1 = pattern) = some (pattern, bytes) ∧
        ∀ i : Fin 7, bytes[i] &&& ~~~dmrSyncPatternMask[i] = 0 := by
      cases pattern with
      | unknown => exact absurd rfl hunknown
      | _ => exact ⟨_, rfl, by decide⟩
    refine .inr ?_
    simp only [dmrSyncPatternEncode, hfind]
    rw [← syncBits_eq]
    exact Fills.forLoop fun i => fills_set (by omega) (hmask i)

theorem fills_dmrEmbEncode (emb : DmrEmb) :
    Fills packetBit embBits (fun packet => (dmrEmbEncode packet emb).2) :=
  fills_scatterEmb _

/-- Reading a fragment never fails. -/
theorem fills_dmrEmbLcssFragmentEncode {rows : Nat} (emb : DmrEmb)
    (vbptc : Option (DmrVbptc16_11 rows)) (fragment : UInt8) :
    Fills packetBit syncBits
      (fun packet => (dmrEmbLcssFragmentEncode packet emb vbptc fragment).2) := by
  cases vbptc with
  | none => exact fills_fragment _ _
  | some v => exact fills_fragment _ _

/-! ## The frame of each encoder -/

/-- At most the bits of `field` differ, and none of the 196 information bits. -/
structure ChangesAtMost (field : Set (Fin 264)) (packet packet' : DmrPacket) : Prop where
  field : ∀ q, packetBit packet' q ≠ packetBit packet q → q ∈ field
  information : ∀ r : Fin 196, packetBit packet' (infoBit r) = packetBit packet (infoBit r)

/-- The information bits lie outside the middle of the burst. -/
theorem infoBit_notMem (r : Fin 196) : infoBit r ∉ slotTypeBits ∪ syncBits := by
  have hr := infoBit_val r
  rintro ((⟨hlo, hhi⟩ | ⟨hlo, hhi⟩) | ⟨hlo, hhi⟩)
  all_goals
    split at hr
    · omega
    · omega

theorem changesAtMost_of_keeps {field : Set (Fin 264)} {f : DmrPacket → DmrPacket}
    (hf : Keeps packetBit field f) (hfield : field ⊆ slotTypeBits ∪ syncBits)
    (packet : DmrPacket) : ChangesAtMost field packet (f packet) := by
  constructor
  · intro q hq
    by_contra hnot
    exact hq (hf packet q hnot)
  · intro r
    exact hf packet _ fun hr => infoBit_notMem r (hfield hr)

/-- The slot type and another field of the middle go in in either order. -/
theorem dmrSlotTypeEncode_comm {field : Set (Fin 264)} {f : DmrPacket → DmrPacket}
    (hf : MayFill packetBit field f) (hfield : field ⊆ syncBits) (packet : DmrPacket)
    (colorCode : DmrColorCode) (dataType : DmrDataType) :
    (dmrSlotTypeEncode (f packet) colorCode dataType).2 =
      f (dmrSlotTypeEncode packet colorCode dataType).2 :=
  (mayFill_dmrSlotTypeEncode colorCode dataType).comm hf packetBit_injective
    (disjoint_slotTypeBits_syncBits.mono_right hfield) packet

/-- **Burst fields.** Each encoder changes at most the bits of its own field and no
information bit; the slot type goes in before or after what fills the SYNC field. -/
theorem burst_fields (packet : DmrPacket) :
    (∀ colorCode dataType,
        ChangesAtMost slotTypeBits packet (dmrSlotTypeEncode packet colorCode dataType).2) ∧
      (∀ pattern, ChangesAtMost syncBits packet (dmrSyncPatternEncode packet pattern).2) ∧
      (∀ emb, ChangesAtMost embBits packet (dmrEmbEncode packet emb).2) ∧
      (∀ (rows : Nat) emb (vbptc : Option (DmrVbptc16_11 rows)) fragment,
        ChangesAtMost syncBits packet (dmrEmbLcssFragmentEncode packet emb vbptc fragment).2) ∧
      ∀ colorCode dataType,
        (∀ pattern,
          (dmrSlotTypeEncode (dmrSyncPatternEncode packet pattern).2 colorCode dataType).2 =
            (dmrSyncPatternEncode (dmrSlotTypeEncode packet colorCode dataType).2 pattern).2) ∧
        (∀ emb,
          (dmrSlotTypeEncode (dmrEmbEncode packet emb).2 colorCode dataType).2 =
            (dmrEmbEncode (dmrSlotTypeEncode packet colorCode dataType).2 emb).2) ∧
        ∀ (rows : Nat) emb (vbptc : Option (DmrVbptc16_11 rows)) fragment,
          (dmrSlotTypeEncode (dmrEmbLcssFragmentEncode packet emb vbptc fragment).2
              colorCode dataType).2 =
            (dmrEmbLcssFragmentEncode (dmrSlotTypeEncode packet colorCode dataType).2
              emb vbptc fragment).2 := by
  refine ⟨fun colorCode dataType => ?_, fun pattern => ?_, fun emb => ?_,
    fun rows emb vbptc fragment => ?_, fun colorCode dataType =>
      ⟨fun pattern => ?_, fun emb => ?_, fun rows emb vbptc fragment => ?_⟩⟩
  -- four writers, each with its own field
  · exact changesAtMost_of_keeps (mayFill_dmrSlotTypeEncode colorCode dataType).keeps
      Set.subset_union_left packet
  · exact changesAtMost_of_keeps (mayFill_dmrSyncPatternEncode pattern).keeps
      Set.subset_union_right packet
  · exact changesAtMost_of_keeps (fills_dmrEmbEncode emb).keeps
      (embBits_subset.trans Set.subset_union_right) packet
  · exact changesAtMost_of_keeps (fills_dmrEmbLcssFragmentEncode emb vbptc fragment).keeps
      Set.subset_union_right packet
  -- and the slot type stands apart from what the others write
  · exact dmrSlotTypeEncode_comm (mayFill_dmrSyncPatternEncode pattern) subset_rfl
      packet colorCode dataType
  · exact dmrSlotTypeEncode_comm (fills_dmrEmbEncode emb).mayFill embBits_subset
      packet colorCode dataType
  · exact dmrSlotTypeEncode_comm (fills_dmrEmbLcssFragmentEncode emb vbptc fragment).mayFill
      subset_rfl packet colorCode dataType

/-! ## Voice bursts with embedded signalling -/

/-- The data type that `dmr_packet_decode` finds, with memory for the packet. -/
def decodedDataType (packet : DmrPacket) : Option (Option DmrDataType) :=
  (dmrPacketDecode true packet).map (Option.map DmrParsedPacket.dataType)

/-- The SYNC decoder reads the field between the slot type's halves alone. -/
theorem dmrSyncPatternDecode_congr_syncBits {p p' : DmrPacket}
    (h : ∀ q ∈ syncBits, packetBit p q = packetBit p' q) :
    dmrSyncPatternDecode p = dmrSyncPatternDecode p' := by
  have hfield : ∀ i : Fin 7, dmrSyncPatternMask[i] &&& (syncField p)[i] =
      dmrSyncPatternMask[i] &&& (syncField p')[i] := by
    intro i
    have hsync : ∀ packet : DmrPacket, (syncField packet)[i] = packet[13 + i.val] :=
      fun packet => Vector.getElem_ofFn _
    rw [hsync, hsync, UInt8.and_comm, UInt8.and_comm dmrSyncPatternMask[i]]
    refine and_mask_eq fun j hj => ?_
    have hmem : ∀ (i : Fin 7) (j : Fin 8), (dmrByteToBits dmrSyncPatternMask[i])[j] = true →
        108 ≤ 8 * (13 + i.val) + j.val ∧ 8 * (13 + i.val) + j.val ≤ 155 := by
      decide +kernel
    have hq := h ⟨8 * (13 + i.val) + j.val, by omega⟩ (hmem i j hj)
    have hdiv : (8 * (13 + i.val) + j.val) / 8 = 13 + i.val := by omega
    have hmod : (8 * (13 + i.val) + j.val) % 8 = j := by omega
    simpa only [packetBit, hdiv, hmod, Fin.getElem_fin] using hq
  unfold dmrSyncPatternDecode
  simp only [dmrBitDiff_congr hfield]

/-- Where there is no SYNC pattern, the data type is a nibble of the slot type. -/
theorem decodedDataType_of_unknown {packet : DmrPacket}
    (h : dmrSyncPatternDecode packet = .unknown) :
    ∃ code, dmrGolay20_8Decode (slotTypeWord packet) = some code ∧
      decodedDataType packet = some (some (code &&& B00001111).toUInt32) := by
  obtain ⟨code, hcode⟩ := dmrGolay20_8Decode_total (slotTypeWord packet)
  have hslot : dmrSlotTypeDecode packet =
      some ((0 : Int), (code &&& B11110000) >>> 4, (code &&& B00001111).toUInt32) := by
    rw [dmrSlotTypeDecode, hcode]
    rfl
  refine ⟨code, hcode, ?_⟩
  have hdecode : decodePattern { DmrParsedPacket.zero with packet } .unknown =
      some { DmrParsedPacket.zero with
        packet
        colorCode := (code &&& B11110000) >>> 4
        dataType := (code &&& B00001111).toUInt32 } := by
    show (dmrSlotTypeDecode packet).bind _ = _
    rw [hslot]
    rfl
  rw [decodedDataType, dmrPacketDecode, if_pos rfl, h, hdecode]
  rfl

/-- No nibble is the data type of voice without SYNC. -/
theorem nibble_ne_voice (code : UInt8) :
    (code &&& B00001111).toUInt32 ≠ DMR_DATA_TYPE_VOICE := by
  intro h
  have hnat := congrArg UInt32.toNat h
  rw [UInt8.toNat_toUInt32, UInt8.toNat_and] at hnat
  have hle : code.toNat &&& (B00001111).toNat ≤ (B00001111).toNat := Nat.and_le_right
  exact absurd (hnat ▸ hle) (by decide)

/-- What the SYNC decoder takes the EMB and the fragment for. -/
def embeddedSync {rows : Nat} (emb : DmrEmb) (vbptc : Option (DmrVbptc16_11 rows))
    (fragment : UInt8) : DmrSyncPattern :=
  dmrSyncPatternDecode (dmrEmbLcssFragmentEncode (Vector.replicate 33 0) emb vbptc fragment).2

theorem dmrSyncPatternDecode_fragment {rows : Nat} (packet : DmrPacket) (emb : DmrEmb)
    (vbptc : Option (DmrVbptc16_11 rows)) (fragment : UInt8) :
    dmrSyncPatternDecode (dmrEmbLcssFragmentEncode packet emb vbptc fragment).2 =
      embeddedSync emb vbptc fragment :=
  dmrSyncPatternDecode_congr_syncBits
    ((fills_dmrEmbLcssFragmentEncode emb vbptc fragment).stores packet _)

/-- **Voice bursts.** Whatever surrounds the EMB, a burst with embedded signalling is not
taken for voice: it is voice where there is no SYNC pattern only if there is one. -/
theorem decodedDataType_fragment_iff {rows : Nat} (packet : DmrPacket) (emb : DmrEmb)
    (vbptc : Option (DmrVbptc16_11 rows)) (fragment : UInt8) :
    (dmrSyncPatternDecode (dmrEmbLcssFragmentEncode packet emb vbptc fragment).2 = .unknown →
        decodedDataType (dmrEmbLcssFragmentEncode packet emb vbptc fragment).2 =
          some (some DMR_DATA_TYPE_VOICE)) ↔
      embeddedSync emb vbptc fragment ≠ .unknown := by
  rw [dmrSyncPatternDecode_fragment]
  constructor
  · intro hvoice hunknown
    rw [← dmrSyncPatternDecode_fragment packet] at hunknown
    obtain ⟨code, -, hdata⟩ := decodedDataType_of_unknown hunknown
    rw [dmrSyncPatternDecode_fragment] at hunknown
    have htype := hdata.symm.trans (hvoice hunknown)
    rw [Option.some.injEq, Option.some.injEq] at htype
    exact nibble_ne_voice code htype
  · intro hknown hunknown
    exact absurd hunknown hknown

/-- A voice burst whose vocoder bits happen to spell the slot type of a voice LC header. -/
theorem decodedDataType_fragment_voiceLc :
    let packet := (dmrSlotTypeEncode (Vector.replicate 33 0) 1 DMR_DATA_TYPE_VOICE_LC).2
    let vbptc : Option (DmrVbptc16_11 8) := none
    let burst := (dmrEmbLcssFragmentEncode packet ⟨1, false, DMR_EMB_LCSS_SINGLE_FRAGMENT, 0⟩
      vbptc 0).2
    dmrSyncPatternDecode burst = .unknown ∧
      ¬ (dmrSyncPatternDecode burst = .unknown →
        decodedDataType burst = some (some DMR_DATA_TYPE_VOICE)) ∧
      decodedDataType burst = some (some DMR_DATA_TYPE_VOICE_LC) := by
  decide +kernel

end Dmrlib
