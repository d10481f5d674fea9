import Dmrlib.Protocol.Homebrew

/-!
# DMRD frames

A burst travels between repeater and master in a frame of 53 bytes. One of them, the
slot info, holds four fields: the slot, whether the call is private, the kind of frame,
and a nibble that is the number of a voice frame or a data type, as the kind tells.

What `dmr_homebrew_send` packs is what `dmr_homebrew_parse_dmrd` unpacks, for the
packets whose fields fit (`DmrParsedPacket.FitsDmrd`).

- `dmrdFrame`: the frame of a packet, byte for byte.
- `packInfo`, `parseSlotInfo`: the slot info, from the packet and back.
- `Common.ReadsBack`: the loads of the missing library read what the stores have written.
- `SameDmrd`: two packets that agree in all a frame has.
- `dmrHomebrewParseDmrd_dmrHomebrewSend`: the round trip.
-/

namespace Dmrlib

/-- `uint24` and `uint32` read what `dmr_raw_add_uint24` and `dmr_raw_add_uint32` write. -/
structure Common.ReadsBack (c : Common) : Prop where
  uint24 : ∀ (v : UInt32) (bytes : Vector UInt8 3), v < 0x1000000 → bytes.toList = uintBytes 3 v →
    c.uint24 bytes = v
  uint32 : ∀ (v : UInt32) (bytes : Vector UInt8 4), bytes.toList = uintBytes 4 v →
    c.uint32 bytes = v

/-- The packets a DMRD frame has room for. -/
structure DmrParsedPacket.FitsDmrd (parsed : DmrParsedPacket) : Prop where
  ts : parsed.ts = DMR_TS1 ∨ parsed.ts = DMR_TS2
  flco : parsed.flco = DMR_FLCO_GROUP ∨ parsed.flco = DMR_FLCO_PRIVATE
  srcId : parsed.srcId < 0x1000000
  dstId : parsed.dstId < 0x1000000
  dataType : parsed.dataType = DMR_DATA_TYPE_VOICE_SYNC ∨
    parsed.dataType = DMR_DATA_TYPE_VOICE ∧ parsed.voiceFrame < 16 ∨
    parsed.dataType < DMR_DATA_TYPE_INVALID

/-- The two packets agree in all that a DMRD frame carries. -/
structure SameDmrd (parsed parsed' : DmrParsedPacket) : Prop where
  sequence : parsed'.sequence = parsed.sequence
  srcId : parsed'.srcId = parsed.srcId
  dstId : parsed'.dstId = parsed.dstId
  repeaterId : parsed'.repeaterId = parsed.repeaterId
  ts : parsed'.ts = parsed.ts
  flco : parsed'.flco = parsed.flco
  dataType : parsed'.dataType = parsed.dataType
  streamId : parsed'.streamId = parsed.streamId
  packet : parsed'.packet = parsed.packet
  voiceFrame : parsed.dataType = DMR_DATA_TYPE_VOICE → parsed'.voiceFrame = parsed.voiceFrame

/-! ## Numbers, lowest byte first -/

/-- The number that `dmr_raw_add_uint24` or `dmr_raw_add_uint32` wrote. -/
def readUint (bytes : List UInt8) : UInt32 :=
  bytes.foldr (fun (b : UInt8) v => b.toUInt32 ||| v <<< (8 : UInt32)) 0

theorem readUint_uintBytes {size : Nat} {v : UInt32} (h : v.toNat < 256 ^ size) :
    readUint (uintBytes size v) = v := by
  induction size generalizing v with
  | zero =>
    have hv : v.toNat = 0 := Nat.lt_one_iff.mp h
    exact (UInt32.toNat_inj.mp hv).symm
  | succ size ih =>
    have hrest : (v >>> 8).toNat < 256 ^ size := by
      rw [toNat_shiftRight_eight]
      rw [Nat.pow_succ] at h
      omega
    show v.toUInt8.toUInt32 ||| readUint (uintBytes size (v >>> 8)) <<< (8 : UInt32) = v
    rw [ih hrest, lowByte_or_shift]

/-! ## The slot info -/

/-- Slot, privacy, kind of frame and nibble in one byte. -/
def packInfo (ts flco : Fin 2) (kind : Fin 4) (nibble : Fin 16) : UInt8 :=
  UInt8.ofNat ts.val ||| UInt8.ofNat flco.val <<< (1 : UInt8) |||
    UInt8.ofNat kind.val <<< (2 : UInt8) ||| UInt8.ofNat nibble.val <<< (4 : UInt8)

theorem packInfo_fields (ts flco : Fin 2) (kind : Fin 4) (nibble : Fin 16) :
    (packInfo ts flco kind nibble &&& 0x01).toUInt32 = UInt32.ofNat ts.val ∧
    ((packInfo ts flco kind nibble &&& 0x02) >>> 1).toUInt32 = UInt32.ofNat flco.val ∧
    (packInfo ts flco kind nibble >>> 2) &&& 0x03 = UInt8.ofNat kind.val ∧
    packInfo ts flco kind nibble >>> 4 = UInt8.ofNat nibble.val := by
  revert ts flco kind nibble
  decide

/-- What the kind of frame and the nibble say about a packet. -/
def KindOf (parsed : DmrParsedPacket) (kind : Fin 4) (nibble : Fin 16) : Prop :=
  kind = 0 ∧ parsed.dataType = DMR_DATA_TYPE_VOICE ∧ parsed.voiceFrame = UInt8.ofNat nibble.val ∨
    kind = 1 ∧ parsed.dataType = DMR_DATA_TYPE_VOICE_SYNC ∨
    kind = 2 ∧ parsed.dataType = UInt32.ofNat nibble.val

/-- The kind of frame and the nibble that are sent for a packet. -/
theorem kind_of_fits {parsed : DmrParsedPacket} (hfit : parsed.FitsDmrd) (info : UInt8) :
    ∃ kind nibble, KindOf parsed kind nibble ∧
      (if parsed.dataType = DMR_DATA_TYPE_INVALID ∨ parsed.dataType = DMR_DATA_TYPE_VOICE then
        info ||| parsed.voiceFrame <<< (4 : UInt8)
      else if parsed.dataType = DMR_DATA_TYPE_VOICE_SYNC then info ||| 0x04
      else info ||| (0x08 : UInt8) ||| (parsed.dataType <<< 4).toUInt8) =
        info ||| UInt8.ofNat kind.val <<< (2 : UInt8) |||
          UInt8.ofNat nibble.val <<< (4 : UInt8) := by
  -- one case for each branch of the packing
  obtain hsync | ⟨hvoice, hframe⟩ | hdata := hfit.dataType
  · refine ⟨1, 0, .inr (.inl ⟨rfl, hsync⟩), ?_⟩
    rw [hsync, if_neg (by decide), if_pos rfl]
    show info ||| 0x04 = info ||| 0x04 ||| 0x00
    rw [UInt8.or_zero]
  · have hnibble : parsed.voiceFrame.toNat < 16 := hframe
    refine ⟨0, ⟨parsed.voiceFrame.toNat, hnibble⟩, .inl ⟨rfl, hvoice, ?_⟩, ?_⟩
    · exact (UInt8.ofNat_toNat).symm
    · rw [hvoice, if_pos (.inr rfl)]
      show info ||| parsed.voiceFrame <<< (4 : UInt8) =
        info ||| 0x00 ||| UInt8.ofNat parsed.voiceFrame.toNat <<< (4 : UInt8)
      rw [UInt8.or_zero, UInt8.ofNat_toNat]
  · have hlt : parsed.dataType.toNat < 10 := hdata
    have hshift : ∀ n < 10, (UInt32.ofNat n <<< 4).toUInt8 = UInt8.ofNat n <<< (4 : UInt8) := by
      decide
    have hne : ∀ d : DmrDataType, 10 ≤ d.toNat → parsed.dataType ≠ d := by
      rintro d hd rfl
      omega
    refine ⟨2, ⟨parsed.dataType.toNat, by omega⟩, .inr (.inr ⟨rfl, ?_⟩), ?_⟩
    · exact (UInt32.ofNat_toNat).symm
    · rw [if_neg (not_or.mpr ⟨hne _ (by decide), hne _ (by decide)⟩), if_neg (hne _ (by decide)),
        ← hshift _ hlt, UInt32.ofNat_toNat]
      rfl

/-- Where the repeater receives and sends on different frequencies, the slot is sent. -/
theorem slotInfo_of_fits {config : DmrHomebrewConfig} {parsed : DmrParsedPacket}
    (hfreq : config.rxFreq ≠ config.txFreq) (hfit : parsed.FitsDmrd) :
    ∃ ts flco kind nibble, slotInfo config parsed = packInfo ts flco kind nibble ∧
      parsed.ts = UInt32.ofNat ts.val ∧ parsed.flco = UInt32.ofNat flco.val ∧
      KindOf parsed kind nibble := by
  obtain ⟨ts, hts, hts8⟩ : ∃ ts : Fin 2, parsed.ts = UInt32.ofNat ts.val ∧
      parsed.ts.toUInt8 = UInt8.ofNat ts.val := by
    obtain hts | hts := hfit.ts
    · exact ⟨0, hts, by rw [hts]; rfl⟩
    · exact ⟨1, hts, by rw [hts]; rfl⟩
  obtain ⟨flco, hflco, hbit⟩ : ∃ flco : Fin 2, parsed.flco = UInt32.ofNat flco.val ∧
      ∀ info : UInt8, (if parsed.flco = DMR_FLCO_PRIVATE then info ||| 0x02 else info) =
        info ||| UInt8.ofNat flco.val <<< (1 : UInt8) := by
    obtain hflco | hflco := hfit.flco
    · refine ⟨0, hflco, fun info => ?_⟩
      rw [hflco, if_neg (by decide)]
      exact UInt8.or_zero.symm
    · refine ⟨1, hflco, fun info => ?_⟩
      rw [hflco, if_pos rfl]
      rfl
  obtain ⟨kind, nibble, hkind, hinfo⟩ := kind_of_fits hfit
    (parsed.ts.toUInt8 ||| UInt8.ofNat flco.val <<< (1 : UInt8))
  refine ⟨ts, flco, kind, nibble, ?_, hts, hflco, hkind⟩
  unfold slotInfo
  simp only [if_pos hfreq, hbit, UInt8.zero_or]
  rw [hinfo, hts8, packInfo]

theorem toUInt32_ofNat_nibble (nibble : Fin 16) :
    (UInt8.ofNat nibble.val).toUInt32 = UInt32.ofNat nibble.val := by
  revert nibble
  decide

/-- The parser finds the fields in a slot info that was packed, and leaves the others. -/
theorem parseSlotInfo_packInfo (base : DmrParsedPacket) (ts flco : Fin 2)
    {parsed : DmrParsedPacket} {kind : Fin 4} {nibble : Fin 16}
    (hkind : KindOf parsed kind nibble) :
    ∃ voiceFrame, parseSlotInfo base (packInfo ts flco kind nibble) =
        { base with
          ts := UInt32.ofNat ts.val
          flco := UInt32.ofNat flco.val
          dataType := parsed.dataType
          voiceFrame := voiceFrame } ∧
      (parsed.dataType = DMR_DATA_TYPE_VOICE → voiceFrame = parsed.voiceFrame) := by
  obtain ⟨hts, hflco, hk, hnibble⟩ := packInfo_fields ts flco kind nibble
  unfold parseSlotInfo
  simp only [hts, hflco, hk, hnibble]
  -- a voice frame, voice with SYNC, data
  obtain ⟨rfl, hdata, hframe⟩ | ⟨rfl, hdata⟩ | ⟨rfl, hdata⟩ := hkind
  · exact ⟨_, by rw [hdata, if_pos (by decide)], fun _ => hframe.symm⟩
  · refine ⟨base.voiceFrame, by rw [hdata, if_neg (by decide), if_pos (by decide)], ?_⟩
    intro hvoice
    rw [hdata] at hvoice
    exact absurd hvoice (by decide)
  · refine ⟨base.voiceFrame, ?_, ?_⟩
    · rw [if_neg (by decide), if_neg (by decide), if_pos (by decide), hdata]
      congr 1
      exact toUInt32_ofNat_nibble nibble
    · intro hvoice
      have hne : ∀ nibble : Fin 16, UInt32.ofNat nibble.val ≠ DMR_DATA_TYPE_VOICE := by decide
      exact absurd (hdata.symm.trans hvoice) (hne nibble)

/-! ## The frame -/

/-- The frame of a packet, byte by byte. -/
def dmrdFrame (config : DmrHomebrewConfig) (parsed : DmrParsedPacket) : List UInt8 :=
  DMRD ++ [parsed.sequence] ++ uintBytes 3 parsed.srcId ++ uintBytes 3 parsed.dstId ++
    uintBytes 4 parsed.repeaterId ++ [slotInfo config parsed] ++ uintBytes 4 parsed.streamId ++
    parsed.packet.toList

theorem length_dmrdFrame (config : DmrHomebrewConfig) (parsed : DmrParsedPacket) :
    (dmrdFrame config parsed).length = 53 := by
  simp only [dmrdFrame, List.length_append, length_uintBytes, Vector.length_toList]
  rfl

/-- Behind its first 20 bytes the frame is the packet. -/
theorem getD_dmrdFrame_packet (config : DmrHomebrewConfig) (parsed : DmrParsedPacket) {i : Nat}
    (hi : i < 33) : (dmrdFrame config parsed).getD (20 + i) 0 = parsed.packet[i] := by
  have hlen : (DMRD ++ [parsed.sequence] ++ uintBytes 3 parsed.srcId ++ uintBytes 3 parsed.dstId ++
      uintBytes 4 parsed.repeaterId ++ [slotInfo config parsed] ++
      uintBytes 4 parsed.streamId).length = 20 := rfl
  rw [dmrdFrame, List.getD_append_right _ _ _ _ (by omega), hlen, Nat.add_sub_cancel_left,
    List.getD_eq_getElem _ _ (by rw [Vector.length_toList]; exact hi), Vector.getElem_toList]

/-- The slot info is the last of the first 16 bytes. -/
theorem getD_dmrdFrame_info (config : DmrHomebrewConfig) (parsed : DmrParsedPacket) :
    (dmrdFrame config parsed).getD 15 0 = slotInfo config parsed := by
  have hlen : (DMRD ++ [parsed.sequence] ++ uintBytes 3 parsed.srcId ++ uintBytes 3 parsed.dstId ++
      uintBytes 4 parsed.repeaterId).length = 15 := rfl
  rw [dmrdFrame, List.append_assoc, List.append_assoc, List.getD_append_right _ _ _ _ hlen.le, hlen]
  rfl

/-- The frame is assembled in a buffer that never has to grow. -/
theorem dmrHomebrewSend_eq {env : HomebrewEnv} (halloc : env.allocated = true)
    (homebrew : DmrHomebrew) (parsed : DmrParsedPacket) :
    dmrHomebrewSend env homebrew parsed =
      (dmrHomebrewSendRaw (.holding 128 (dmrdFrame homebrew.config parsed)) env.sends).map
        fun r => ⟨r.1, homebrew, r.2, none⟩ := by
  have hnew : dmrRawNew env.allocated 53 = some (.holding 128 []) :=
    dmrRawNew_of_allocated halloc 53
  unfold dmrHomebrewSend
  simp (disch := simp) only [hnew, dmrRawAddUint8, dmrRawAddUint24, dmrRawAddUint32,
    dmrRawAdd_holding]
  rw [List.nil_append, ← dmrdFrame]
  cases dmrHomebrewSendRaw (.holding 128 (dmrdFrame homebrew.config parsed)) env.sends <;> rfl

/-- Below its length a buffer shows its content. -/
theorem getD_content {raw : DmrRaw} {i : Nat} (hi : i < raw.len) :
    raw.buf.getD i 0 = raw.content.getD i 0 := by
  rw [DmrRaw.content, List.getD_eq_getElem?_getD, List.getD_eq_getElem?_getD,
    List.getElem?_take_of_lt hi]

/-- Whatever becomes of sending, nothing but the frame is sent. -/
theorem sent_dmrHomebrewSend {env : HomebrewEnv} {homebrew : DmrHomebrew}
    {parsed : DmrParsedPacket} {r : HomebrewResult}
    (hr : dmrHomebrewSend env homebrew parsed = some r) :
    ∀ d ∈ r.sent, d = dmrdFrame homebrew.config parsed := by
  cases halloc : env.allocated with
  | false =>
    simp only [dmrHomebrewSend, halloc, dmrRawNew_false, Option.some.injEq] at hr
    subst hr
    exact List.forall_mem_nil _
  | true =>
    rw [dmrHomebrewSend_eq halloc] at hr
    obtain ⟨⟨ret, sent⟩, hsend, rfl⟩ := Option.map_eq_some_iff.mp hr
    intro d hd
    rw [sent_dmrHomebrewSendRaw hsend d hd, DmrRaw.content_holding]

/-- The parser finds each field of a frame where it was put. -/
theorem dmrHomebrewParseDmrd_dmrdFrame {c : Common} (hc : c.ReadsBack)
    {config : DmrHomebrewConfig} (hfreq : config.rxFreq ≠ config.txFreq)
    {parsed : DmrParsedPacket} (hfit : parsed.FitsDmrd) {env : HomebrewEnv} {raw : DmrRaw}
    (halloc : env.allocated = true) (hlen : raw.len = 53)
    (hraw : raw.content = dmrdFrame config parsed) :
    ∃ parsed', dmrHomebrewParseDmrd c env raw = (0, some (some parsed')) ∧
      SameDmrd parsed parsed' := by
  have hbyte : ∀ i < 53, raw.buf.getD i 0 = (dmrdFrame config parsed).getD i 0 := by
    intro i hi
    rw [getD_content (hlen ▸ hi), hraw]
  have hseq : raw.buf.getD 4 0 = parsed.sequence := hbyte 4 (by decide)
  have hsrc : c.uint24 #v[raw.buf.getD 5 0, raw.buf.getD 6 0, raw.buf.getD 7 0] =
      parsed.srcId := by
    rw [hbyte 5 (by decide), hbyte 6 (by decide), hbyte 7 (by decide)]
    exact hc.uint24 _ _ hfit.srcId rfl
  have hdst : c.uint24 #v[raw.buf.getD 8 0, raw.buf.getD 9 0, raw.buf.getD 10 0] =
      parsed.dstId := by
    rw [hbyte 8 (by decide), hbyte 9 (by decide), hbyte 10 (by decide)]
    exact hc.uint24 _ _ hfit.dstId rfl
  have hrep : c.uint32 #v[raw.buf.getD 11 0, raw.buf.getD 12 0, raw.buf.getD 13 0,
      raw.buf.getD 14 0] = parsed.repeaterId := by
    rw [hbyte 11 (by decide), hbyte 12 (by decide), hbyte 13 (by decide), hbyte 14 (by decide)]
    exact hc.uint32 _ _ rfl
  have hstream : c.uint32 #v[raw.buf.getD 16 0, raw.buf.getD 17 0, raw.buf.getD 18 0,
      raw.buf.getD 19 0] = parsed.streamId := by
    rw [hbyte 16 (by decide), hbyte 17 (by decide), hbyte 18 (by decide), hbyte 19 (by decide)]
    exact hc.uint32 _ _ rfl
  have hpacket : Vector.ofFn (fun i : Fin 33 => raw.buf.getD (20 + i.val) 0) = parsed.packet := by
    refine Vector.ext fun i hi => ?_
    rw [Vector.getElem_ofFn, hbyte (20 + i) (by omega), getD_dmrdFrame_packet _ _ hi]
  obtain ⟨ts, flco, kind, nibble, hinfo, hts, hflco, hkind⟩ := slotInfo_of_fits hfreq hfit
  have hslot : raw.buf.getD 15 0 = packInfo ts flco kind nibble :=
    (hbyte 15 (by decide)).trans hinfo
  -- the slot info is parsed last but two, into a packet that has its addresses
  let header : DmrParsedPacket := { DmrParsedPacket.zero with
    sequence := parsed.sequence
    srcId := parsed.srcId
    dstId := parsed.dstId
    repeaterId := parsed.repeaterId }
  obtain ⟨voiceFrame, hparse, hframe⟩ := parseSlotInfo_packInfo header ts flco hkind
  refine ⟨{ header with
    ts := UInt32.ofNat ts.val
    flco := UInt32.ofNat flco.val
    dataType := parsed.dataType
    voiceFrame := voiceFrame
    streamId := parsed.streamId
    packet := parsed.packet }, ?_,
    ⟨rfl, rfl, rfl, rfl, hts.symm, hflco.symm, rfl, rfl, rfl, hframe⟩⟩
  unfold dmrHomebrewParseDmrd
  rw [if_neg (not_not.mpr hlen), if_neg (by rw [halloc]; decide)]
  simp only [hseq, hsrc, hdst, hrep, hstream, hpacket, hslot]
  rw [hparse]

/-- The frame is 53 bytes long, and parsing it yields the packet it was made for. -/
theorem dmrHomebrewParseDmrd_dmrHomebrewSend {c : Common} (hc : c.ReadsBack)
    {homebrew : DmrHomebrew} (hfreq : homebrew.config.rxFreq ≠ homebrew.config.txFreq)
    {parsed : DmrParsedPacket} (hfit : parsed.FitsDmrd) :
    ∃ datagram : List UInt8, datagram.length = 53 ∧
      (∀ env r, dmrHomebrewSend env homebrew parsed = some r → ∀ d ∈ r.sent, d = datagram) ∧
      (∀ env sends, env.allocated = true → env.sends = .sent :: sends →
        dmrHomebrewSend env homebrew parsed = some ⟨0, homebrew, [datagram], none⟩) ∧
      ∀ env raw, env.allocated = true → raw.len = 53 → raw.content = datagram →
        ∃ parsed', dmrHomebrewParseDmrd c env raw = (0, some (some parsed')) ∧
          SameDmrd parsed parsed' := by
  refine ⟨dmrdFrame homebrew.config parsed, length_dmrdFrame _ _,
    fun env r hr => sent_dmrHomebrewSend hr, ?_, ?_⟩
  · intro env sends halloc hsends
    rw [dmrHomebrewSend_eq halloc, hsends, dmrHomebrewSendRaw, DmrRaw.content_holding]
    rfl
  · intro env raw halloc hlen hraw
    exact dmrHomebrewParseDmrd_dmrdFrame hc hfreq hfit halloc hlen hraw

/-- Reading lowest byte first is what is asked of the common library. -/
theorem readsBack_readUint (c : Common) :
    Common.ReadsBack { c with
      uint24 := fun bytes => readUint bytes.toList
      uint32 := fun bytes => readUint bytes.toList } where
  uint24 v bytes hv hbytes := by
    show readUint bytes.toList = v
    rw [hbytes, readUint_uintBytes hv]
  uint32 v bytes hbytes := by
    show readUint bytes.toList = v
    rw [hbytes, readUint_uintBytes v.toNat_lt]

/-- The sixth frame of a private call on the second slot. -/
theorem dmrHomebrewParseDmrd_dmrHomebrewSend_voice :
    let c : Common := ⟨id, fun _ => .replicate 32 0, fun bytes => readUint bytes.toList,
      fun bytes => readUint bytes.toList, fun _ _ => [], [], [], []⟩
    let homebrew := DmrHomebrew.new ⟨none, 2042214, 4385, 4310, 25, 1, 0, 0, 0, none, none, none,
      none, none⟩
    let parsed : DmrParsedPacket := { DmrParsedPacket.zero with
      ts := DMR_TS2
      flco := DMR_FLCO_PRIVATE
      srcId := 2042001
      dstId := 9990
      repeaterId := 2042214
      dataType := DMR_DATA_TYPE_VOICE
      sequence := 42
      streamId := 0xdeadbeef
      voiceFrame := 5 }
    ∃ datagram : List UInt8, datagram.length = 53 ∧
      (∀ env r, dmrHomebrewSend env homebrew parsed = some r → ∀ d ∈ r.sent, d = datagram) ∧
      (∀ env sends, env.allocated = true → env.sends = .sent :: sends →
        dmrHomebrewSend env homebrew parsed = some ⟨0, homebrew, [datagram], none⟩) ∧
      ∀ env raw, env.allocated = true → raw.len = 53 → raw.content = datagram →
        ∃ parsed', dmrHomebrewParseDmrd c env raw = (0, some (some parsed')) ∧
          SameDmrd parsed parsed' := by
  intro c homebrew parsed
  exact dmrHomebrewParseDmrd_dmrHomebrewSend (readsBack_readUint c) (by decide)
    ⟨.inr rfl, .inr rfl, by decide, by decide, .inr (.inl ⟨rfl, by decide⟩)⟩

end Dmrlib
