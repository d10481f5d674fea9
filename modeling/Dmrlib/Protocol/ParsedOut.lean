import Dmrlib.Protocol.HomebrewLogin
import Dmrlib.Protocol.MmdvmBuffer

/-!
# The packet that a reader returns

Both readers store the packet that they parse through `parsed_out`, and both are documented
to set it to `NULL` when there is none. They store packets only: whatever a caller had in the
variable stays there after every other call.

- `datagramPacket`, `linePacket`: the packet of a datagram, and of what the line has delivered.
- `DmrdReceived`, `BurstReceived`: the calls that parse one.
- `parsedOut_iff`: the variable has the packet of the call exactly if there is one, or nothing was
  in it.
-/

namespace Dmrlib

open Run

/-! ## Datagrams -/

/-- The packet in a datagram: a DMRD frame has 53 bytes and begins with a D. -/
def dmrdPacket (c : Common) (env : HomebrewEnv) (datagram : List UInt8) : Option DmrParsedPacket :=
  if datagram.length = 53 ∧ datagram.getD 0 0 = 0x44 then
    (dmrHomebrewParseDmrd c env (.holding 128 datagram)).2.join
  else none

/-- A frame of 53 bytes is parsed, if there is memory for the packet. -/
theorem dmrHomebrewParseDmrd_of_len (c : Common) (env : HomebrewEnv) {raw : DmrRaw}
    (hlen : raw.len = 53) :
    (env.allocated = true ∧ ∃ parsed, dmrHomebrewParseDmrd c env raw = (0, some (some parsed))) ∨
      env.allocated = false ∧ dmrHomebrewParseDmrd c env raw = (-1, none) := by
  unfold dmrHomebrewParseDmrd
  rw [if_neg (not_not.mpr hlen)]
  cases env.allocated with
  | true => exact .inl ⟨rfl, _, rfl⟩
  | false => exact .inr ⟨rfl, rfl⟩

theorem dmrdPacket_eq_none_iff {c : Common} {env : HomebrewEnv} {datagram : List UInt8} :
    dmrdPacket c env datagram = none ↔
      ¬ (datagram.length = 53 ∧ datagram.getD 0 0 = 0x44 ∧ env.allocated = true) := by
  unfold dmrdPacket
  split
  · next hframe =>
    obtain ⟨halloc, parsed, hparse⟩ | ⟨halloc, hparse⟩ :=
      dmrHomebrewParseDmrd_of_len c env (show (DmrRaw.holding 128 datagram).len = 53 from hframe.1)
    · rw [hparse]
      exact iff_of_false (Option.some_ne_none _) fun hno => hno ⟨hframe.1, hframe.2, halloc⟩
    · rw [hparse]
      refine iff_of_true rfl fun hall => ?_
      rw [halloc] at hall
      exact absurd hall.2.2 (by decide)
  · next hframe => exact iff_of_true rfl fun hall => hframe ⟨hall.1, hall.2.1⟩

/-- The packet of a datagram is what the reader stores, if it is asked for packets and has memory
for the datagram. -/
theorem stored_dmrHomebrewRead {c : Common} {env : HomebrewEnv} {homebrew : DmrHomebrew}
    {recv : Option (List UInt8)} {r : HomebrewResult} (hreceived : env.received = true)
    (hout : env.parsedOut = true) (h : dmrHomebrewRead c env homebrew recv = some r) :
    r.parsed = (recv.bind (dmrdPacket c env)).map some ∧
      (r.parsed.join.isSome = true → r.ret = 0) := by
  -- nothing is stored for what is no frame
  have hno : ∀ r : HomebrewResult, r.parsed = none → recv.bind (dmrdPacket c env) = none →
      r.parsed = (recv.bind (dmrdPacket c env)).map some ∧
        (r.parsed.join.isSome = true → r.ret = 0) := by
    intro r hr hpacket
    rw [hr, hpacket]
    exact ⟨rfl, fun hsome => by cases hsome⟩
  have hother : ∀ {datagram : List UInt8} {b : UInt8}, datagram.getD 0 0 = b → b ≠ 0x44 →
      dmrdPacket c env datagram = none := by
    intro datagram b hb hne
    exact if_neg fun hframe => hne (hb.symm.trans hframe.2)
  have hreads := dmrHomebrewRead_reads c env homebrew recv
  generalize dmrHomebrewRead c env homebrew recv = x at h hreads
  cases hreads with
  | failed hfailed =>
    cases h
    obtain hmemory | hnone := hfailed
    · rw [hreceived] at hmemory
      cases hmemory
    · rw [hnone]
      exact ⟨rfl, fun hsome => by cases hsome⟩
  | frame _ hlen hfirst _ =>
    cases h
    rw [Option.bind_some, dmrdPacket, if_pos ⟨hlen, hfirst⟩]
    obtain ⟨-, parsed, hparse⟩ | ⟨-, hparse⟩ := dmrHomebrewParseDmrd_of_len c env
      (show (DmrRaw.holding 128 _).len = 53 from hlen)
    · rw [hparse]
      exact ⟨rfl, fun _ => rfl⟩
    · rw [hparse]
      exact ⟨rfl, fun hsome => by cases hsome⟩
  | master zeros _ hfirst =>
    obtain ⟨nonce, hanswers⟩ := readMaster_answers h
    exact hno r hanswers.parsed (hother hfirst (by decide))
  | pong hfirst =>
    cases h
    exact hno _ rfl (hother hfirst (by decide))
  | ignored hframe _ =>
    cases h
    exact hno _ rfl (if_neg fun hall => hframe ⟨hall.1, hall.2, hout⟩)

theorem parsed_dmrHomebrewRead {c : Common} {env : HomebrewEnv} {homebrew : DmrHomebrew}
    {recv : Option (List UInt8)} {r : HomebrewResult} (hreceived : env.received = true)
    (hout : env.parsedOut = true) (h : dmrHomebrewRead c env homebrew recv = some r) :
    r.parsed.join = recv.bind (dmrdPacket c env) ∧ (r.parsed.join.isSome = true → r.ret = 0) := by
  obtain ⟨hparsed, hret⟩ := stored_dmrHomebrewRead hreceived hout h
  refine ⟨?_, hret⟩
  rw [hparsed]
  cases recv.bind (dmrdPacket c env) <;> rfl

/-! ## Frames -/

/-- The parser returns a packet exactly for frames of data, if there is memory for it. -/
theorem parsed_dmrMmdvmParseFrame (allocated : Bool) (mmdvm : DmrMmdvm) (frame : DmrMmdvmFrame) :
    (frameStart frame = DMR_MMDVM_FRAME_START ∧
        (frameCommand frame = DMR_MMDVM_DMR_DATA1 ∨
          frameCommand frame = DMR_MMDVM_DMR_DATA2) ∧ allocated = true ∧
        ∃ parsed, dmrMmdvmParseFrame allocated mmdvm frame = some (0, mmdvm, some parsed)) ∨
      (¬ (frameStart frame = DMR_MMDVM_FRAME_START ∧
          (frameCommand frame = DMR_MMDVM_DMR_DATA1 ∨
            frameCommand frame = DMR_MMDVM_DMR_DATA2) ∧ allocated = true) ∧
        ∀ r, dmrMmdvmParseFrame allocated mmdvm frame = some r → r.2.2 = none) := by
  unfold dmrMmdvmParseFrame
  by_cases hstart : frameStart frame = DMR_MMDVM_FRAME_START
  · rw [if_neg (not_not.mpr hstart)]
    by_cases hdata : frameCommand frame = DMR_MMDVM_DMR_DATA1 ∨
        frameCommand frame = DMR_MMDVM_DMR_DATA2
    · have hversion : frameCommand frame ≠ DMR_MMDVM_GET_VERSION := by
        rintro h
        rw [h] at hdata
        exact absurd hdata (by decide)
      have hstatus : frameCommand frame ≠ DMR_MMDVM_GET_STATUS := by
        rintro h
        rw [h] at hdata
        exact absurd hdata (by decide)
      rw [if_neg hversion, if_neg hstatus, if_pos hdata]
      cases allocated with
      | true =>
        obtain ⟨parsed, hparsed, -⟩ := dmrPacketDecode_allocated (framePacket frame)
        rw [hparsed]
        exact .inl ⟨hstart, hdata, rfl, _, rfl⟩
      | false =>
        refine .inr ⟨fun hall => absurd hall.2.2 (by decide), fun r hr => ?_⟩
        cases hr
        rfl
    -- no other command parses a packet
    · refine .inr ⟨fun hall => hdata hall.2.1, fun r hr => ?_⟩
      rw [if_neg hdata] at hr
      split at hr
      · dsimp only at hr
        split at hr
        · cases hr
        · cases hr
          rfl
      · split at hr
        · cases hr
          rfl
        · split at hr
          · split at hr
            · cases hr
              rfl
            · cases hr
          · cases hr
            rfl
  · refine .inr ⟨fun hall => hstart hall.1, fun r hr => ?_⟩
    rw [if_pos hstart] at hr
    cases hr
    rfl

/-! ## What a caller finds -/

/-- A DMRD frame is received, and there is memory for it and for its packet. -/
def DmrdReceived (env : HomebrewEnv) (recv : Option (List UInt8)) : Prop :=
  env.received = true ∧ env.allocated = true ∧
    ∃ datagram ∈ recv, datagram.length = 53 ∧ datagram.getD 0 0 = 0x44

/-- The packet that a call of `dmr_homebrew_read` parses. -/
def datagramPacket (c : Common) (env : HomebrewEnv) (recv : Option (List UInt8)) :
    Option DmrParsedPacket :=
  if env.received then recv.bind (dmrdPacket c env) else none

theorem isSome_datagramPacket_iff {c : Common} {env : HomebrewEnv} {recv : Option (List UInt8)} :
    (datagramPacket c env recv).isSome = true ↔ DmrdReceived env recv := by
  unfold datagramPacket DmrdReceived
  cases env.received with
  | false => exact iff_of_false (by simp) fun h => by cases h.1
  | true =>
    rw [if_pos rfl, and_iff_right rfl]
    cases recv with
    | none => exact iff_of_false (by simp) fun ⟨_, _, hd, _⟩ => by cases hd
    | some datagram =>
      rw [Option.bind_some, Option.isSome_iff_ne_none, Ne, dmrdPacket_eq_none_iff, not_not]
      constructor
      · rintro ⟨hlen, hfirst, hmemory⟩
        exact ⟨hmemory, datagram, rfl, hlen, hfirst⟩
      · rintro ⟨hmemory, d, hd, hlen, hfirst⟩
        cases hd
        exact ⟨hlen, hfirst, hmemory⟩

/-- The reader stores the packet that it parses, and else nothing. -/
theorem parsed_eq_datagramPacket {c : Common} {env : HomebrewEnv} {homebrew : DmrHomebrew}
    {recv : Option (List UInt8)} {r : HomebrewResult} (hout : env.parsedOut = true)
    (h : dmrHomebrewRead c env homebrew recv = some r) :
    r.parsed = (datagramPacket c env recv).map some := by
  unfold datagramPacket
  cases hreceived : env.received with
  | true => exact (stored_dmrHomebrewRead hreceived hout h).1
  | false =>
    simp only [dmrHomebrewRead, hreceived, dmrRawNew_false, Option.some.injEq] at h
    rw [← h]
    rfl

/-- The buffer begins with a complete frame of DMR data. -/
def Collected.HoldsBurst (c : Collected) : Prop :=
  3 ≤ c.front.length ∧ lengthByte c.front ≤ c.front.length ∧
    (c.front.getD 2 0 = DMR_MMDVM_DMR_DATA1 ∨ c.front.getD 2 0 = DMR_MMDVM_DMR_DATA2)

instance (c : Collected) : Decidable c.HoldsBurst := inferInstanceAs (Decidable (_ ∧ _))

/-- A frame of DMR data is complete once the reads of a call are over, and there is memory
for its packet. -/
def BurstReceived (s : Link) (env : ReadEnv) : Prop :=
  env.allocated = true ∧ ∃ c, gathered (env.past 255) s = .bytes c ∧ c.HoldsBurst

/-- The packet of a burst in the buffer. -/
def Collected.burst (c : Collected) : Option DmrParsedPacket :=
  (dmrPacketDecode true (Vector.ofFn fun i => c.bytes.getD (4 + i.val) 0)).join.map fun parsed =>
    { parsed with ts := if c.bytes.getD 3 0 = 0x1a then DMR_TS2 else DMR_TS1 }

/-- The packet that a call of `dmr_mmdvm_read` parses. -/
def linePacket (s : Link) (env : ReadEnv) : Option DmrParsedPacket :=
  match gathered (env.past 255) s with
  | .bytes c => if env.allocated = true ∧ c.HoldsBurst then c.burst else none
  | _ => none

/-- A burst is parsed, whatever its bytes are. -/
theorem Collected.exists_burst (c : Collected) : ∃ parsed, c.burst = some parsed := by
  obtain ⟨parsed, hdecode, -⟩ := dmrPacketDecode_allocated
    (Vector.ofFn fun i => c.bytes.getD (4 + i.val) 0)
  rw [burst, hdecode]
  exact ⟨_, rfl⟩

theorem isSome_linePacket_iff {s : Link} {env : ReadEnv} :
    (linePacket s env).isSome = true ↔ BurstReceived s env := by
  unfold linePacket BurstReceived
  cases gathered (env.past 255) s with
  | nothing => exact iff_of_false (by simp) fun ⟨_, _, hc, _⟩ => by cases hc
  | overrun => exact iff_of_false (by simp) fun ⟨_, _, hc, _⟩ => by cases hc
  | bytes c =>
    show (if env.allocated = true ∧ c.HoldsBurst then c.burst else none).isSome = true ↔ _
    split
    · next hburst =>
      obtain ⟨parsed, hparsed⟩ := c.exists_burst
      rw [hparsed]
      exact iff_of_true rfl ⟨hburst.1, c, rfl, hburst.2⟩
    · next hno =>
      refine iff_of_false (by simp) ?_
      rintro ⟨hmemory, c', hc, hholds⟩
      cases hc
      exact hno ⟨hmemory, hholds⟩

/-- The packet that the parser takes from the buffer. -/
theorem burst_collected (mmdvm : DmrMmdvm)
    (hstart : frameStart mmdvm.frame = DMR_MMDVM_FRAME_START)
    (hdata : frameCommand mmdvm.frame = DMR_MMDVM_DMR_DATA1 ∨
      frameCommand mmdvm.frame = DMR_MMDVM_DMR_DATA2) :
    dmrMmdvmParseFrame true mmdvm mmdvm.frame = some (0, mmdvm, mmdvm.collected.burst) := by
  have hversion : frameCommand mmdvm.frame ≠ DMR_MMDVM_GET_VERSION := by
    obtain h | h := hdata <;> rw [h] <;> decide
  have hstatus : frameCommand mmdvm.frame ≠ DMR_MMDVM_GET_STATUS := by
    obtain h | h := hdata <;> rw [h] <;> decide
  have hbytes : mmdvm.collected.bytes = mmdvm.frame.toList := Collected.bytes_ofFrame _ _
  have hpacket : (Vector.ofFn fun i : Fin 33 => mmdvm.collected.bytes.getD (4 + i.val) 0) =
      framePacket mmdvm.frame := by
    refine Vector.ext fun i hi => ?_
    rw [Vector.getElem_ofFn, framePacket, Vector.getElem_ofFn, hbytes]
    exact getD_frame _ (by omega)
  obtain ⟨parsed, hdecode, -⟩ := dmrPacketDecode_allocated (framePacket mmdvm.frame)
  rw [dmrMmdvmParseFrame, if_neg (not_not.mpr hstart), if_neg hversion, if_neg hstatus,
    if_pos hdata, Collected.burst, hpacket, hdecode, hbytes, getD_frame _ (by decide)]
  rfl

theorem holdsBurst_collected {mmdvm : DmrMmdvm} (hpos : mmdvm.pos ≤ 255) :
    mmdvm.collected.HoldsBurst ↔ 3 ≤ mmdvm.pos ∧
      (frameLength mmdvm.frame).toNat ≤ mmdvm.pos ∧
      (frameCommand mmdvm.frame = DMR_MMDVM_DMR_DATA1 ∨
        frameCommand mmdvm.frame = DMR_MMDVM_DMR_DATA2) := by
  rw [Collected.HoldsBurst, DmrMmdvm.length_collected hpos]
  refine and_congr_right fun h3 => ?_
  have h1 : mmdvm.collected.front.getD 1 0 = frameLength mmdvm.frame := getD_front hpos (by omega)
  have h2 : mmdvm.collected.front.getD 2 0 = frameCommand mmdvm.frame := getD_front hpos (by omega)
  rw [lengthByte, h1, h2]

theorem parsed_eq_linePacket {s : Link} {env : ReadEnv} {r : ReadResult}
    (hpos : s.mmdvm.pos ≤ 255) (h : dmrMmdvmRead env s.mmdvm s.port = some r) :
    r.parsed = linePacket s env := by
  have hcases := collect_cases env.past hpos
  obtain ⟨⟨ret, mmdvm, port⟩, hcollect, h⟩ := Option.bind_eq_some_iff.mp h
  rw [hcollect] at hcases
  dsimp only at h
  cases hcases with
  | nothing hret hgathered =>
    rw [if_pos hret] at h
    cases h
    rw [linePacket, hgathered]
  | bytes hret hgathered hpos' =>
    rw [linePacket, hgathered]
    show r.parsed = if env.allocated = true ∧ mmdvm.collected.HoldsBurst then _ else none
    have hholds := holdsBurst_collected hpos'
    rw [if_neg hret] at h
    split at h
    · next hshort =>
      cases h
      exact (if_neg fun hburst => absurd (hholds.mp hburst.2).1 (Nat.not_le.mpr hshort)).symm
    split at h
    · next hmore =>
      cases h
      exact (if_neg fun hburst => absurd (hholds.mp hburst.2).2.1 (Nat.not_le.mpr hmore)).symm
    next h3 hcomplete =>
    -- a frame is handed to the parser
    have hstart : frameStart mmdvm.frame = DMR_MMDVM_FRAME_START :=
      frame_start_gathered hgathered hpos' (Nat.not_lt.mp h3)
    obtain ⟨⟨ret', mmdvm', parsed⟩, hparse, h⟩ := Option.bind_eq_some_iff.mp h
    cases h
    show parsed = _
    obtain ⟨-, hdata, hmemory, -⟩ | ⟨hno, hnone⟩ :=
      parsed_dmrMmdvmParseFrame env.allocated mmdvm mmdvm.frame
    · rw [hmemory, burst_collected mmdvm hstart hdata] at hparse
      cases hparse
      have hburst := hholds.mpr ⟨Nat.not_lt.mp h3, Nat.not_lt.mp hcomplete, hdata⟩
      exact (if_pos ⟨hmemory, hburst⟩).symm
    · rw [if_neg fun hburst => hno ⟨hstart, (hholds.mp hburst.2).2.2, hburst.1⟩]
      exact hnone _ hparse

/-- A variable that only packets are stored to is right after a call if it was `NULL` before
the call or if there is a packet. -/
theorem or_eq_iff {α : Type} (packet prev : Option α) :
    packet.or prev = packet ↔ prev = none ∨ packet.isSome = true := by
  cases packet with
  | none => simp
  | some p => simp

/-- **The documented contract.** With `prev` in the variable before a call that returns, the
variable afterwards holds the packet that the call has parsed, and `NULL` if it has parsed
none, exactly if `prev` was `NULL` or a packet is received: for all datagrams, and for a
modem after any run. -/
theorem parsedOut_iff (prev : Option DmrParsedPacket) :
    (∀ c env homebrew recv r, env.parsedOut = true →
      dmrHomebrewRead c env homebrew recv = some r →
        (r.parsed.getD prev = datagramPacket c env recv ↔ prev = none ∨ DmrdReceived env recv)) ∧
      ∀ port envs s env r, after linkStep ⟨.new, port, []⟩ envs = some s →
        dmrMmdvmRead env s.mmdvm s.port = some r →
          (r.parsed.or prev = linePacket s env ↔ prev = none ∨ BurstReceived s env) := by
  constructor
  · intro c env homebrew recv r hout hread
    rw [parsed_eq_datagramPacket hout hread, ← isSome_datagramPacket_iff, ← or_eq_iff]
    cases datagramPacket c env recv <;> rfl
  · intro port envs s env r hrun hread
    have hpos : s.mmdvm.pos ≤ 255 := pos_after_le hrun
    rw [parsed_eq_linePacket hpos hread, ← isSome_linePacket_iff, ← or_eq_iff]

/-- A DMRD frame and a frame of the modem: both are found in a variable that held a packet of
before. -/
theorem parsedOut_received :
    let c : Common :=
      ⟨id, fun _ => .replicate 32 0, fun _ => 0, fun _ => 0, fun _ _ => [], [], [], []⟩
    let env : HomebrewEnv := .sending (fun _ => ⟨0, 0⟩) true
    let serial : ReadEnv := ⟨fun _ => 0, true⟩
    let homebrew : DmrHomebrew := .new ⟨none, 1, 0, 0, 0, 1, 0, 0, 0, none, none, none, none, none⟩
    let datagram : List UInt8 :=
      [0x44, 0x4d, 0x52, 0x44, 7, 0, 0, 1, 0, 0, 9, 0, 0x1f, 0x29, 0xa6, 0x21, 1, 2, 3, 4] ++
        List.replicate 33 0x5a
    let port : List SerialRead := [.data [0xe0, 37, 0x18], .data (0x21 :: List.replicate 33 0x5a)]
    let prev : Option DmrParsedPacket := some .zero
    (∃ r, dmrHomebrewRead c env homebrew (some datagram) = some r ∧
        r.parsed.getD prev = datagramPacket c env (some datagram)) ∧
      ∃ s r, after linkStep ⟨.new, port, []⟩ [serial] = some s ∧
        dmrMmdvmRead serial s.mmdvm s.port = some r ∧ r.parsed.or prev = linePacket s serial := by
  intro c env serial homebrew datagram port prev
  have hcontract := parsedOut_iff prev
  obtain ⟨r, hr⟩ : ∃ r, dmrHomebrewRead c env homebrew (some datagram) = some r :=
    Option.isSome_iff_exists.mp (by decide +kernel)
  obtain ⟨s, hs⟩ : ∃ s, after linkStep ⟨.new, port, []⟩ [serial] = some s :=
    Option.isSome_iff_exists.mp (by decide +kernel)
  -- both reads come through, and the line has delivered a burst
  have hall : (after linkStep ⟨.new, port, []⟩ [serial]).all
      (fun s => (dmrMmdvmRead serial s.mmdvm s.port).isSome && (linePacket s serial).isSome) =
        true := by
    decide +kernel
  rw [hs, Option.all_some, Bool.and_eq_true] at hall
  obtain ⟨r', hr'⟩ := Option.isSome_iff_exists.mp hall.1
  refine ⟨⟨r, hr, (hcontract.1 c env homebrew (some datagram) r rfl hr).mpr (.inr ?_)⟩,
    s, r', hs, hr', (hcontract.2 port [serial] s serial r' hs hr').mpr (.inr ?_)⟩
  · rw [← isSome_datagramPacket_iff (c := c)]
    decide +kernel
  · exact isSome_linePacket_iff.mp hall.2

/-- A 14-byte `MSTACK`, and a modem that sends nothing: a packet of before stays in the
variable. -/
theorem not_parsedOut_kept :
    let c : Common :=
      ⟨id, fun _ => .replicate 32 0, fun _ => 0, fun _ => 0, fun _ _ => [], [], [], []⟩
    let env : HomebrewEnv := .sending (fun _ => ⟨0, 0⟩) true
    let serial : ReadEnv := ⟨fun _ => 0, true⟩
    let homebrew : DmrHomebrew := .new ⟨none, 1, 0, 0, 0, 1, 0, 0, 0, none, none, none, none, none⟩
    let datagram : List UInt8 := [0x4d, 0x53, 0x54, 0x41, 0x43, 0x4b, 0, 0, 0, 0, 0, 0, 0, 0]
    let prev : Option DmrParsedPacket := some .zero
    (¬ DmrdReceived env (some datagram) ∧
        (dmrHomebrewRead c env homebrew (some datagram)).map (fun r => r.parsed.getD prev) =
          some (some .zero)) ∧
      ¬ BurstReceived ⟨.new, [], []⟩ serial ∧
        (dmrMmdvmRead serial .new []).map (fun r => r.parsed.or prev) = some (some .zero) := by
  intro c env serial homebrew datagram prev
  refine ⟨⟨?_, by decide +kernel⟩, ?_, rfl⟩
  · rw [← isSome_datagramPacket_iff (c := c)]
    decide +kernel
  · rintro ⟨-, _, hgathered, -⟩
    cases hgathered

end Dmrlib
