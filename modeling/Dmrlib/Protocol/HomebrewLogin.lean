import Dmrlib.Protocol.Homebrew
import Dmrlib.Lib.Run

/-!
# Logging in to a master

A session is a client together with a record of everything it was called with, was
sent, and sent. `Move` lists what a call can do while sending succeeds, whatever memory
there is; the login is safe because no move skips a step, whatever the master sends:
`Progress` follows the record since the client last started over, and tells how far the
login has come.

Closing the link sends a datagram that begins like the configuration and leaves the
login where it is. A session that is closed on the way therefore sends two `RPTC`s
before it is logged in, and only one of them is the configuration. And a call of
`dmr_homebrew_auth` starts over only if it passes its checks and can copy the secret:
before that it frees the old one, and leaves the state as it is.

- `keyDatagram`, `configDatagram`: what `homebrew_send_key` and `homebrew_send_config` send.
- `Reads`, `dmrHomebrewRead_reads`: what a call of `dmr_homebrew_read` can do.
- `LoginEvent`, `Session.step`: the calls, with the memory each of them finds.
- `Move`, `call_move`: what a call does to a client and its record.
- `LoginComplete`: what the record of a client that is logged in is to show.
- `LoginInv`, `LoginInv.move`: the invariant, and that every move keeps it.
- `throughout_loginSafe`: no session skips or repeats a step of the login.
-/

namespace Dmrlib

open Run

/-! ## Datagrams

The datagrams of a login, as lists of bytes, and that the client sends these.
-/

/-- The field for the repeater's number. -/
def numberField (id : DmrId) : List UInt8 := fixedField 8 ((formatNat 16 8 id.toNat).take 7)

def keyDatagram (c : Common) (id : DmrId) (nonce secret : List UInt8) : List UInt8 :=
  RPTK ++ numberField id ++ hexBytes c.bhex (c.sha256 (nonce ++ secret)).toList ++
    List.replicate 32 0

def configDatagram (c : Common) (config : DmrHomebrewConfig) : List UInt8 :=
  RPTC ++ (configFields c config).flatMap fun field => fixedField field.1 field.2

/-- Everything a call needs to succeed in sending. -/
def HomebrewEnv.sending (clock : Nat → Timeval) (parsedOut : Bool) : HomebrewEnv :=
  ⟨true, true, true, true, [.sent], clock, parsedOut⟩

/-- A word and the repeater's number. -/
theorem addWord_holding (grown : Bool) {word : CStr} (id : DmrId) (h : word.length ≤ 8) :
    (dmrRawAddXuint32 grown (dmrRawAdd grown (.holding 128 []) word).2 id).2 =
      .holding 128 (word ++ numberField id) := by
  have hword : ([] : List UInt8).length + word.length < 128 := by
    rw [List.length_nil]
    omega
  have hnumber : ([] ++ word).length + (numberField id).length < 128 := by
    rw [List.nil_append, numberField, length_fixedField]
    omega
  rw [dmrRawAdd_holding grown hword, dmrRawAddXuint32, ← numberField,
    dmrRawAdd_holding grown hnumber,
    List.nil_append]

/-- Fields that fit are appended one after the other. -/
theorem addFields_holding (grown : Bool) {allocated : Nat} (fields : List (Nat × List UInt8))
    (old : List UInt8) (h : old.length + (fields.map Prod.fst).sum + 1 < allocated) :
    fields.foldl (fun raw field => (dmrRawAddf grown raw field.1 field.2).2)
        (.holding allocated old) =
      .holding allocated (old ++ fields.flatMap fun field => fixedField field.1 field.2) := by
  induction fields generalizing old with
  | nil => rw [List.foldl_nil, List.flatMap_nil, List.append_nil]
  | cons field fields ih =>
    rw [List.map_cons, List.sum_cons] at h
    have hfield : old.length + field.1 + 1 < allocated := by omega
    have hrest : (old ++ fixedField field.1 field.2).length + (fields.map Prod.fst).sum + 1 <
        allocated := by
      rw [List.length_append, length_fixedField]
      omega
    rw [List.foldl_cons, dmrRawAddf_holding grown field.2 hfield, ih _ hrest, List.flatMap_cons,
      List.append_assoc]

@[simp]
theorem dmrHomebrewSendRaw_sent (allocated : Nat) (bytes : List UInt8) :
    dmrHomebrewSendRaw (.holding allocated bytes) [.sent] = some (0, [bytes]) := by
  rw [dmrHomebrewSendRaw, DmrRaw.content_holding]

/-- The configuration goes out as one datagram, if there is memory for it. -/
theorem homebrewSendConfig_eq (c : Common) {env : HomebrewEnv} (halloc : env.allocated = true)
    (homebrew : DmrHomebrew) :
    homebrewSendConfig c env homebrew =
      (dmrHomebrewSendRaw (.holding 384 (configDatagram c homebrew.config)) env.sends).map fun r =>
        ⟨r.1, { homebrew with state := .authConfig }, r.2, none⟩ := by
  have hnew : dmrRawNew env.allocated 302 = some (.holding 384 []) :=
    dmrRawNew_of_allocated halloc 302
  have hword : dmrRawAdd env.grown (.holding 384 []) RPTC = (0, .holding 384 RPTC) :=
    dmrRawAdd_holding env.grown (show 0 + RPTC.length < 384 by decide)
  have hwidths : (configFields c homebrew.config).map Prod.fst =
      [8, 8, 9, 9, 2, 2, 8, 9, 3, 20, 20, 124, 40, 40] := rfl
  have hsum : RPTC.length + ((configFields c homebrew.config).map Prod.fst).sum + 1 < 384 := by
    rw [hwidths]
    decide
  simp only [homebrewSendConfig, hnew, hword, addFields_holding env.grown _ _ hsum]
  exact Option.map_eq_bind.symm

/-- The reply to a nonce goes out as one datagram, if there is memory for it and a secret. -/
theorem homebrewSendKey_eq (c : Common) {env : HomebrewEnv} (halloc : env.allocated = true)
    (homebrew : DmrHomebrew) :
    homebrewSendKey c env homebrew = homebrew.secret.bind fun secret =>
      (dmrHomebrewSendRaw (.holding 128
        (keyDatagram c homebrew.config.repeaterId homebrew.nonce.toList secret)) env.sends).map
          fun r => ⟨r.1, { homebrew with state := .authInit }, r.2, none⟩ := by
  have hnew : dmrRawNew env.allocated 76 = some (.holding 128 []) :=
    dmrRawNew_of_allocated halloc 76
  have hword := addWord_holding env.grown homebrew.config.repeaterId
    (show RPTK.length ≤ 8 by decide)
  cases hsecret : homebrew.secret with
  | none =>
    simp only [homebrewSendKey, hnew, hsecret, Option.bind_eq_bind, Option.bind_none]
  | some secret =>
    obtain ⟨digest, hdigest⟩ : ∃ digest,
        digest = hexBytes c.bhex (c.sha256 (homebrew.nonce.toList ++ secret)).toList := ⟨_, rfl⟩
    have hlen : (RPTK ++ numberField homebrew.config.repeaterId).length + digest.length = 76 := by
      rw [hdigest, List.length_append, numberField, length_fixedField, length_hexBytes,
        Vector.length_toList]
      rfl
    -- command, number and digest fill 76 bytes, and the digest is counted a second time
    have hadd := dmrRawAdd_holding env.grown (show _ < 128 by rw [hlen]; decide)
    have hclaim := holding_claim (show
        (RPTK ++ numberField homebrew.config.repeaterId ++ digest).length + 32 ≤ 128 by
      rw [List.length_append, hlen]
      decide)
    simp only [homebrewSendKey, hnew, hsecret, hword, dmrRawAddHex, ← hdigest, hadd, hclaim,
      Option.bind_eq_bind, Option.bind_some, keyDatagram]
    exact Option.map_eq_bind.symm

/-- What a client does in answer to its master: it keeps its configuration, returns no packet,
and sends nothing but the configuration and a key. -/
structure Answers (c : Common) (homebrew : DmrHomebrew) (r : HomebrewResult) : Prop where
  config : r.homebrew.config = homebrew.config
  parsed : r.parsed = none
  sent : ∀ datagram ∈ r.sent, datagram = configDatagram c homebrew.config ∨
    ∃ secret, homebrew.secret = some secret ∧
      datagram = keyDatagram c homebrew.config.repeaterId homebrew.nonce.toList secret

/-- An answer without a datagram. -/
theorem Answers.quiet {c : Common} {homebrew homebrew' : DmrHomebrew} (ret : Int)
    (h : homebrew'.config = homebrew.config) : Answers c homebrew ⟨ret, homebrew', [], none⟩ :=
  ⟨h, rfl, List.forall_mem_nil _⟩

section Answering

variable {c : Common} {env : HomebrewEnv} {homebrew : DmrHomebrew} {r : HomebrewResult}

/-- What `homebrew_send_config` sends, if it sends anything. -/
theorem sent_homebrewSendConfig (h : homebrewSendConfig c env homebrew = some r) :
    ∀ datagram ∈ r.sent, datagram = configDatagram c homebrew.config := by
  cases halloc : env.allocated with
  | false =>
    simp only [homebrewSendConfig, halloc, dmrRawNew_false, Option.some.injEq] at h
    subst h
    exact List.forall_mem_nil _
  | true =>
    rw [homebrewSendConfig_eq c halloc] at h
    obtain ⟨⟨ret, sent⟩, hsend, rfl⟩ := Option.map_eq_some_iff.mp h
    intro datagram hd
    rw [sent_dmrHomebrewSendRaw hsend datagram hd, DmrRaw.content_holding]

theorem homebrewSendConfig_answers (h : homebrewSendConfig c env homebrew = some r) :
    Answers c homebrew r := by
  have hsent := sent_homebrewSendConfig h
  unfold homebrewSendConfig at h
  split at h
  · cases h
    exact .quiet _ rfl
  · obtain ⟨s, -, hs⟩ := Option.bind_eq_some_iff.mp h
    cases hs
    exact ⟨rfl, rfl, fun datagram hd => .inl (hsent datagram hd)⟩

/-- What `homebrew_send_key` sends, if it sends anything. -/
theorem sent_homebrewSendKey (h : homebrewSendKey c env homebrew = some r) :
    ∀ datagram ∈ r.sent, ∃ secret, homebrew.secret = some secret ∧
      datagram = keyDatagram c homebrew.config.repeaterId homebrew.nonce.toList secret := by
  cases halloc : env.allocated with
  | false =>
    simp only [homebrewSendKey, halloc, dmrRawNew_false, Option.some.injEq] at h
    subst h
    exact List.forall_mem_nil _
  | true =>
    rw [homebrewSendKey_eq c halloc] at h
    obtain ⟨secret, hsecret, h⟩ := Option.bind_eq_some_iff.mp h
    obtain ⟨⟨ret, sent⟩, hsend, rfl⟩ := Option.map_eq_some_iff.mp h
    intro datagram hd
    refine ⟨secret, hsecret, ?_⟩
    rw [sent_dmrHomebrewSendRaw hsend datagram hd, DmrRaw.content_holding]

theorem homebrewSendKey_answers (h : homebrewSendKey c env homebrew = some r) :
    Answers c homebrew r := by
  have hsent := sent_homebrewSendKey h
  unfold homebrewSendKey at h
  split at h
  · cases h
    exact .quiet _ rfl
  · obtain ⟨secret, -, h⟩ := Option.bind_eq_some_iff.mp h
    obtain ⟨s, -, hs⟩ := Option.bind_eq_some_iff.mp h
    cases hs
    exact ⟨rfl, rfl, fun datagram hd => .inr (hsent datagram hd)⟩

/-- Whatever the master says, and whatever becomes of sending. The key is made from the nonce
that has just come. -/
theorem readMaster_answers {raw : DmrRaw} (h : readMaster c env homebrew raw = some r) :
    ∃ nonce, Answers c { homebrew with nonce } r := by
  unfold readMaster at h
  split at h
  · refine ⟨homebrew.nonce, ?_⟩
    split at h
    · unfold readAck at h
      split at h
      · exact homebrewSendConfig_answers h
      · cases h
        exact .quiet _ rfl
      · cases h
        exact .quiet _ rfl
    · split at h
      · cases h
        exact .quiet _ rfl
      · cases h
        exact .quiet _ rfl
  · split at h
    · exact ⟨_, homebrewSendKey_answers h⟩
    · cases h
      exact ⟨homebrew.nonce, .quiet _ rfl⟩

end Answering

section Sending

variable (c : Common) {env : HomebrewEnv} (halloc : env.allocated = true)
  (hsends : env.sends = [.sent]) (homebrew : DmrHomebrew)

include halloc hsends

theorem homebrewSendConfig_sending :
    homebrewSendConfig c env homebrew =
      some ⟨0, { homebrew with state := .authConfig },
        [configDatagram c homebrew.config], none⟩ := by
  rw [homebrewSendConfig_eq c halloc, hsends, dmrHomebrewSendRaw_sent]
  rfl

theorem homebrewSendKey_sending :
    homebrewSendKey c env homebrew = homebrew.secret.map fun secret =>
      ⟨0, { homebrew with state := .authInit },
        [keyDatagram c homebrew.config.repeaterId homebrew.nonce.toList secret], none⟩ := by
  rw [homebrewSendKey_eq c halloc, hsends]
  simp only [dmrHomebrewSendRaw_sent]
  cases homebrew.secret <;> rfl

omit halloc in
/-- What `dmr_homebrew_auth` and `dmr_homebrew_close` send. -/
theorem sendWord_sending {word : CStr} (hword : word.length ≤ 8) :
    dmrHomebrewSendRaw (dmrRawAddXuint32 env.grown
      (dmrRawAdd env.grown (.holding 128 []) word).2 homebrew.config.repeaterId).2 env.sends =
      some (0, [word ++ numberField homebrew.config.repeaterId]) := by
  rw [addWord_holding env.grown _ hword, hsends, dmrHomebrewSendRaw_sent]

theorem dmrHomebrewAuth_sending (secret : CStr) (hid : homebrew.config.repeaterId ≠ 0)
    (hduplicated : env.duplicated = true) :
    dmrHomebrewAuth env homebrew (some secret) =
      some ⟨0, { homebrew with secret := some secret, state := .authNone },
        [RPTL ++ numberField homebrew.config.repeaterId], none⟩ := by
  have hnew : dmrRawNew env.allocated 12 = some (.holding 128 []) :=
    dmrRawNew_of_allocated halloc 12
  have hnot : ¬ env.duplicated = false := Bool.not_eq_false _ ▸ hduplicated
  simp only [dmrHomebrewAuth, hnew, if_neg hid, if_neg hnot,
    sendWord_sending hsends homebrew (show RPTL.length ≤ 8 by decide)]
  rfl

theorem dmrHomebrewClose_sending (hstate : homebrew.state ≠ .authNone) :
    dmrHomebrewClose env homebrew =
      some ⟨0, homebrew, [RPTC ++ numberField homebrew.config.repeaterId], none⟩ := by
  have hnew : dmrRawNew env.allocated 12 = some (.holding 128 []) :=
    dmrRawNew_of_allocated halloc 12
  simp only [dmrHomebrewClose, hnew, if_neg hstate,
    sendWord_sending hsends homebrew (show RPTC.length ≤ 8 by decide)]
  rfl

theorem homebrewIoPingTimer_sending (hstate : homebrew.state = .authDone)
    (hpong : ¬ dmrTimeSince (env.clock 0) homebrew.lastPong > 10) :
    homebrewIoPingTimer env homebrew =
      some ⟨0, { homebrew with lastPing := env.clock 1 },
        [MSTPING ++ numberField homebrew.config.repeaterId], none⟩ := by
  have hnew : dmrRawNew env.allocated 15 = some (.holding 128 []) :=
    dmrRawNew_of_allocated halloc 15
  have hnot : ¬ homebrew.state ≠ .authDone := not_not.mpr hstate
  simp only [homebrewIoPingTimer, hnew, if_neg hnot, if_neg hpong,
    sendWord_sending hsends homebrew (show MSTPING.length ≤ 8 by decide)]
  rfl

end Sending

/-! ## Reading

What `dmr_homebrew_read` makes of a datagram, case by case. The case decides what is sent and where
the client goes.
-/

/-- The bytes of the receive buffer are those of the datagram. -/
theorem getD_received {datagram : List UInt8} {n i : Nat} (hi : i < (datagram.take n).length)
    (zeros : List UInt8) : (datagram.take n ++ zeros).getD i 0 = datagram.getD i 0 := by
  have hin : i < n ∧ i < datagram.length := by
    rw [List.length_take] at hi
    omega
  rw [List.getD_append _ _ _ _ hi, List.getD_eq_getElem _ _ hi, List.getD_eq_getElem _ _ hin.2,
    List.getElem_take]

theorem matchesAt3_received {datagram : List UInt8} {n : Nat} {word : CStr}
    (h : 3 + word.length ≤ (datagram.take n).length) (zeros : List UInt8) :
    matchesAt3 (datagram.take n ++ zeros) word = matchesAt3 datagram word := by
  have hlen := h
  rw [List.length_take] at hlen
  have hdrop : (datagram.take n ++ zeros).drop 3 = (datagram.take n).drop 3 ++ zeros :=
    List.drop_append_of_le_length (by omega)
  have htake : ((datagram.take n).drop 3 ++ zeros).take word.length =
      (datagram.drop 3).take word.length := by
    rw [List.take_append_of_le_length (by rw [List.length_drop]; omega), List.drop_take,
      List.take_take, Nat.min_eq_left (by omega)]
  rw [matchesAt3, matchesAt3, hdrop, htake]

/-- What a call of `dmr_homebrew_read` can do. -/
inductive Reads (c : Common) (env : HomebrewEnv) (homebrew : DmrHomebrew) :
    Option (List UInt8) → Option HomebrewResult → Prop where
  | failed {recv : Option (List UInt8)} (h : env.received = false ∨ recv = none) :
    Reads c env homebrew recv (some ⟨-1, homebrew, [], none⟩)
  | frame {datagram : List UInt8} (hreceived : env.received = true)
    (hlen : datagram.length = 53) (hfirst : datagram.getD 0 0 = 0x44)
    (hout : env.parsedOut = true) :
    Reads c env homebrew (some datagram)
      (some ⟨(dmrHomebrewParseDmrd c env (.holding 128 datagram)).1, homebrew, [],
        (dmrHomebrewParseDmrd c env (.holding 128 datagram)).2⟩)
  | master {datagram : List UInt8} (zeros : List UInt8) (hlen : 14 ≤ (datagram.take 128).length)
    (hfirst : datagram.getD 0 0 = 0x4d) :
    Reads c env homebrew (some datagram)
      (readMaster c env homebrew ⟨datagram.take 128 ++ zeros, (datagram.take 128).length⟩)
  | pong {datagram : List UInt8} (hfirst : datagram.getD 0 0 = 0x52) :
    Reads c env homebrew (some datagram)
      (some ⟨0, { homebrew with lastPong := env.clock 0 }, [], none⟩)
  | ignored {datagram : List UInt8}
    (hframe : ¬ (datagram.length = 53 ∧ datagram.getD 0 0 = 0x44 ∧ env.parsedOut = true))
    (hmaster : datagram.getD 0 0 = 0x4d → datagram.length < 14) :
    Reads c env homebrew (some datagram) (some ⟨0, homebrew, [], none⟩)

/-- Whatever is received, and whatever memory and socket do. -/
theorem dmrHomebrewRead_reads (c : Common) (env : HomebrewEnv) (homebrew : DmrHomebrew)
    (recv : Option (List UInt8)) :
    Reads c env homebrew recv (dmrHomebrewRead c env homebrew recv) := by
  cases hreceived : env.received with
  | false =>
    simp only [dmrHomebrewRead, hreceived, dmrRawNew_false]
    exact .failed (.inl hreceived)
  | true =>
    have hnew : dmrRawNew env.received 53 = some (.holding 128 []) :=
      dmrRawNew_of_allocated hreceived 53
    have hbuf : (DmrRaw.holding 128 []).buf.length = 128 := rfl
    cases recv with
    | none =>
      simp only [dmrHomebrewRead, hnew]
      exact .failed (.inr rfl)
    | some datagram =>
      have htake := List.length_take (i := 128) (l := datagram)
      simp only [dmrHomebrewRead, hnew, hbuf, put_holding, List.nil_append]
      split
      · next hshort => exact .ignored (fun hframe => by omega) fun _ => by omega
      -- whatever the first letter is, what follows it decides
      next hlong =>
        rw [getD_received (by omega)]
        have hother : ∀ b : UInt8, datagram.getD 0 0 = b → b ≠ 0x44 →
            ¬ (datagram.length = 53 ∧ datagram.getD 0 0 = 0x44 ∧ env.parsedOut = true) :=
          fun b hb hne hframe => hne (hb.symm.trans hframe.2.1)
        split
        · next hfirst =>
          split
          · next hframe =>
            have hlen : datagram.length = 53 := by
              have := hframe.1
              omega
            -- a frame is shorter than the buffer, so nothing of it was cut off
            have hraw : (⟨datagram.take 128 ++ List.replicate
                (128 - (([] : List UInt8).length + (datagram.take 128).length)) 0,
                (datagram.take 128).length⟩ : DmrRaw) = .holding 128 datagram := by
              rw [List.take_of_length_le (by omega), List.length_nil, Nat.zero_add]
              rfl
            rw [hraw]
            exact .frame hreceived hlen hfirst hframe.2
          · next hnot =>
            refine .ignored (fun hframe => hnot ⟨?_, hframe.2.2⟩) fun hM => ?_
            · show (datagram.take 128).length = 53
              omega
            · rw [hfirst] at hM
              exact absurd hM (by decide)
        · next hfirst => exact .master _ (by omega) hfirst
        · next hfirst =>
          split
          · exact .pong hfirst
          · refine .ignored (hother _ hfirst (by decide)) fun hM => ?_
            rw [hfirst] at hM
            exact absurd hM (by decide)
        · next hD hM _ => exact .ignored (hother _ rfl hD) fun hfirst => absurd hfirst hM

/-- A message of the master is read as it was received. -/
theorem dmrHomebrewRead_master (c : Common) {env : HomebrewEnv} (homebrew : DmrHomebrew)
    {datagram : List UInt8} (hreceived : env.received = true) (hmin : 14 ≤ datagram.length)
    (hmax : datagram.length ≤ 128) (hfirst : datagram.getD 0 0 = 0x4d) :
    ∃ buf, dmrHomebrewRead c env homebrew (some datagram) =
        readMaster c env homebrew ⟨buf, datagram.length⟩ ∧
      (∀ i < datagram.length, buf.getD i 0 = datagram.getD i 0) ∧
      ∀ word : CStr, word.length ≤ 11 → matchesAt3 buf word = matchesAt3 datagram word := by
  have htake : datagram.take 128 = datagram := List.take_of_length_le hmax
  have hreads := dmrHomebrewRead_reads c env homebrew (some datagram)
  generalize dmrHomebrewRead c env homebrew (some datagram) = x at hreads ⊢
  cases hreads with
  | failed h =>
    obtain hno | hno := h
    · rw [hreceived] at hno
      cases hno
    · cases hno
  | frame _ _ hD _ =>
    rw [hfirst] at hD
    exact absurd hD (by decide)
  | master zeros hlen _ =>
    -- the words of a short datagram stand in the buffer as they were received
    refine ⟨datagram.take 128 ++ zeros, ?_, fun i hi => ?_, fun word hword => ?_⟩
    · rw [htake]
    · exact getD_received (by rw [htake]; exact hi) zeros
    · exact matchesAt3_received (by rw [htake]; omega) zeros
  | pong hR =>
    rw [hfirst] at hR
    exact absurd hR (by decide)
  | ignored _ hshort =>
    have := hshort hfirst
    omega

/-! ## Sessions

A session is a client with the record of its login, from which it can be told what was sent for
which nonce.
-/

/-- Which memory a call finds; what it is for is said at `HomebrewEnv`. -/
structure LoginMemory where
  duplicated : Bool
  received : Bool
  allocated : Bool
  grown : Bool
deriving DecidableEq

/-- Sending is successful, if there is something to send. -/
def LoginMemory.env (memory : LoginMemory) (clock : Nat → Timeval) (parsedOut : Bool) :
    HomebrewEnv :=
  ⟨memory.duplicated, memory.received, memory.allocated, memory.grown, [.sent], clock, parsedOut⟩

/-- What can happen to a client. -/
inductive LoginEvent where
  /-- `dmr_homebrew_auth` -/
  | auth (memory : LoginMemory) (secret : Option CStr)
  /-- `dmr_homebrew_read`, of a datagram or of an error -/
  | read (memory : LoginMemory) (recv : Option (List UInt8)) (clock : Nat → Timeval)
    (parsedOut : Bool)
  /-- `homebrew_io_ping_timer` -/
  | tick (memory : LoginMemory) (clock : Nat → Timeval)
  /-- `dmr_homebrew_close` -/
  | close (memory : LoginMemory)

/-- What is recorded of a session. -/
inductive Entry where
  /-- a call of `dmr_homebrew_auth`, and whether there was memory to copy the secret -/
  | auth (secret : Option CStr) (duplicated : Bool)
  | received (datagram : List UInt8)
  | sent (datagram : List UInt8)
deriving DecidableEq

/-- The call that an event makes, with sending successful. -/
def LoginEvent.call (c : Common) (homebrew : DmrHomebrew) : LoginEvent → Option HomebrewResult
  | .auth memory secret => dmrHomebrewAuth (memory.env (fun _ => ⟨0, 0⟩) false) homebrew secret
  | .read memory recv clock parsedOut =>
    dmrHomebrewRead c (memory.env clock parsedOut) homebrew recv
  | .tick memory clock => homebrewIoPingTimer (memory.env clock false) homebrew
  | .close memory => dmrHomebrewClose (memory.env (fun _ => ⟨0, 0⟩) false) homebrew

/-- What an event adds to the record by itself. Without memory for a datagram nothing is
received. -/
def LoginEvent.entries : LoginEvent → List Entry
  | .auth memory secret => [.auth secret memory.duplicated]
  | .read memory (some datagram) _ _ => if memory.received then [.received datagram] else []
  | _ => []

/-- A client and its record, latest entry first. -/
structure Session where
  homebrew : DmrHomebrew
  record : List Entry

def Session.start (config : DmrHomebrewConfig) : Session := ⟨.new config, []⟩

def Session.step (c : Common) (s : Session) (e : LoginEvent) : Option Session :=
  (e.call c s.homebrew).map fun r =>
    ⟨r.homebrew, (r.sent.map Entry.sent).reverse ++ e.entries ++ s.record⟩

/-! ## Messages of the master

What a datagram is to the client, as far as the record has to tell it.
-/

/-- A message of the master that has `word` at its fourth byte. -/
def isMaster (len : Nat) (word : CStr) (datagram : List UInt8) : Bool :=
  datagram.length = len ∧ datagram.getD 0 0 = 0x4d ∧ matchesAt3 datagram word

def isAck (datagram : List UInt8) : Bool := isMaster 14 ACK datagram

def isNak (datagram : List UInt8) : Bool := isMaster 14 NAK datagram

def isNonceAck (datagram : List UInt8) : Bool := isMaster 22 ACK datagram

theorem isMaster_of {len : Nat} {word : CStr} {datagram : List UInt8}
    (hlen : datagram.length = len) (hfirst : datagram.getD 0 0 = 0x4d)
    (hword : matchesAt3 datagram word = true) : isMaster len word datagram = true :=
  decide_eq_true ⟨hlen, hfirst, hword⟩

/-- The nonce that an acknowledgement carries. -/
def nonceOf (datagram : List UInt8) : Vector UInt8 8 :=
  Vector.ofFn fun i => datagram.getD (14 + i.val) 0

/-- The login starts over with a call of `dmr_homebrew_auth` that passes its checks and has
memory for the secret, and with a refusal. -/
def startsOver (id : DmrId) : Entry → Bool
  | .auth secret duplicated => secret.isSome && id ≠ 0 && duplicated
  | .received datagram => isNak datagram
  | .sent _ => false

/-! ## Moves

What a call does to a client and to the record, in few cases. That each call makes such a move is
the step lemma of this module.
-/

/-- A client that has not come further. It may have lost its secret: the old one is freed before
there is a copy of the new one. -/
structure Waits (homebrew homebrew' : DmrHomebrew) : Prop where
  config : homebrew'.config = homebrew.config
  state : homebrew'.state = homebrew.state
  secret : homebrew'.secret = none ∨ homebrew'.secret = homebrew.secret

/-- What a call can do: what it adds to the record, and the client after it. -/
inductive Move (c : Common) (homebrew : DmrHomebrew) : List Entry → DmrHomebrew → Prop where
  | auth (secret : CStr) {greeting : List Entry} (hid : homebrew.config.repeaterId ≠ 0)
    (hgreeting : greeting = [] ∨
      greeting = [.sent (RPTL ++ numberField homebrew.config.repeaterId)]) :
    Move c homebrew (greeting ++ [.auth (some secret) true])
      { homebrew with secret := some secret, state := .authNone }
  | nak {datagram : List UInt8} (h : isNak datagram = true) :
    Move c homebrew [.received datagram] { homebrew with state := .authNone }
  | key {datagram : List UInt8} {secret : CStr} (h : isNonceAck datagram = true)
    (hstate : homebrew.state = .authNone) (hsecret : homebrew.secret = some secret) :
    Move c homebrew
      [.sent (keyDatagram c homebrew.config.repeaterId (nonceOf datagram).toList secret),
        .received datagram]
      { homebrew with nonce := nonceOf datagram, state := .authInit }
  | config {datagram : List UInt8} (h : isAck datagram = true)
    (hstate : homebrew.state = .authInit) :
    Move c homebrew [.sent (configDatagram c homebrew.config), .received datagram]
      { homebrew with state := .authConfig }
  | done {datagram : List UInt8} {ping pong : Timeval} (h : isAck datagram = true)
    (hstate : homebrew.state = .authConfig) :
    Move c homebrew [.received datagram]
      { homebrew with lastPing := ping, lastPong := pong, state := .authDone }
  | ping {now : Timeval} (hstate : homebrew.state = .authDone) :
    Move c homebrew [.sent (MSTPING ++ numberField homebrew.config.repeaterId)]
      { homebrew with lastPing := now }
  | close (hstate : homebrew.state ≠ .authNone) :
    Move c homebrew [.sent (RPTC ++ numberField homebrew.config.repeaterId)] homebrew
  | idle {entries : List Entry} {homebrew' : DmrHomebrew}
    (h : ∀ e ∈ entries, startsOver homebrew.config.repeaterId e = false ∧ ∀ d, e ≠ .sent d)
    (hwaits : Waits homebrew homebrew') : Move c homebrew entries homebrew'

/-- One entry that neither starts anything nor is sent. -/
theorem Move.single {c : Common} {homebrew homebrew' : DmrHomebrew} {e : Entry}
    (hstart : startsOver homebrew.config.repeaterId e = false) (hsent : ∀ d, e ≠ .sent d)
    (hwaits : Waits homebrew homebrew') : Move c homebrew [e] homebrew' := by
  refine .idle (fun e' he' => ?_) hwaits
  obtain rfl := List.mem_singleton.mp he'
  exact ⟨hstart, hsent⟩

/-- A datagram that is not answered. -/
theorem Move.ignore {c : Common} {homebrew homebrew' : DmrHomebrew} {datagram : List UInt8}
    (h : isNak datagram = false) (hwaits : Waits homebrew homebrew') :
    Move c homebrew [.received datagram] homebrew' :=
  .single h (fun _ hd => nomatch hd) hwaits

/-- A call that neither sends nor receives. -/
theorem Move.nothing (c : Common) (homebrew : DmrHomebrew) : Move c homebrew [] homebrew :=
  .idle (fun _ he => absurd he List.not_mem_nil) ⟨rfl, rfl, .inr rfl⟩

/-- A word has one spelling. -/
theorem not_isNak_of_isAck {datagram : List UInt8} (h : matchesAt3 datagram ACK = true) :
    isNak datagram = false := by
  have hack : (datagram.drop 3).take 3 = ACK := of_decide_eq_true h
  have hnak : matchesAt3 datagram NAK = false := by
    refine decide_eq_false ?_
    show ¬ (datagram.drop 3).take 3 = NAK
    rw [hack]
    decide
  simp [isNak, isMaster, hnak]

section Calls

variable {c : Common} {env : HomebrewEnv} {homebrew : DmrHomebrew} {r : HomebrewResult}

theorem homebrewSendConfig_move (hsends : env.sends = [.sent]) {datagram : List UInt8}
    (hack : isAck datagram = true) (hstate : homebrew.state = .authInit)
    (h : homebrewSendConfig c env homebrew = some r) :
    Move c homebrew ((r.sent.map Entry.sent).reverse ++ [.received datagram]) r.homebrew := by
  cases halloc : env.allocated with
  | false =>
    simp only [homebrewSendConfig, halloc, dmrRawNew_false, Option.some.injEq] at h
    subst h
    exact .ignore (not_isNak_of_isAck (of_decide_eq_true hack).2.2) ⟨rfl, rfl, .inr rfl⟩
  | true =>
    rw [homebrewSendConfig_sending c halloc hsends] at h
    cases h
    exact .config hack hstate

/-- The nonce is stored also where there is no memory for the reply. -/
theorem homebrewSendKey_move (hsends : env.sends = [.sent]) {datagram : List UInt8}
    (hack : isNonceAck datagram = true) (hstate : homebrew.state = .authNone)
    (h : homebrewSendKey c env { homebrew with nonce := nonceOf datagram } = some r) :
    Move c homebrew ((r.sent.map Entry.sent).reverse ++ [.received datagram]) r.homebrew := by
  cases halloc : env.allocated with
  | false =>
    simp only [homebrewSendKey, halloc, dmrRawNew_false, Option.some.injEq] at h
    subst h
    exact .ignore (not_isNak_of_isAck (of_decide_eq_true hack).2.2) ⟨rfl, rfl, .inr rfl⟩
  | true =>
    rw [homebrewSendKey_sending c halloc hsends] at h
    obtain ⟨secret, hsecret, rfl⟩ := Option.map_eq_some_iff.mp h
    exact .key hack hstate hsecret

theorem readMaster_move (hsends : env.sends = [.sent]) {datagram zeros : List UInt8}
    (hlen : 14 ≤ (datagram.take 128).length) (hfirst : datagram.getD 0 0 = 0x4d)
    (h : readMaster c env homebrew
      ⟨datagram.take 128 ++ zeros, (datagram.take 128).length⟩ = some r) :
    Move c homebrew ((r.sent.map Entry.sent).reverse ++ [.received datagram]) r.homebrew := by
  have hack : matchesAt3 (datagram.take 128 ++ zeros) ACK = matchesAt3 datagram ACK :=
    matchesAt3_received (show 3 + 3 ≤ _ by omega) zeros
  have hnak : matchesAt3 (datagram.take 128 ++ zeros) NAK = matchesAt3 datagram NAK :=
    matchesAt3_received (show 3 + 3 ≤ _ by omega) zeros
  have htake := List.length_take (i := 128) (l := datagram)
  have hsame : Waits homebrew homebrew := ⟨rfl, rfl, .inr rfl⟩
  unfold readMaster at h
  simp only [hack, hnak] at h
  -- the branches of the source: an ACK, a NAK, a nonce, and what is ignored
  split_ifs at h with h14 hisack hisnak h22
  · have hisAck : isAck datagram = true := isMaster_of (by omega) hfirst hisack
    unfold readAck at h
    split at h
    · next hstate => exact homebrewSendConfig_move hsends hisAck hstate h
    · next hstate =>
      cases h
      exact .done hisAck hstate
    · cases h
      exact .ignore (not_isNak_of_isAck hisack) hsame
  · cases h
    exact .nak (isMaster_of (by omega) hfirst hisnak)
  · cases h
    refine .ignore ?_ hsame
    simp [isNak, isMaster, hisnak]
  · obtain ⟨hlen22, hisack, hstate⟩ := h22
    have hnonce : (Vector.ofFn fun i : Fin 8 =>
        (datagram.take 128 ++ zeros).getD (14 + i.val) 0) = nonceOf datagram := by
      refine Vector.ext fun i hi => ?_
      rw [Vector.getElem_ofFn, nonceOf, Vector.getElem_ofFn]
      exact getD_received (by simp only; omega) zeros
    rw [hnonce] at h
    exact homebrewSendKey_move hsends (isMaster_of (by omega) hfirst hisack) hstate h
  · cases h
    refine .ignore ?_ hsame
    have hne : datagram.length ≠ 14 := by
      intro heq
      exact h14 (by omega)
    simp [isNak, isMaster, hne]

theorem dmrHomebrewRead_move (hsends : env.sends = [.sent]) (hreceived : env.received = true)
    {datagram : List UInt8} (h : dmrHomebrewRead c env homebrew (some datagram) = some r) :
    Move c homebrew ((r.sent.map Entry.sent).reverse ++ [.received datagram]) r.homebrew := by
  -- only a message of the master can be a refusal
  have hother : datagram.getD 0 0 ≠ 0x4d → isNak datagram = false := by
    intro hne
    refine decide_eq_false ?_
    rintro ⟨-, hfirst, -⟩
    exact hne hfirst
  have hreads := dmrHomebrewRead_reads c env homebrew (some datagram)
  generalize dmrHomebrewRead c env homebrew (some datagram) = x at h hreads
  cases hreads with
  | failed hno =>
    obtain hno | hno := hno
    · exact absurd (hno.symm.trans hreceived) Bool.false_ne_true
    · cases hno
  | frame _ _ hfirst _ =>
    cases h
    exact .ignore (hother (by rw [hfirst]; decide)) ⟨rfl, rfl, .inr rfl⟩
  | master zeros hlen hfirst => exact readMaster_move hsends hlen hfirst h
  | pong hfirst =>
    cases h
    exact .ignore (hother (by rw [hfirst]; decide)) ⟨rfl, rfl, .inr rfl⟩
  | ignored _ hmaster =>
    cases h
    refine .ignore (decide_eq_false ?_) ⟨rfl, rfl, .inr rfl⟩
    rintro ⟨hlen, hfirst, -⟩
    have := hmaster hfirst
    omega

/-- Nothing is received where there is no memory for it. -/
theorem dmrHomebrewRead_noMemory (hreceived : env.received = false) (recv : Option (List UInt8)) :
    dmrHomebrewRead c env homebrew recv = some ⟨-1, homebrew, [], none⟩ := by
  simp only [dmrHomebrewRead, hreceived, dmrRawNew_false]

theorem dmrHomebrewAuth_move (hsends : env.sends = [.sent]) {secret : Option CStr}
    (h : dmrHomebrewAuth env homebrew secret = some r) :
    Move c homebrew ((r.sent.map Entry.sent).reverse ++ [.auth secret env.duplicated])
      r.homebrew := by
  cases secret with
  | none =>
    cases h
    exact .single rfl (fun _ hd => nomatch hd) ⟨rfl, rfl, .inr rfl⟩
  | some secret =>
    by_cases hid : homebrew.config.repeaterId = 0
    · rw [dmrHomebrewAuth, if_pos hid] at h
      cases h
      exact .single (by simp [startsOver, hid]) (fun _ hd => nomatch hd) ⟨rfl, rfl, .inr rfl⟩
    -- without the copy of the secret the state is not reset
    · cases hduplicated : env.duplicated with
      | false =>
        rw [dmrHomebrewAuth, if_neg hid, if_pos hduplicated] at h
        cases h
        exact .single (Bool.and_false _) (fun _ hd => nomatch hd) ⟨rfl, rfl, .inl rfl⟩
      | true =>
        -- the state is reset before the buffer for `RPTL` is asked for
        cases halloc : env.allocated with
        | false =>
          have hnot : ¬ env.duplicated = false := Bool.not_eq_false _ ▸ hduplicated
          simp only [dmrHomebrewAuth, if_neg hid, if_neg hnot, halloc, dmrRawNew_false,
            Option.some.injEq] at h
          subst h
          exact .auth secret hid (.inl rfl)
        | true =>
          rw [dmrHomebrewAuth_sending halloc hsends homebrew secret hid hduplicated] at h
          cases h
          exact .auth secret hid (.inr rfl)

theorem homebrewIoPingTimer_move (hsends : env.sends = [.sent])
    (h : homebrewIoPingTimer env homebrew = some r) :
    Move c homebrew ((r.sent.map Entry.sent).reverse ++ []) r.homebrew := by
  by_cases hstate : homebrew.state = .authDone
  · by_cases hpong : dmrTimeSince (env.clock 0) homebrew.lastPong > 10
    · rw [homebrewIoPingTimer, if_neg (not_not.mpr hstate), if_pos hpong] at h
      cases h
      exact .nothing c homebrew
    · cases halloc : env.allocated with
      | false =>
        simp only [homebrewIoPingTimer, if_neg (not_not.mpr hstate), if_neg hpong, halloc,
          dmrRawNew_false, Option.some.injEq] at h
        subst h
        exact .nothing c homebrew
      | true =>
        rw [homebrewIoPingTimer_sending halloc hsends _ hstate hpong] at h
        cases h
        exact .ping hstate
  · rw [homebrewIoPingTimer, if_pos hstate] at h
    cases h
    exact .nothing c homebrew

theorem dmrHomebrewClose_move (hsends : env.sends = [.sent])
    (h : dmrHomebrewClose env homebrew = some r) :
    Move c homebrew ((r.sent.map Entry.sent).reverse ++ []) r.homebrew := by
  by_cases hstate : homebrew.state = .authNone
  · rw [dmrHomebrewClose, if_pos hstate] at h
    cases h
    exact .nothing c homebrew
  · cases halloc : env.allocated with
    | false =>
      simp only [dmrHomebrewClose, if_neg hstate, halloc, dmrRawNew_false, Option.some.injEq] at h
      subst h
      exact .nothing c homebrew
    | true =>
      rw [dmrHomebrewClose_sending halloc hsends _ hstate] at h
      cases h
      exact .close hstate

/-- Every call is one of the moves. -/
theorem call_move {e : LoginEvent} (h : e.call c homebrew = some r) :
    Move c homebrew ((r.sent.map Entry.sent).reverse ++ e.entries) r.homebrew := by
  cases e with
  | auth memory secret => exact dmrHomebrewAuth_move rfl h
  | read memory recv clock parsedOut =>
    rw [LoginEvent.call] at h
    cases hreceived : memory.received with
    | false =>
      rw [dmrHomebrewRead_noMemory hreceived] at h
      cases h
      have hentries : (LoginEvent.read memory recv clock parsedOut).entries = [] := by
        cases recv with
        | none => rfl
        | some datagram =>
          rw [LoginEvent.entries, if_neg]
          rw [hreceived]
          exact Bool.false_ne_true
      rw [hentries]
      exact .nothing c homebrew
    | true =>
      cases recv with
      | none =>
        have hfailed := dmrHomebrewRead_reads c (memory.env clock parsedOut) homebrew none
        rw [h] at hfailed
        cases hfailed
        exact .nothing c homebrew
      | some datagram =>
        rw [LoginEvent.entries, if_pos hreceived]
        exact dmrHomebrewRead_move rfl hreceived h
  | tick memory clock => exact homebrewIoPingTimer_move rfl h
  | close memory => exact dmrHomebrewClose_move rfl h

end Calls

/-! ## The record since the last start

A start is what resets a client; what came before it is of no account.
-/

/-- The entries since the login last started over. -/
def sinceStart (restarts : Entry → Bool) (record : List Entry) : List Entry :=
  record.takeWhile fun e => !restarts e

/-- The entry is a datagram that was sent, and `p` holds of it. -/
def sends (p : List UInt8 → Bool) : Entry → Bool
  | .sent datagram => p datagram
  | _ => false

def isKey (datagram : List UInt8) : Bool := datagram.take 4 = RPTK

def isRptc (datagram : List UInt8) : Bool := datagram.take 4 = RPTC

/-- The configuration is the long `RPTC`. -/
def isConfig (datagram : List UInt8) : Bool := isRptc datagram && datagram.length = 306

def isPing (datagram : List UInt8) : Bool := datagram.take 7 = MSTPING

/-- The hexadecimal digest in a key. -/
def keyDigest (datagram : List UInt8) : List UInt8 := (datagram.drop 12).take 64

/-- The secret of the last call of `dmr_homebrew_auth` that started over. -/
def lastSecret (id : DmrId) (record : List Entry) : Option CStr :=
  record.findSome? fun
    | .auth secret duplicated => if id = 0 ∨ duplicated = false then none else secret
    | _ => none

/-- The login of a record is complete: since the last start, the master has sent a nonce
and two acknowledgements, in this order; one key was sent, with the digest of that nonce
and the last secret; and since the key one datagram that `config` knows. -/
def LoginComplete (c : Common) (id : DmrId) (restarts : Entry → Bool)
    (config : List UInt8 → Bool) (record : List Entry) : Prop :=
  (∃ e ∈ record, restarts e = true) ∧
    ∃ nonceAck ack ack' secret key,
      isNonceAck nonceAck = true ∧ isAck ack = true ∧ isAck ack' = true ∧
      [.received ack', .received ack, .received nonceAck].Sublist (sinceStart restarts record) ∧
      lastSecret id record = some secret ∧
      (sinceStart restarts record).filter (sends isKey) = [.sent key] ∧
      keyDigest key = hexBytes c.bhex (c.sha256 ((nonceOf nonceAck).toList ++ secret)).toList ∧
      ((sinceStart restarts record).takeWhile fun e => !sends isKey e).countP (sends config) = 1

/-! ## Progress

The states of a login, each with what must stand in the record when a client is in it.
-/

/-- An entry that is no part of a login. -/
structure Aside (id : DmrId) (e : Entry) : Prop where
  restarts : startsOver id e = false
  key : sends isKey e = false
  config : sends isConfig e = false

/-- How far a login has come, read off the record since its start. -/
inductive Progress (c : Common) (config : DmrHomebrewConfig) (secret : Option CStr) :
    DmrHomebrewState → List Entry → Prop where
  | start : Progress c config secret .authNone []
  | key {record : List Entry} {nonceAck secret' : List UInt8}
    (h : Progress c config secret .authNone record) (hack : isNonceAck nonceAck = true)
    (hsecret : secret = some secret') :
    Progress c config secret .authInit
      (.sent (keyDatagram c config.repeaterId (nonceOf nonceAck).toList secret') ::
        .received nonceAck :: record)
  | config {record : List Entry} {ack : List UInt8}
    (h : Progress c config secret .authInit record) (hack : isAck ack = true) :
    Progress c config secret .authConfig
      (.sent (configDatagram c config) :: .received ack :: record)
  | done {record : List Entry} {ack : List UInt8}
    (h : Progress c config secret .authConfig record) (hack : isAck ack = true) :
    Progress c config secret .authDone (.received ack :: record)
  | aside {state : DmrHomebrewState} {record : List Entry} {e : Entry}
    (h : Progress c config secret state record) (he : Aside config.repeaterId e) :
    Progress c config secret state (e :: record)

/-- What a record shows of a login that has been answered with `acks`, latest first,
after its nonce. -/
def Shows (c : Common) (id : DmrId) (secret : Option CStr) (acks : List (List UInt8))
    (configs : Nat) (record : List Entry) : Prop :=
  ∃ nonceAck secret', secret = some secret' ∧ isNonceAck nonceAck = true ∧
    (∀ ack ∈ acks, isAck ack = true) ∧
    (acks.map Entry.received ++ [Entry.received nonceAck]).Sublist record ∧
    record.filter (sends isKey) =
      [.sent (keyDatagram c id (nonceOf nonceAck).toList secret')] ∧
    (record.takeWhile fun e => !sends isKey e).countP (sends isConfig) = configs

theorem isConfig_configDatagram (c : Common) (config : DmrHomebrewConfig) :
    isConfig (configDatagram c config) = true := by
  have hwidths : (configFields c config).map Prod.fst =
      [8, 8, 9, 9, 2, 2, 8, 9, 3, 20, 20, 124, 40, 40] := rfl
  have hlen : (configDatagram c config).length = 306 := by
    simp only [configDatagram, List.length_append, List.length_flatMap, length_fixedField]
    show 4 + ((configFields c config).map Prod.fst).sum = 306
    rw [hwidths]
    rfl
  rw [isConfig, hlen]
  rfl

theorem keyDigest_keyDatagram (c : Common) (id : DmrId) (nonce secret : List UInt8) :
    keyDigest (keyDatagram c id nonce secret) =
      hexBytes c.bhex (c.sha256 (nonce ++ secret)).toList := by
  have hhead : (RPTK ++ numberField id).length = 12 := by
    rw [List.length_append, numberField, length_fixedField]
    rfl
  have hdigest : (hexBytes c.bhex (c.sha256 (nonce ++ secret)).toList).length = 64 := by
    rw [length_hexBytes, Vector.length_toList]
  rw [keyDigest, keyDatagram, List.append_assoc (RPTK ++ numberField id), List.drop_left' hhead,
    List.take_left' hdigest]

theorem Shows.aside {c : Common} {id : DmrId} {secret : Option CStr}
    {acks : List (List UInt8)} {configs : Nat} {record : List Entry} {e : Entry}
    (h : Shows c id secret acks configs record) (he : Aside id e) :
    Shows c id secret acks configs (e :: record) := by
  obtain ⟨nonceAck, secret', hsecret, hnonce, hacks, hsub, hkeys, hconfigs⟩ := h
  refine ⟨nonceAck, secret', hsecret, hnonce, hacks, hsub.cons e, ?_, ?_⟩
  · rwa [List.filter_cons_of_neg (by simp [he.key])]
  · rwa [List.takeWhile_cons_of_pos (by simp [he.key]),
      List.countP_cons_of_neg (by simp [he.config])]

/-- A received datagram is aside from what is sent. -/
theorem Shows.ack {c : Common} {id : DmrId} {secret : Option CStr}
    {acks : List (List UInt8)} {configs : Nat} {record : List Entry} {ack : List UInt8}
    (h : Shows c id secret acks configs record) (hack : isAck ack = true) :
    Shows c id secret (ack :: acks) configs (.received ack :: record) := by
  obtain ⟨nonceAck, secret', hsecret, hnonce, hacks, hsub, hkeys, hconfigs⟩ := h
  refine ⟨nonceAck, secret', hsecret, hnonce, ?_, hsub.cons_cons _, hkeys, hconfigs⟩
  intro a ha
  rcases List.mem_cons.mp ha with rfl | ha
  · exact hack
  · exact hacks a ha

theorem Progress.shows {c : Common} {config : DmrHomebrewConfig} {secret : Option CStr}
    {state : DmrHomebrewState} {record : List Entry} (h : Progress c config secret state record) :
    match state with
    | .authNone => record.filter (sends isKey) = []
    | .authInit => Shows c config.repeaterId secret [] 0 record
    | .authConfig => ∃ ack, Shows c config.repeaterId secret [ack] 1 record
    | .authDone => ∃ ack ack', Shows c config.repeaterId secret [ack', ack] 1 record
    | .authFailed => False := by
  -- on the entries since the login started; only the latest one is looked at
  induction h with
  | start => rfl
  | @key record nonceAck secret' h hack hsecret ih =>
    refine ⟨nonceAck, secret', hsecret, hack, fun ack hack => absurd hack List.not_mem_nil, ?_,
      ?_, rfl⟩
    · exact ((List.nil_sublist _).cons_cons _).cons _
    · show .sent _ :: record.filter (sends isKey) = _
      rw [ih]
  | @config record ack h hack ih =>
    obtain ⟨nonceAck, secret', hsecret, hnonce, hacks, hsub, hkeys, hconfigs⟩ := ih.ack hack
    refine ⟨ack, nonceAck, secret', hsecret, hnonce, hacks, hsub.cons _, hkeys, ?_⟩
    have hnot : sends isKey (.sent (configDatagram c config)) = false := rfl
    rw [List.takeWhile_cons_of_pos (by simp [hnot]), List.countP_cons_of_pos, hconfigs]
    exact isConfig_configDatagram c config
  | @done record ack h hack ih =>
    obtain ⟨ack', hshows⟩ := ih
    exact ⟨ack', ack, hshows.ack hack⟩
  | @aside state record e h he ih =>
    cases state with
    | authNone =>
      show (e :: record).filter (sends isKey) = []
      rwa [List.filter_cons_of_neg (by simp [he.key])]
    | authInit => exact Shows.aside ih he
    | authConfig =>
      obtain ⟨ack, hshows⟩ := ih
      exact ⟨ack, hshows.aside he⟩
    | authDone =>
      obtain ⟨ack, ack', hshows⟩ := ih
      exact ⟨ack, ack', hshows.aside he⟩
    | authFailed => exact ih

/-! ## Every session

The invariant is kept by every event, so a client that is logged in has gone through all of
it.
-/

section SinceStart

variable {restarts : Entry → Bool} {e : Entry} (record : List Entry)

theorem sinceStart_of_restart (h : restarts e = true) : sinceStart restarts (e :: record) = [] :=
  List.takeWhile_cons_of_neg (by simp [h])

theorem sinceStart_of_not_restart (h : restarts e = false) :
    sinceStart restarts (e :: record) = e :: sinceStart restarts record :=
  List.takeWhile_cons_of_pos (by simp [h])

end SinceStart

theorem lastSecret_started {id : DmrId} {record : List Entry} {secret : CStr}
    (h : lastSecret id record = some secret) : ∃ e ∈ record, startsOver id e = true := by
  obtain ⟨e, he, hsecret⟩ := List.exists_of_findSome?_eq_some h
  refine ⟨e, he, ?_⟩
  cases e with
  | auth secret' duplicated =>
    by_cases hno : id = 0 ∨ duplicated = false
    · simp [hno] at hsecret
    · simp only [hno, if_false] at hsecret
      rw [not_or, Bool.not_eq_false] at hno
      simp [startsOver, hsecret, hno.1, hno.2]
  | received datagram => cases hsecret
  | sent datagram => cases hsecret

theorem lastSecret_of_not_start {id : DmrId} {e : Entry} (record : List Entry)
    (h : startsOver id e = false) : lastSecret id (e :: record) = lastSecret id record := by
  cases e with
  | auth secret duplicated =>
    cases secret with
    | none => simp [lastSecret]
    | some secret =>
      have hno : id = 0 ∨ duplicated = false := by
        by_cases hid : id = 0
        · exact .inl hid
        · exact .inr (by simpa [startsOver, hid] using h)
      simp [lastSecret, hno]
  | received datagram => rfl
  | sent datagram => rfl

/-- An acknowledgement is no refusal. -/
theorem startsOver_of_ack {id : DmrId} {len : Nat} {datagram : List UInt8}
    (h : isMaster len ACK datagram = true) : startsOver id (.received datagram) = false := by
  obtain ⟨-, -, hack⟩ := of_decide_eq_true h
  exact not_isNak_of_isAck hack

/-- What ties the record of a session to its client. A secret that is there is the last one. -/
structure LoginInv (c : Common) (config : DmrHomebrewConfig) (s : Session) : Prop where
  configured : s.homebrew.config = config
  secret : s.homebrew.secret = none ∨ s.homebrew.secret = lastSecret config.repeaterId s.record
  progress : Progress c config (lastSecret config.repeaterId s.record) s.homebrew.state
    (sinceStart (startsOver config.repeaterId) s.record)

/-- An entry that starts nothing and is no part of a login changes nothing. -/
theorem LoginInv.cons {c : Common} {config : DmrHomebrewConfig} {homebrew : DmrHomebrew}
    {record : List Entry} {e : Entry} (hinv : LoginInv c config ⟨homebrew, record⟩)
    (he : Aside config.repeaterId e) : LoginInv c config ⟨homebrew, e :: record⟩ := by
  obtain ⟨hconfig, hsecret, hprogress⟩ := hinv
  have hlast := lastSecret_of_not_start record he.restarts
  refine ⟨hconfig, ?_, ?_⟩
  · show homebrew.secret = none ∨ homebrew.secret = lastSecret config.repeaterId (e :: record)
    rwa [hlast]
  · show Progress _ _ (lastSecret _ (e :: record)) _ (sinceStart _ (e :: record))
    rw [hlast, sinceStart_of_not_restart _ he.restarts]
    exact .aside hprogress he

/-- Entries that start nothing and send nothing change nothing. -/
theorem LoginInv.idle {c : Common} {config : DmrHomebrewConfig} {homebrew : DmrHomebrew}
    {record entries : List Entry} (hinv : LoginInv c config ⟨homebrew, record⟩)
    (h : ∀ e ∈ entries, startsOver config.repeaterId e = false ∧ ∀ d, e ≠ .sent d) :
    LoginInv c config ⟨homebrew, entries ++ record⟩ := by
  induction entries with
  | nil => exact hinv
  | cons e entries ih =>
    obtain ⟨hstart, hsent⟩ := h e List.mem_cons_self
    have hnot : ∀ p, sends p e = false := by
      intro p
      cases e with
      | sent d => exact absurd rfl (hsent d)
      | _ => rfl
    exact (ih fun e he => h e (List.mem_cons_of_mem _ he)).cons ⟨hstart, hnot _, hnot _⟩

/-- A client that waits is as far as it was. -/
theorem LoginInv.waits {c : Common} {config : DmrHomebrewConfig}
    {homebrew homebrew' : DmrHomebrew} {record : List Entry}
    (hinv : LoginInv c config ⟨homebrew, record⟩) (hwaits : Waits homebrew homebrew') :
    LoginInv c config ⟨homebrew', record⟩ := by
  obtain ⟨hconfig, hsecret, hprogress⟩ := hinv
  refine ⟨hwaits.config.trans hconfig, ?_, ?_⟩
  · obtain hnone | hsame := hwaits.secret
    · exact .inl hnone
    · exact hsecret.imp hsame.trans hsame.trans
  · show Progress _ _ _ homebrew'.state _
    rw [hwaits.state]
    exact hprogress

/-- A call that starts over. -/
theorem LoginInv.auth (c : Common) {homebrew : DmrHomebrew} (record : List Entry)
    (secret : CStr) (hid : homebrew.config.repeaterId ≠ 0) :
    LoginInv c homebrew.config
      ⟨{ homebrew with secret := some secret, state := .authNone },
        .auth (some secret) true :: record⟩ := by
  have hlast : lastSecret homebrew.config.repeaterId (.auth (some secret) true :: record) =
      some secret := by
    simp [lastSecret, hid]
  have hstart : startsOver homebrew.config.repeaterId (.auth (some secret) true) = true := by
    simp [startsOver, hid]
  refine ⟨rfl, .inr hlast.symm, ?_⟩
  show Progress _ _ _ _ (sinceStart _ (.auth (some secret) true :: record))
  rw [sinceStart_of_restart _ hstart]
  exact .start

theorem LoginInv.move {c : Common} {config : DmrHomebrewConfig} {homebrew homebrew' : DmrHomebrew}
    {record added : List Entry} (hinv : LoginInv c config ⟨homebrew, record⟩)
    (hmove : Move c homebrew added homebrew') :
    LoginInv c config ⟨homebrew', added ++ record⟩ := by
  obtain ⟨rfl, hsecret, hprogress⟩ := hinv
  simp only at hsecret hprogress
  -- only a new secret and a refusal make the record since the start shorter
  cases hmove with
  | auth secret hid hgreeting =>
    have hauth := LoginInv.auth c record secret hid
    obtain rfl | rfl := hgreeting
    · exact hauth
    · exact hauth.cons ⟨rfl, rfl, rfl⟩
  | nak h =>
    refine ⟨rfl, hsecret, ?_⟩
    show Progress _ _ _ _ (sinceStart _ (.received _ :: record))
    rw [sinceStart_of_restart _ h]
    exact .start
  | key h hstate hsome =>
    refine ⟨rfl, hsecret, ?_⟩
    have hlast := hsecret.resolve_left (by rw [hsome]; exact Option.some_ne_none _)
    show Progress _ _ _ _ (sinceStart _ (.sent _ :: .received _ :: record))
    rw [sinceStart_of_not_restart _ rfl, sinceStart_of_not_restart _ (startsOver_of_ack h)]
    rw [hstate] at hprogress
    exact .key hprogress h (hlast.symm.trans hsome)
  | config h hstate =>
    refine ⟨rfl, hsecret, ?_⟩
    show Progress _ _ _ _ (sinceStart _ (.sent _ :: .received _ :: record))
    rw [sinceStart_of_not_restart _ rfl, sinceStart_of_not_restart _ (startsOver_of_ack h)]
    rw [hstate] at hprogress
    exact .config hprogress h
  | done h hstate =>
    refine ⟨rfl, hsecret, ?_⟩
    show Progress _ _ _ _ (sinceStart _ (.received _ :: record))
    rw [sinceStart_of_not_restart _ (startsOver_of_ack h)]
    rw [hstate] at hprogress
    exact .done hprogress h
  | ping hstate =>
    have hsame : LoginInv c _ ⟨homebrew, record⟩ := ⟨rfl, hsecret, hprogress⟩
    exact (hsame.cons ⟨rfl, rfl, rfl⟩).waits ⟨rfl, rfl, .inr rfl⟩
  | close hstate =>
    have hconfig : isConfig (RPTC ++ numberField homebrew.config.repeaterId) = false := by
      simp [isConfig, numberField]
    exact LoginInv.cons ⟨rfl, hsecret, hprogress⟩ ⟨rfl, rfl, hconfig⟩
  | idle h hwaits =>
    exact (LoginInv.idle ⟨rfl, hsecret, hprogress⟩ h).waits hwaits

/-- Only a client that is logged in pings. -/
theorem Move.ping_done {c : Common} {homebrew homebrew' : DmrHomebrew} {added : List Entry}
    (hmove : Move c homebrew added homebrew') {datagram : List UInt8}
    (hsent : .sent datagram ∈ added) (hping : isPing datagram = true) :
    homebrew.state = .authDone := by
  cases hmove with
  | ping hstate => exact hstate
  | idle h hwaits => exact absurd rfl ((h _ hsent).2 datagram)
  | auth _ hid hgreeting =>
    obtain rfl | rfl := hgreeting
    · simp at hsent
    · simp only [List.cons_append, List.nil_append, List.mem_cons, List.not_mem_nil, or_false,
        Entry.sent.injEq, reduceCtorEq] at hsent
      subst hsent
      exact absurd hping Bool.false_ne_true
  | nak h | done h hstate => simp at hsent
  | key h hstate hsecret | config h hstate | close hstate =>
    simp only [List.mem_cons, List.not_mem_nil, or_false, Entry.sent.injEq, reduceCtorEq] at hsent
    subst hsent
    exact absurd hping Bool.false_ne_true

/-- What the login of a session promises of a step: pings go out from logged-in clients
only, and a client that is logged in after the step has a complete login on record. -/
def LoginSafe (c : Common) (id : DmrId) (restarts : Entry → Bool) (config : List UInt8 → Bool)
    (s : Session) (e : LoginEvent) : Prop :=
  (∀ r, e.call c s.homebrew = some r → ∀ datagram ∈ r.sent, isPing datagram = true →
      s.homebrew.state = .authDone) ∧
    ∀ s', s.step c e = some s' →
      s'.homebrew.state = .authDone → LoginComplete c id restarts config s'.record

/-- A record that has come all the way shows a complete login. -/
theorem LoginInv.complete {c : Common} {config : DmrHomebrewConfig} {s : Session}
    (hinv : LoginInv c config s) (hdone : s.homebrew.state = .authDone) :
    LoginComplete c config.repeaterId (startsOver config.repeaterId) isConfig s.record := by
  have hprogress := hinv.progress
  rw [hdone] at hprogress
  obtain ⟨ack, ack', nonceAck, secret, hsecret, hnonce, hacks, hsub, hkeys, hconfigs⟩ :=
    hprogress.shows
  refine ⟨lastSecret_started hsecret, nonceAck, ack, ack', secret, _, hnonce, ?_, ?_, hsub, hsecret,
    hkeys, keyDigest_keyDatagram _ _ _ _, hconfigs⟩
  · exact hacks ack (List.mem_cons_of_mem _ List.mem_cons_self)
  · exact hacks ack' List.mem_cons_self

/-- **Login.** In every session, whatever the master sends: a client is logged in only if,
since it last started over, it was sent a nonce and two acknowledgements, sent one key,
with the digest of that nonce and its secret, and after it one configuration; and only
such a client pings. -/
theorem throughout_loginSafe (c : Common) (config : DmrHomebrewConfig) (es : List LoginEvent) :
    Throughout (Session.step c)
      (LoginSafe c config.repeaterId (startsOver config.repeaterId) isConfig)
      (Session.start config) es := by
  have hstep : ∀ s e s', LoginInv c config s → s.step c e = some s' → LoginInv c config s' := by
    intro s e s' hinv hs'
    obtain ⟨r, hr, rfl⟩ := Option.map_eq_some_iff.mp hs'
    exact hinv.move (call_move hr)
  have hstart : LoginInv c config (Session.start config) := ⟨rfl, .inl rfl, .start⟩
  refine Throughout.of_inv (I := LoginInv c config) ?_ hstep hstart es
  intro s e hinv
  refine ⟨?_, ?_⟩
  · intro r hr datagram hsent hping
    refine (call_move hr).ping_done ?_ hping
    exact List.mem_append_left _ (List.mem_reverse.mpr (List.mem_map_of_mem hsent))
  · intro s' hs' hdone
    exact (hstep s e s' hinv hs').complete hdone

/-- At the end of a safe session a client that is logged in has a complete login on
record. -/
theorem loginComplete_after {c : Common} {id : DmrId} {restarts : Entry → Bool}
    {config : List UInt8 → Bool} {s t : Session} {e : LoginEvent} {es : List LoginEvent}
    (h : Throughout (Session.step c) (LoginSafe c id restarts config) s (e :: es))
    (ht : after (Session.step c) s (e :: es) = some t) (hdone : t.homebrew.state = .authDone) :
    LoginComplete c id restarts config t.record := by
  revert hdone
  refine Throughout.after (Q := fun t => t.homebrew.state = .authDone →
    LoginComplete c id restarts config t.record) ?_ ht
  exact Throughout.mono (I := fun _ => True) (fun s e _ hP => hP.2) (fun _ _ _ _ _ _ => trivial)
    trivial h

/-- A session that is closed between its key and its configuration is logged in after
two `RPTC`s; and a client stays logged in when `dmr_homebrew_auth` refuses to start over
without a secret, or cannot copy it. -/
theorem not_loginSafe_close :
    let c : Common :=
      { bhex := fun d => if d < 10 then 0x30 + d else 0x57 + d
        sha256 := fun _ =>
          #v[0x0e, 0xfe, 0x04, 0xf7, 0xed, 0x75, 0xf7, 0xa1, 0xb7, 0x31, 0xda, 0x1d, 0x07, 0x50,
            0x0f, 0xc1, 0x77, 0x53, 0x19, 0x5b, 0x50, 0xbb, 0x54, 0x72, 0x73, 0x8b, 0x06, 0x23,
            0x83, 0x65, 0xb1, 0x04]
        uint24 := fun b => (b.toList.headD 0).toUInt32
        uint32 := fun b => (b.toList.headD 0).toUInt32
        formatDouble := fun width _ => formatNat 10 (width - 5) 0 ++ [0x2e, 0x30, 0x30, 0x30, 0x30]
        formatNull := []
        softwareId := []
        packageId := [] }
    let config : DmrHomebrewConfig :=
      ⟨some [], 1, 0, 0, 0, 1, 0, 0, 0, some [], some [], some [], some [], some []⟩
    let restarts : Entry → Bool := fun
      | .auth _ _ => true
      | .received datagram => isNak datagram
      | .sent _ => false
    let ack : List UInt8 := [0x4d, 0x53, 0x54, 0x41, 0x43, 0x4b, 0, 0, 0, 0, 0, 0, 0, 0]
    let memory : LoginMemory := ⟨true, true, true, true⟩
    let read : List UInt8 → LoginEvent := fun d => .read memory (some d) (fun _ => ⟨0, 0⟩) true
    let auth : LoginEvent := .auth memory (some [0x70, 0x77])
    let nonce : LoginEvent := read (ack ++ [1, 2, 3, 4, 5, 6, 7, 8])
    ¬ Throughout (Session.step c) (LoginSafe c 1 restarts isRptc) (Session.start config)
        [auth, nonce, .close memory, read ack, read ack] ∧
      ¬ Throughout (Session.step c) (LoginSafe c 1 restarts isRptc) (Session.start config)
        [auth, nonce, read ack, read ack, .auth memory none] ∧
      ¬ Throughout (Session.step c) (LoginSafe c 1 restarts isRptc) (Session.start config)
        [auth, nonce, read ack, read ack,
          .auth { memory with duplicated := false } (some [0x70, 0x77])] := by
  intro c config restarts ack memory read auth nonce
  -- after a complete login, `e` is taken for a new start and leaves the client where it is
  have hstays : ∀ e, ((after (Session.step c) (Session.start config)
      [auth, nonce, read ack, read ack, e]).map fun s =>
        (s.homebrew.state, sinceStart restarts s.record)) = some (.authDone, []) →
      ¬ Throughout (Session.step c) (LoginSafe c 1 restarts isRptc) (Session.start config)
        [auth, nonce, read ack, read ack, e] := by
    intro e hend h
    obtain ⟨s, hs, hfacts⟩ := Option.map_eq_some_iff.mp hend
    obtain ⟨hdone, hnil⟩ := Prod.mk.inj hfacts
    obtain ⟨-, _, _, _, _, _, -, -, -, hsub, -⟩ := loginComplete_after h hs hdone
    rw [hnil] at hsub
    cases hsub
  refine ⟨fun h => ?_, hstays _ (by decide +kernel), hstays _ (by decide +kernel)⟩
  -- closing makes the client send its configuration a second time for the same key
  have hend : ((after (Session.step c) (Session.start config)
      [auth, nonce, .close memory, read ack, read ack]).map fun s =>
        (s.homebrew.state, ((sinceStart restarts s.record).takeWhile fun e =>
          !sends isKey e).countP (sends isRptc))) = some (.authDone, 2) := by
    decide +kernel
  obtain ⟨s, hs, hfacts⟩ := Option.map_eq_some_iff.mp hend
  obtain ⟨hdone, htwo⟩ := Prod.mk.inj hfacts
  obtain ⟨-, _, _, _, _, _, -, -, -, -, -, -, -, hone⟩ := loginComplete_after h hs hdone
  rw [htwo] at hone
  exact absurd hone (by decide)

end Dmrlib
