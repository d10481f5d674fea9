import Dmrlib.Protocol.HomebrewKey

/-!
# Replies of the login that are not sent

Two acknowledgements of the master are to be answered: the one with the nonce, by the key,
and the next one, by the configuration. Both replies move the client's state before they are
sent, and do not move it back when sending fails. A client whose reply was lost on its own
side ignores the acknowledgement when the master repeats it. A client that has never been given
a secret does not even survive the nonce: the length of the missing string is taken.

- `SendFails`, `ReplyFails`: sending ends with an error, and a reply cannot be built or sent.
- `replyDue`, `sendReply`: the reply that a datagram asks for, and the call that sends it;
  `dmrHomebrewRead_due` is that `dmr_homebrew_read` makes this call and no other.
- `StepKept`: a reply that fails makes the call fail, and leaves the state.
- `sent_eq_nil_iff`: the replies that fail are those of which nothing goes out.
- `stepKept_iff`: when the step is kept.
-/

namespace Dmrlib

/-! ## Sending that fails -/

/-- An error after which `dmr_homebrew_send_raw` tries again. -/
def SocketSend.again : SocketSend → Bool
  | .sent => false
  | .failed errno => errno = .EINVAL ∨ errno = .EAGAIN

/-- Sending ends with an error. -/
def SendFails (sends : List SocketSend) : Prop :=
  ∃ errno, (sends.dropWhile SocketSend.again).head? = some (.failed errno)

/-- A send that comes back has sent all or nothing. -/
theorem dmrHomebrewSendRaw_fails_iff {raw : DmrRaw} {sends : List SocketSend}
    {r : Int × List (List UInt8)} (h : dmrHomebrewSendRaw raw sends = some r) :
    (SendFails sends ∧ r = (-1, [])) ∨ (¬ SendFails sends ∧ r = (0, [raw.content])) := by
  unfold SendFails
  induction sends with
  | nil => cases h
  | cons attempt sends ih =>
    cases attempt with
    | sent =>
      cases h
      refine .inr ⟨?_, rfl⟩
      rintro ⟨errno, hhead⟩
      cases hhead
    | failed errno =>
      rw [dmrHomebrewSendRaw] at h
      by_cases hagain : errno = .EINVAL ∨ errno = .EAGAIN
      · rw [if_pos hagain] at h
        rw [List.dropWhile_cons_of_pos
          (show SocketSend.again (.failed errno) = true from decide_eq_true hagain)]
        exact ih h
      · rw [if_neg hagain] at h
        cases h
        refine .inl ⟨⟨errno, ?_⟩, rfl⟩
        rw [List.dropWhile_cons_of_neg (by simpa [SocketSend.again] using hagain)]
        rfl

/-! ## Replies -/

/-- The replies of the login. -/
inductive Reply where
  | key
  | config
deriving DecidableEq

/-- The reply that a datagram asks for. -/
def replyDue (homebrew : DmrHomebrew) (datagram : List UInt8) : Option Reply :=
  if isNonceAck datagram = true ∧ homebrew.state = .authNone then some .key
  else if isAck datagram = true ∧ homebrew.state = .authInit then some .config
  else none

/-- The call that sends it. -/
def sendReply (c : Common) (env : HomebrewEnv) (homebrew : DmrHomebrew) (datagram : List UInt8) :
    Reply → Option HomebrewResult
  | .key => homebrewSendKey c env { homebrew with nonce := nonceOf datagram }
  | .config => homebrewSendConfig c env homebrew

/-- The state that the client is in afterwards. -/
def Reply.next : Reply → DmrHomebrewState
  | .key => .authInit
  | .config => .authConfig

section Due

variable {c : Common} {env : HomebrewEnv} {homebrew : DmrHomebrew} {datagram : List UInt8}

/-- A datagram that asks for a reply is answered by it. -/
theorem dmrHomebrewRead_due {reply : Reply} (hreceived : env.received = true)
    (hdue : replyDue homebrew datagram = some reply) :
    dmrHomebrewRead c env homebrew (some datagram) = sendReply c env homebrew datagram reply := by
  unfold replyDue at hdue
  split at hdue
  -- a nonce is due for a key, an ACK in the next state for the configuration
  · next hkey =>
    cases hdue
    obtain ⟨hack, hstate⟩ := hkey
    obtain ⟨hlen, hfirst, hword⟩ := of_decide_eq_true hack
    obtain ⟨buf, hread, hbyte, hmatch⟩ :=
      dmrHomebrewRead_master c homebrew hreceived (by omega) (by omega) hfirst
    have hnonce : (Vector.ofFn fun i : Fin 8 => buf.getD (14 + i.val) 0) = nonceOf datagram := by
      refine Vector.ext fun i hi => ?_
      rw [Vector.getElem_ofFn, nonceOf, Vector.getElem_ofFn]
      exact hbyte (14 + i) (by omega)
    have hnot : ¬ datagram.length = 14 := by omega
    rw [hread, readMaster, if_neg hnot,
      if_pos ⟨hlen, (hmatch ACK (by decide)).trans hword, hstate⟩, hnonce]
    rfl
  · split at hdue
    · next hconfig =>
      cases hdue
      obtain ⟨hack, hstate⟩ := hconfig
      obtain ⟨hlen, hfirst, hword⟩ := of_decide_eq_true hack
      obtain ⟨buf, hread, -, hmatch⟩ :=
        dmrHomebrewRead_master c homebrew hreceived (by omega) (by omega) hfirst
      rw [hread, readMaster, if_pos hlen, if_pos ((hmatch ACK (by decide)).trans hword), readAck,
        hstate]
      rfl
    · cases hdue

/-! ## What a failure leaves -/

/-- A reply without memory for it is not sent, and nothing changes that matters. -/
theorem sendReply_noMemory (halloc : env.allocated = false) (reply : Reply) :
    ∃ homebrew', sendReply c env homebrew datagram reply = some ⟨-1, homebrew', [], none⟩ ∧
      homebrew'.state = homebrew.state := by
  cases reply with
  | key =>
    refine ⟨{ homebrew with nonce := nonceOf datagram }, ?_, rfl⟩
    simp only [sendReply, homebrewSendKey, halloc, dmrRawNew_false]
  | config =>
    refine ⟨homebrew, ?_, rfl⟩
    simp only [sendReply, homebrewSendConfig, halloc, dmrRawNew_false]

/-- With memory for it a reply moves the state, and then it is sent or not. -/
theorem sendReply_cases (halloc : env.allocated = true) {reply : Reply} {r : HomebrewResult}
    (h : sendReply c env homebrew datagram reply = some r) :
    r.homebrew.state = reply.next ∧
      (SendFails env.sends ∧ r.ret = -1 ∧ r.sent = [] ∨ ¬ SendFails env.sends ∧ r.sent ≠ []) := by
  cases reply with
  | key =>
    rw [sendReply, homebrewSendKey_eq c halloc] at h
    obtain ⟨secret, -, h⟩ := Option.bind_eq_some_iff.mp h
    obtain ⟨s, hsend, rfl⟩ := Option.map_eq_some_iff.mp h
    refine ⟨rfl, ?_⟩
    obtain ⟨hfails, rfl⟩ | ⟨hfails, rfl⟩ := dmrHomebrewSendRaw_fails_iff hsend
    · exact .inl ⟨hfails, rfl, rfl⟩
    · exact .inr ⟨hfails, List.cons_ne_nil _ _⟩
  | config =>
    rw [sendReply, homebrewSendConfig_eq c halloc] at h
    obtain ⟨s, hsend, rfl⟩ := Option.map_eq_some_iff.mp h
    refine ⟨rfl, ?_⟩
    obtain ⟨hfails, rfl⟩ | ⟨hfails, rfl⟩ := dmrHomebrewSendRaw_fails_iff hsend
    · exact .inl ⟨hfails, rfl, rfl⟩
    · exact .inr ⟨hfails, List.cons_ne_nil _ _⟩

end Due

/-- A reply cannot be built or cannot be sent: there is no memory for what is received or for
the reply, there is no secret for the key, or sending ends with an error. -/
def ReplyFails (env : HomebrewEnv) (homebrew : DmrHomebrew) (reply : Reply) : Prop :=
  env.received = false ∨ env.allocated = false ∨ (reply = .key ∧ homebrew.secret = none) ∨
    SendFails env.sends

/-- A login step whose datagram could not be sent is not taken: the call comes back and fails,
and leaves the client in the state in which the same datagram asks for the same reply. -/
def StepKept (c : Common) (env : HomebrewEnv) (homebrew : DmrHomebrew)
    (datagram : List UInt8) : Prop :=
  ∀ reply, replyDue homebrew datagram = some reply → ReplyFails env homebrew reply →
    ∃ r, dmrHomebrewRead c env homebrew (some datagram) = some r ∧
      r.ret ≠ 0 ∧ r.homebrew.state = homebrew.state ∧ replyDue r.homebrew datagram = some reply

/-- A reply is due, there is memory to receive the datagram and to build the reply, and then
there is no secret for the key, or sending fails. -/
def ReplyLost (env : HomebrewEnv) (homebrew : DmrHomebrew) (datagram : List UInt8) : Prop :=
  env.received = true ∧ env.allocated = true ∧
    ∃ reply, replyDue homebrew datagram = some reply ∧
      (reply = .key ∧ homebrew.secret = none ∨ SendFails env.sends)

/-- The reply that is due depends on the state. -/
theorem replyDue_congr {homebrew homebrew' : DmrHomebrew} (h : homebrew'.state = homebrew.state)
    (datagram : List UInt8) : replyDue homebrew' datagram = replyDue homebrew datagram := by
  rw [replyDue, replyDue, h]

/-- The state that a reply moves to is not the one in which it is due. -/
theorem state_ne_next {homebrew : DmrHomebrew} {datagram : List UInt8} {reply : Reply}
    (hdue : replyDue homebrew datagram = some reply) : reply.next ≠ homebrew.state := by
  unfold replyDue at hdue
  split at hdue
  · next hkey =>
    cases hdue
    rw [hkey.2]
    decide
  · split at hdue
    · next hconfig =>
      cases hdue
      rw [hconfig.2]
      decide
    · cases hdue

/-- A key without a secret is not survived. -/
theorem sendReply_noSecret (c : Common) {env : HomebrewEnv} {homebrew : DmrHomebrew}
    (datagram : List UInt8) (halloc : env.allocated = true) (hsecret : homebrew.secret = none) :
    sendReply c env homebrew datagram .key = none := by
  have hnone : ({ homebrew with nonce := nonceOf datagram } : DmrHomebrew).secret = none := hsecret
  rw [sendReply, homebrewSendKey_eq c halloc, hnone]
  rfl

/-- The replies that fail are those of which nothing goes out. -/
theorem sent_eq_nil_iff {c : Common} {env : HomebrewEnv} {homebrew : DmrHomebrew}
    {datagram : List UInt8} {reply : Reply} {r : HomebrewResult}
    (hdue : replyDue homebrew datagram = some reply)
    (h : dmrHomebrewRead c env homebrew (some datagram) = some r) :
    r.sent = [] ↔ ReplyFails env homebrew reply := by
  cases hreceived : env.received with
  | false =>
    simp only [dmrHomebrewRead, hreceived, dmrRawNew_false, Option.some.injEq] at h
    subst h
    exact iff_of_true rfl (.inl hreceived)
  | true =>
    rw [dmrHomebrewRead_due hreceived hdue] at h
    cases halloc : env.allocated with
    | false =>
      obtain ⟨homebrew', hnone, -⟩ := @sendReply_noMemory c env homebrew datagram halloc reply
      rw [hnone, Option.some.injEq] at h
      subst h
      exact iff_of_true rfl (.inr (.inl halloc))
    | true =>
      obtain ⟨-, ⟨hfails, -, hsent⟩ | ⟨hfails, hne⟩⟩ := sendReply_cases halloc h
      · exact iff_of_true hsent (.inr (.inr (.inr hfails)))
      · refine iff_of_false hne ?_
        -- each failure contradicts one of the cases left behind, the missing secret the result
        rintro (hno | hno | ⟨rfl, hsecret⟩ | hno)
        · exact Bool.false_ne_true (hno.symm.trans hreceived)
        · exact Bool.false_ne_true (hno.symm.trans halloc)
        · rw [sendReply_noSecret c datagram halloc hsecret] at h
          cases h
        · exact hfails hno

/-- **Replies that are not sent.** For every client and every datagram: the step is kept
exactly if it is not for want of a secret, or on the way out, that the reply is lost. -/
theorem stepKept_iff (c : Common) (env : HomebrewEnv) (homebrew : DmrHomebrew)
    (datagram : List UInt8) :
    StepKept c env homebrew datagram ↔ ¬ ReplyLost env homebrew datagram := by
  constructor
  · rintro hkept ⟨hreceived, halloc, reply, hdue, hlost⟩
    obtain ⟨r, hr, -, hstate, -⟩ := hkept reply hdue (.inr (.inr hlost))
    rw [dmrHomebrewRead_due hreceived hdue] at hr
    obtain ⟨rfl, hsecret⟩ | hfails := hlost
    · rw [sendReply_noSecret c datagram halloc hsecret] at hr
      cases hr
    · exact state_ne_next hdue ((sendReply_cases halloc hr).1.symm.trans hstate)
  · intro hlost reply hdue hfails
    -- it is enough that the call fails and leaves the state
    suffices hsame : ∃ r, dmrHomebrewRead c env homebrew (some datagram) = some r ∧ r.ret ≠ 0 ∧
        r.homebrew.state = homebrew.state by
      obtain ⟨r, hr, hret, hstate⟩ := hsame
      exact ⟨r, hr, hret, hstate, (replyDue_congr hstate datagram).trans hdue⟩
    cases hreceived : env.received with
    | false =>
      refine ⟨⟨-1, homebrew, [], none⟩, ?_, show (-1 : Int) ≠ 0 by decide, rfl⟩
      simp only [dmrHomebrewRead, hreceived, dmrRawNew_false]
    | true =>
      rw [dmrHomebrewRead_due hreceived hdue]
      cases halloc : env.allocated with
      | false =>
        obtain ⟨homebrew', hnone, hstate⟩ :=
          @sendReply_noMemory c env homebrew datagram halloc reply
        exact ⟨_, hnone, show (-1 : Int) ≠ 0 by decide, hstate⟩
      | true =>
        refine absurd ⟨hreceived, halloc, reply, hdue, ?_⟩ hlost
        rcases hfails with hno | hno | hfails
        · exact absurd (hno.symm.trans hreceived) Bool.false_ne_true
        · exact absurd (hno.symm.trans halloc) Bool.false_ne_true
        · exact hfails

/-- The nonce arrives, and the socket refuses the reply: the client has the state of one that
has sent it. Without a secret it does not survive the nonce. -/
theorem not_stepKept_pw :
    let sending : HomebrewEnv := .sending (fun _ => ⟨0, 0⟩) true
    let homebrew : DmrHomebrew := { DmrHomebrew.pw with nonce := Vector.replicate 8 0 }
    let datagram : List UInt8 :=
      [0x4d, 0x53, 0x54, 0x41, 0x43, 0x4b, 0, 0, 0, 0, 0, 0, 0, 0, 1, 2, 3, 4, 5, 6, 7, 8]
    ¬ StepKept .pw { sending with sends := [.failed .other] } homebrew datagram ∧
      ¬ StepKept .pw sending { homebrew with secret := none } datagram := by
  intro sending homebrew datagram
  constructor
  · intro hkept
    have hdue : replyDue homebrew datagram = some .key := by decide
    have hfails : SendFails [.failed .other] := ⟨.other, rfl⟩
    obtain ⟨r, hr, -, hstate, -⟩ := hkept .key hdue (.inr (.inr (.inr hfails)))
    have hread : dmrHomebrewRead .pw { sending with sends := [.failed .other] } homebrew
        (some datagram) =
        some ⟨-1, { homebrew with nonce := nonceOf datagram, state := .authInit }, [], none⟩ := by
      rw [dmrHomebrewRead_due rfl hdue, sendReply, homebrewSendKey_eq .pw rfl]
      rfl
    obtain rfl := Option.some.inj (hread.symm.trans hr)
    exact absurd hstate (by decide)
  · intro hkept
    have hdue : replyDue { homebrew with secret := none } datagram = some .key := by decide
    obtain ⟨r, hr, -⟩ := hkept .key hdue (.inr (.inr (.inl ⟨rfl, rfl⟩)))
    rw [dmrHomebrewRead_due rfl hdue, sendReply_noSecret .pw datagram rfl rfl] at hr
    cases hr

end Dmrlib
