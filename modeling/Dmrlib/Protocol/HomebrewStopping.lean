import Dmrlib.Io.Timers
import Dmrlib.Protocol.HomebrewIo

/-!
# Stopping one Homebrew client of several

When the socket of a client fails, `homebrew_io_error` takes the client's timer and its two
entries off the loop. Descriptors tell the entries of clients apart. A timer is looked up by its
callback alone, which all clients share, so the timer that goes is the one registered last, of
whichever client that is (`stopping_iff`).

What `io_handle_error` does with its own entry after the callback is left out here: the callback
has freed it.

- `ClientEvent`, `clientStep`: a client is registered, others use the loop, a socket fails.
- `StopsOnly`: what was registered of one client is gone, and all else is there.
- `PingFound`: the timer that is found is that of the client.
- `Clients`: no two clients share a descriptor or have entries of the same kind.
- `stopping_iff`: the runs in which each failure stops its own client only.
-/

namespace Dmrlib

open Run

/-- What happens on a loop with Homebrew clients. -/
inductive ClientEvent where
  /-- `homebrew_io_register` -/
  | register (homebrew fd : Nat) (allocated : Bool × Bool × Bool)
  /-- the socket fails, and `io_handle_error` finds it out -/
  | error (fd : Nat)
  /-- others register or deregister -/
  | op (op : IoOp Nat Nat)

/-- The callbacks that a client has in a list. -/
def IsClient (r : DmrRequestType) (cb : HomebrewCallback) : Prop :=
  r = .read ∧ cb = .readable ∨ r = .error ∧ cb = .error

namespace DmrIoRegistry

variable (io : DmrIoRegistry HomebrewCallback Nat)

/-- The entries of clients. -/
def clientEntries : List (Nat × DmrIoEntry HomebrewCallback Nat) :=
  ((io.entry .read).cells.filter fun c => c.2.cb = .readable) ++
    (io.entry .error).cells.filter fun c => c.2.cb = .error

/-- The client whose `homebrew_io_error` is called for `fd`. -/
def errorClient (fd : Nat) : Option Nat :=
  match (io.entry .error).cells.find? fun c => c.2.fd = fd with
  | some (_, ⟨_, .error, homebrew, _⟩) => some homebrew
  | _ => none

/-- The ping timer that is found first. -/
def firstPing : Option (Nat × DmrIoTimerEntry HomebrewCallback Nat) :=
  io.timer.cells.find? fun t => t.2.cb = .pingTimer

/-- Neither the client nor the socket is registered. -/
def Fresh (homebrew fd : Nat) : Prop :=
  (∀ c ∈ io.timer.cells, c.2.cb = .pingTimer → c.2.userdata ≠ homebrew) ∧
    ∀ c ∈ io.clientEntries, c.2.userdata ≠ homebrew ∧ c.2.fd ≠ fd

instance (homebrew fd : Nat) : Decidable (io.Fresh homebrew fd) :=
  inferInstanceAs (Decidable (_ ∧ _))

/-- A client is registered once, with a socket of its own. -/
def clientStep (io : DmrIoRegistry HomebrewCallback Nat) :
    ClientEvent → Option (DmrIoRegistry HomebrewCallback Nat)
  | .register homebrew fd allocated =>
    if io.Fresh homebrew fd then some ((homebrewIoRegister homebrew fd allocated).foldl IoOp.run io)
    else none
  | .error fd =>
    match io.errorClient fd with
    | some _ => some ((homebrewIoStop fd).foldl IoOp.run io)
    | none => some io
  | .op op => some (op.others.run io)

/-- `io'` is `io` without the timer and the entries of a client, and with those of all others. -/
structure StopsOnly (homebrew : Nat) (io' : DmrIoRegistry HomebrewCallback Nat) : Prop where
  timer : ∀ c, c.2.cb = .pingTimer →
    (c ∈ io'.timer.cells ↔ c ∈ io.timer.cells ∧ c.2.userdata ≠ homebrew)
  entry : ∀ r c, IsClient r c.2.cb →
    (c ∈ (io'.entry r).cells ↔ c ∈ (io.entry r).cells ∧ c.2.userdata ≠ homebrew)

/-- A client that an error stops is the only one that is. -/
def StopsClient : ClientEvent → Prop
  | .error fd => ∀ homebrew, io.errorClient fd = some homebrew →
    ∀ io', io.clientStep (.error fd) = some io' → io.StopsOnly homebrew io'
  | _ => True

/-- A client that an error stops has the ping timer that is found first. -/
def PingFound : ClientEvent → Prop
  | .error fd => ∀ homebrew, io.errorClient fd = some homebrew →
    ∀ c, io.firstPing = some c → c.2.userdata = homebrew
  | _ => True

/-! ## Clients have sockets and timers of their own

An invariant of the registry, whatever else is registered: entries of clients are told apart by
descriptor and by number, and a client has one timer.
-/

/-- Entries of one client have one socket, and no two clients share one; nothing is registered
twice. -/
structure Clients : Prop where
  timer : ∀ c ∈ io.timer.cells, ∀ c' ∈ io.timer.cells, c.2.cb = .pingTimer →
    c'.2.cb = .pingTimer → c.2.userdata = c'.2.userdata → c = c'
  owner : ∀ c ∈ io.clientEntries, ∀ c' ∈ io.clientEntries,
    (c.2.userdata = c'.2.userdata ↔ c.2.fd = c'.2.fd)
  entry : ∀ r, ∀ c ∈ (io.entry r).cells, ∀ c' ∈ (io.entry r).cells, IsClient r c.2.cb →
    IsClient r c'.2.cb → c.2.fd = c'.2.fd → c = c'

variable {io}

theorem mem_clientEntries {c : Nat × DmrIoEntry HomebrewCallback Nat} :
    c ∈ io.clientEntries ↔ ∃ r, IsClient r c.2.cb ∧ c ∈ (io.entry r).cells := by
  unfold clientEntries
  rw [List.mem_append, List.mem_filter, List.mem_filter, decide_eq_true_iff, decide_eq_true_iff]
  constructor
  · rintro (⟨hc, hcb⟩ | ⟨hc, hcb⟩)
    · exact ⟨.read, Or.inl ⟨rfl, hcb⟩, hc⟩
    · exact ⟨.error, Or.inr ⟨rfl, hcb⟩, hc⟩
  · rintro ⟨r, ⟨rfl, hcb⟩ | ⟨rfl, hcb⟩, hc⟩
    · exact Or.inl ⟨hc, hcb⟩
    · exact Or.inr ⟨hc, hcb⟩

theorem clients_new (now : Timeval) : (dmrIoNew now).Clients where
  timer _ hc := nomatch hc
  owner _ hc := nomatch hc
  entry _ _ hc := nomatch hc

/-- What clients have registered in `io'` they have registered in `io`. -/
structure SubClients (io' io : DmrIoRegistry HomebrewCallback Nat) : Prop where
  timer : ∀ c ∈ io'.timer.cells, c.2.cb = .pingTimer → c ∈ io.timer.cells
  entry : ∀ r, ∀ c ∈ (io'.entry r).cells, IsClient r c.2.cb → c ∈ (io.entry r).cells

theorem Clients.of_sub (h : io.Clients) {io' : DmrIoRegistry HomebrewCallback Nat}
    (hsub : SubClients io' io) : io'.Clients where
  timer c hc c' hc' hcb hcb' := h.timer c (hsub.timer c hc hcb) c' (hsub.timer c' hc' hcb') hcb hcb'
  owner c hc c' hc' := by
    obtain ⟨r, hr, hc⟩ := mem_clientEntries.mp hc
    obtain ⟨r', hr', hc'⟩ := mem_clientEntries.mp hc'
    exact h.owner c (mem_clientEntries.mpr ⟨r, hr, hsub.entry r c hc hr⟩) c'
      (mem_clientEntries.mpr ⟨r', hr', hsub.entry r' c' hc' hr'⟩)
  entry r c hc c' hc' hr hr' :=
    h.entry r c (hsub.entry r c hc hr) c' (hsub.entry r c' hc' hr') hr hr'

theorem SubClients.refl (io : DmrIoRegistry HomebrewCallback Nat) : SubClients io io :=
  ⟨fun _ hc _ => hc, fun _ _ hc _ => hc⟩

theorem SubClients.trans {io₁ io₂ io₃ : DmrIoRegistry HomebrewCallback Nat}
    (h : SubClients io₁ io₂) (h' : SubClients io₂ io₃) : SubClients io₁ io₃ :=
  ⟨fun c hc hcb => h'.timer c (h.timer c hc hcb) hcb,
    fun r c hc hr => h'.entry r c (h.entry r c hc hr) hr⟩

theorem mem_insert {r r' : DmrRequestType} {e : DmrIoEntry HomebrewCallback Nat}
    {c : Nat × DmrIoEntry HomebrewCallback Nat} :
    c ∈ ((io.insert r e).entry r').cells ↔
      r' = r ∧ c = ((io.entry r).brk, e) ∨ c ∈ (io.entry r').cells := by
  show c ∈ (Function.update io.entry r ((io.entry r).insertHead e) r').cells ↔ _
  by_cases hr : r' = r
  · subst hr
    rw [Function.update_self, NodeList.mem_insertHead, and_iff_right rfl]
  · rw [Function.update_of_ne hr, or_iff_right fun h => hr h.1]

theorem mem_unlink {r r' : DmrRequestType} {a : Nat}
    {c : Nat × DmrIoEntry HomebrewCallback Nat} :
    c ∈ ((io.unlink r a).entry r').cells ↔ c ∈ (io.entry r').cells ∧ (r' = r → c.1 ≠ a) := by
  show c ∈ (Function.update io.entry r ((io.entry r).remove a) r').cells ↔ _
  by_cases hr : r' = r
  · subst hr
    rw [Function.update_self, NodeList.mem_remove, imp_iff_right rfl]
  · rw [Function.update_of_ne hr, and_iff_left fun h => absurd h hr]

theorem subClients_insert {r : DmrRequestType} {e : DmrIoEntry HomebrewCallback Nat}
    (h : ¬ IsClient r e.cb) : SubClients (io.insert r e) io where
  timer _ hc _ := hc
  entry r' c hc hr := by
    obtain ⟨rfl, rfl⟩ | hc := mem_insert.mp hc
    · exact absurd hr h
    · exact hc

theorem subClients_regEntry (s : FdSet) (fd : Nat) {cb : HomebrewCallback}
    (h : ¬ IsClient s.request cb) (userdata : Nat) (once allocated : Bool) :
    SubClients (regEntry s io fd cb userdata once allocated).2 io := by
  cases allocated with
  | false => exact .refl io
  | true =>
    have hsub : SubClients (io.insert s.request ⟨fd, cb, userdata, once⟩) io := subClients_insert h
    exact ⟨hsub.timer, hsub.entry⟩

theorem subClients_delEntry (s : FdSet) (fd : Nat) (cb : HomebrewCallback) :
    SubClients (delEntry s io fd cb).2 io := by
  unfold delEntry
  split
  · exact ⟨fun _ hc _ => hc, fun r c hc _ => (mem_unlink.mp hc).1⟩
  · exact .refl io

theorem subClients_delTimer (cb : HomebrewCallback) : SubClients (io.dmrIoDelTimer cb).2 io := by
  unfold dmrIoDelTimer
  split
  · exact ⟨fun _ hc _ => (NodeList.mem_remove.mp hc).1, fun _ _ hc _ => hc⟩
  · exact .refl io

/-- Others register nothing for a client. -/
theorem subClients_others (op : IoOp Nat Nat) : SubClients (op.others.run io) io := by
  have hother : ∀ r n, ¬ IsClient r (.other n) := by
    rintro r n (⟨-, h⟩ | ⟨-, h⟩) <;> cases h
  cases op with
  | regSignal sig cb userdata once allocated =>
    cases allocated with
    | false => exact .refl io
    | true => exact subClients_insert (hother _ cb)
  | regRead fd cb userdata once allocated =>
    exact subClients_regEntry .readers fd (hother _ cb) userdata once allocated
  | regWrite fd cb userdata once allocated =>
    exact subClients_regEntry .writers fd (hother _ cb) userdata once allocated
  | regError fd cb userdata once allocated =>
    exact subClients_regEntry .errors fd (hother _ cb) userdata once allocated
  | regTimer timeout cb userdata once allocated =>
    cases allocated with
    | false => exact .refl io
    | true =>
      refine ⟨fun c hc hcb => ?_, fun _ _ hc _ => hc⟩
      obtain rfl | hc := NodeList.mem_insertHead.mp hc
      · cases hcb
      · exact hc
  | delRead fd cb => exact subClients_delEntry .readers fd _
  | delWrite fd cb => exact subClients_delEntry .writers fd _
  | delError fd cb => exact subClients_delEntry .errors fd _
  | delTimer cb => exact subClients_delTimer _

/-! ## Registering a client

A client whose number and socket are new keeps the invariant, also where some of its three
registrations fail.
-/

theorem mem_clientEntries_insert {r : DmrRequestType} {e : DmrIoEntry HomebrewCallback Nat}
    {c : Nat × DmrIoEntry HomebrewCallback Nat} (hc : c ∈ (io.insert r e).clientEntries) :
    c.2 = e ∨ c ∈ io.clientEntries := by
  obtain ⟨r', hr', hc⟩ := mem_clientEntries.mp hc
  obtain ⟨-, rfl⟩ | hc := mem_insert.mp hc
  · exact Or.inl rfl
  · exact Or.inr (mem_clientEntries.mpr ⟨r', hr', hc⟩)

theorem Clients.insert (h : io.Clients) {r : DmrRequestType}
    {e : DmrIoEntry HomebrewCallback Nat}
    (howner : ∀ c ∈ io.clientEntries, (c.2.userdata = e.userdata ↔ c.2.fd = e.fd))
    (hnew : ∀ c ∈ (io.entry r).cells, IsClient r c.2.cb → c.2.fd ≠ e.fd) :
    (io.insert r e).Clients where
  timer := h.timer
  owner c hc c' hc' := by
    obtain heq | hc := mem_clientEntries_insert hc
    · obtain heq' | hc' := mem_clientEntries_insert hc'
      · rw [heq, heq']
        exact iff_of_true rfl rfl
      · rw [heq, eq_comm, howner c' hc', eq_comm]
    · obtain heq' | hc' := mem_clientEntries_insert hc'
      · rw [heq', howner c hc]
      · exact h.owner c hc c' hc'
  entry r' c hc c' hc' hr hr' hfd := by
    obtain ⟨rfl, rfl⟩ | hold := mem_insert.mp hc
    · obtain ⟨-, rfl⟩ | hold' := mem_insert.mp hc'
      · rfl
      · exact absurd hfd.symm (hnew c' hold' hr')
    · obtain ⟨rfl, rfl⟩ | hold' := mem_insert.mp hc'
      · exact absurd hfd (hnew c hold hr)
      · exact h.entry r' c hold c' hold' hr hr' hfd

theorem Clients.regEntry (h : io.Clients) (s : FdSet) {fd homebrew : Nat} {cb : HomebrewCallback}
    (howner : ∀ c ∈ io.clientEntries, (c.2.userdata = homebrew ↔ c.2.fd = fd))
    (hnew : ∀ c ∈ (io.entry s.request).cells, IsClient s.request c.2.cb → c.2.fd ≠ fd)
    (allocated : Bool) :
    (Dmrlib.regEntry s io fd cb homebrew false allocated).2.Clients := by
  cases allocated with
  | false => exact h
  | true =>
    obtain ⟨htimer, howner, hentry⟩ :=
      h.insert (e := ⟨fd, cb, homebrew, false⟩) howner hnew
    exact ⟨htimer, howner, hentry⟩

theorem Clients.regTimer (h : io.Clients) {homebrew : Nat}
    (hnew : ∀ c ∈ io.timer.cells, c.2.cb = .pingTimer → c.2.userdata ≠ homebrew)
    (allocated : Bool) :
    (io.dmrIoRegTimer ⟨5, 0⟩ .pingTimer homebrew false allocated).2.Clients := by
  cases allocated with
  | false => exact h
  | true =>
    refine ⟨fun c hc c' hc' hcb hcb' heq => ?_, h.owner, h.entry⟩
    obtain rfl | hc := NodeList.mem_insertHead.mp hc
    · obtain rfl | hc' := NodeList.mem_insertHead.mp hc'
      · rfl
      · exact absurd heq.symm (hnew c' hc' hcb')
    · obtain rfl | hc' := NodeList.mem_insertHead.mp hc'
      · exact absurd heq (hnew c hc hcb)
      · exact h.timer c hc c' hc' hcb hcb' heq

/-- A new client is registered with a socket of its own. -/
theorem Clients.register (h : io.Clients) {homebrew fd : Nat} (hfresh : io.Fresh homebrew fd)
    (allocated : Bool × Bool × Bool) :
    ((homebrewIoRegister homebrew fd allocated).foldl IoOp.run io).Clients := by
  obtain ⟨htimer, hentry⟩ := hfresh
  obtain ⟨timer, read, error⟩ := allocated
  have h₁ := h.regTimer htimer timer
  have hentry₁ : (io.dmrIoRegTimer ⟨5, 0⟩ .pingTimer homebrew false timer).2.entry =
      io.entry := by
    cases timer <;> rfl
  show (Dmrlib.regEntry .errors (Dmrlib.regEntry .readers
    (io.dmrIoRegTimer ⟨5, 0⟩ .pingTimer homebrew false timer).2 fd .readable homebrew false
      read).2 fd .error homebrew false error).2.Clients
  generalize (io.dmrIoRegTimer ⟨5, 0⟩ .pingTimer homebrew false timer).2 = io₁ at h₁ hentry₁
  -- no client has the number or the socket yet
  have hold : ∀ c ∈ io₁.clientEntries, c.2.userdata ≠ homebrew ∧ c.2.fd ≠ fd := by
    unfold clientEntries
    rw [hentry₁]
    exact hentry
  have hnew : ∀ r, ∀ c ∈ (io₁.entry r).cells, IsClient r c.2.cb → c.2.fd ≠ fd :=
    fun r c hc hr => (hold c (mem_clientEntries.mpr ⟨r, hr, hc⟩)).2
  have h₂ : (Dmrlib.regEntry .readers io₁ fd .readable homebrew false read).2.Clients :=
    h₁.regEntry .readers (fun c hc => iff_of_false (hold c hc).1 (hold c hc).2) (hnew .read) read
  refine h₂.regEntry .errors (fun c hc => ?_) ?_ error
  -- the entry for errors belongs to the client of the one for reading
  · have hcases : c.2 = ⟨fd, .readable, homebrew, false⟩ ∨ c ∈ io₁.clientEntries := by
      cases read with
      | false => exact Or.inr hc
      | true => exact mem_clientEntries_insert hc
    obtain heq | hc := hcases
    · rw [heq]
      exact iff_of_true rfl rfl
    · exact iff_of_false (hold c hc).1 (hold c hc).2
  · have herrors : ((Dmrlib.regEntry .readers io₁ fd .readable homebrew false
        read).2.entry .error) = io₁.entry .error := by
      cases read <;> rfl
    show ∀ c ∈ ((Dmrlib.regEntry .readers io₁ fd .readable homebrew false
        read).2.entry .error).cells, _
    rw [herrors]
    exact hnew .error

/-! ## Stopping a client

The two entries that go are those of the descriptor, so they are the right ones. The timer is the
first with the callback.
-/

/-- Where one entry of a list has the descriptor and the callback, that entry is removed. -/
theorem mem_delEntry {s : FdSet} {fd : Nat} {cb : HomebrewCallback}
    (hunique : ∀ c ∈ (io.entry s.request).cells, ∀ c' ∈ (io.entry s.request).cells,
      c.2.fd = fd ∧ c.2.cb = cb → c'.2.fd = fd ∧ c'.2.cb = cb → c = c')
    {r : DmrRequestType} {c : Nat × DmrIoEntry HomebrewCallback Nat} :
    c ∈ ((delEntry s io fd cb).2.entry r).cells ↔
      c ∈ (io.entry r).cells ∧ ¬ (r = s.request ∧ c.2.fd = fd ∧ c.2.cb = cb) := by
  unfold delEntry
  cases hfind : delTarget s io fd cb with
  | none =>
    have hnone := List.find?_eq_none.mp (Option.map_eq_none_iff.mp hfind)
    refine ⟨fun hc => ⟨hc, ?_⟩, And.left⟩
    rintro ⟨rfl, hmatch⟩
    exact hnone c hc (decide_eq_true hmatch)
  | some a =>
    obtain ⟨e, he, hmatch⟩ := NodeList.find?_eq_some hfind
    have hunlink : c ∈ ((io.unlink s.request a).entry r).cells ↔
        c ∈ (io.entry r).cells ∧ (r = s.request → c.1 ≠ a) := mem_unlink
    refine hunlink.trans (and_congr_right fun hc => ?_)
    constructor
    · rintro hne ⟨rfl, hfd⟩
      exact hne rfl (congrArg Prod.fst (hunique c hc _ he hfd (of_decide_eq_true hmatch)))
    · rintro hnot rfl heq
      obtain rfl : c = (a, e) := NodeList.eq_of_address _ hc he heq
      exact hnot ⟨rfl, of_decide_eq_true hmatch⟩

theorem timer_delEntry (s : FdSet) (fd : Nat) (cb : HomebrewCallback) :
    (delEntry s io fd cb).2.timer = io.timer := by
  unfold delEntry
  split <;> rfl

theorem mem_delTimer {c : Nat × DmrIoTimerEntry HomebrewCallback Nat} :
    c ∈ (io.dmrIoDelTimer .pingTimer).2.timer.cells ↔
      c ∈ io.timer.cells ∧ ∀ c', io.firstPing = some c' → c ≠ c' := by
  unfold dmrIoDelTimer
  have hfind : io.timer.find? (fun t => decide (t.cb = .pingTimer)) =
      io.firstPing.map Prod.fst := rfl
  rw [hfind]
  cases hping : io.firstPing with
  | none => exact ⟨fun hc => ⟨hc, fun c' hc' => nomatch hc'⟩, And.left⟩
  | some c' =>
    have hmem : c' ∈ io.timer.cells := List.mem_of_find?_eq_some hping
    refine NodeList.mem_remove.trans (and_congr_right fun hc => ?_)
    constructor
    · rintro hne d hd rfl
      exact hne (congrArg Prod.fst (Option.some.inj hd).symm)
    · exact fun hne heq => hne c' rfl (io.timer.eq_of_address hc hmem heq)

theorem mem_of_errorClient {fd homebrew : Nat} (h : io.errorClient fd = some homebrew) :
    ∃ c ∈ io.clientEntries, c.2.userdata = homebrew ∧ c.2.fd = fd := by
  unfold errorClient at h
  split at h
  · next a fd' homebrew' once hfind =>
    obtain rfl : homebrew' = homebrew := Option.some.inj h
    have hfd := List.find?_some hfind
    refine ⟨_, mem_clientEntries.mpr ⟨.error, Or.inr ⟨rfl, rfl⟩, List.mem_of_find?_eq_some hfind⟩,
      rfl, ?_⟩
    simpa using hfd
  · cases h

/-- The entries that go are those of the client. -/
theorem Clients.entry_stop (h : io.Clients) {fd homebrew : Nat}
    (herror : io.errorClient fd = some homebrew) (r : DmrRequestType)
    (c : Nat × DmrIoEntry HomebrewCallback Nat) (hr : IsClient r c.2.cb) :
    c ∈ (((homebrewIoStop fd).foldl IoOp.run io).entry r).cells ↔
      c ∈ (io.entry r).cells ∧ c.2.userdata ≠ homebrew := by
  obtain ⟨d, hd, hhomebrew, hfd⟩ := mem_of_errorClient herror
  have hentry₁ : (io.dmrIoDelTimer .pingTimer).2.entry = io.entry := by
    unfold dmrIoDelTimer
    split <;> rfl
  have hdel : SubClients (io.dmrIoDelTimer .pingTimer).2 io := subClients_delTimer .pingTimer
  have h₁ := h.of_sub hdel
  have h₂ := h₁.of_sub (subClients_delEntry .readers fd .readable)
  show c ∈ ((delEntry .errors (delEntry .readers (io.dmrIoDelTimer .pingTimer).2 fd
    .readable).2 fd .error).2.entry r).cells ↔ _
  rw [mem_delEntry (s := .errors) fun c hc c' hc' hfd hfd' => h₂.entry _ c hc c' hc'
      (Or.inr ⟨rfl, hfd.2⟩) (Or.inr ⟨rfl, hfd'.2⟩) (hfd.1.trans hfd'.1.symm),
    mem_delEntry (s := .readers) fun c hc c' hc' hfd hfd' => h₁.entry _ c hc c' hc'
      (Or.inl ⟨rfl, hfd.2⟩) (Or.inl ⟨rfl, hfd'.2⟩) (hfd.1.trans hfd'.1.symm),
    hentry₁, and_assoc]
  refine and_congr_right fun hc => ?_
  have howner := h.owner c (mem_clientEntries.mpr ⟨r, hr, hc⟩) d hd
  rw [hhomebrew, hfd] at howner
  rw [ne_eq, howner]
  obtain ⟨rfl, hcb⟩ | ⟨rfl, hcb⟩ := hr
  · simp [hcb, FdSet.request]
  · simp [hcb, FdSet.request]

/-- The timer that goes is the first one with the callback. -/
theorem Clients.stopsOnly_iff (h : io.Clients) {fd homebrew : Nat}
    (herror : io.errorClient fd = some homebrew) :
    io.StopsOnly homebrew ((homebrewIoStop fd).foldl IoOp.run io) ↔
      ∀ c, io.firstPing = some c → c.2.userdata = homebrew := by
  have htimer : ((homebrewIoStop fd).foldl IoOp.run io).timer =
      (io.dmrIoDelTimer .pingTimer).2.timer :=
    (timer_delEntry .errors fd .error).trans (timer_delEntry .readers fd .readable)
  constructor
  -- the first timer with the callback is gone, so it was the client's
  · intro hstops c hping
    by_contra hne
    have hcb : c.2.cb = .pingTimer := by simpa using List.find?_some hping
    have hmem := (hstops.timer c hcb).mpr ⟨List.mem_of_find?_eq_some hping, hne⟩
    rw [htimer, mem_delTimer] at hmem
    exact hmem.2 c hping rfl
  · intro hfirst
    refine ⟨fun c hcb => ?_, h.entry_stop herror⟩
    rw [htimer, mem_delTimer]
    refine and_congr_right fun hc => ?_
    -- each client has one timer
    constructor
    · intro hne heq
      cases hping : io.firstPing with
      | none =>
        have hnone := List.find?_eq_none.mp hping c hc
        exact hnone (decide_eq_true hcb)
      | some c' =>
        have hcb' : c'.2.cb = .pingTimer := by simpa using List.find?_some hping
        exact hne c' hping (h.timer c hc c' (List.mem_of_find?_eq_some hping) hcb hcb'
          (heq.trans (hfirst c' hping).symm))
    · rintro hne c' hping rfl
      exact hne (hfirst c hping)

/-- Clients keep sockets and timers of their own. -/
theorem Clients.step (h : io.Clients) {e : ClientEvent}
    {io' : DmrIoRegistry HomebrewCallback Nat} (hstep : io.clientStep e = some io') :
    io'.Clients := by
  cases e with
  | register homebrew fd allocated =>
    rw [clientStep] at hstep
    split at hstep
    · next hfresh =>
      cases hstep
      exact h.register hfresh allocated
    · cases hstep
  | error fd =>
    rw [clientStep] at hstep
    split at hstep
    · cases hstep
      exact h.of_sub (((subClients_delEntry .errors fd .error).trans
        (subClients_delEntry .readers fd .readable)).trans (subClients_delTimer .pingTimer))
    · cases hstep
      exact h
  | op op =>
    cases hstep
    exact h.of_sub (subClients_others op)

theorem Clients.stopsClient_iff (h : io.Clients) (e : ClientEvent) :
    io.StopsClient e ↔ io.PingFound e := by
  cases e with
  | register homebrew fd allocated => exact Iff.rfl
  | op op => exact Iff.rfl
  | error fd =>
    refine forall_congr' fun homebrew => forall_congr' fun herror => ?_
    rw [← h.stopsOnly_iff herror]
    constructor
    · intro hstops
      refine hstops _ ?_
      rw [clientStep, herror]
    · intro hstops io' hstep
      rw [clientStep, herror] at hstep
      cases hstep
      exact hstops

/-- **Stopping clients.** In a run, each client that an error stops is the only one that is,
exactly if each time the ping timer that is found first is its own. -/
theorem stopping_iff (now : Timeval) (es : List ClientEvent) :
    Throughout clientStep StopsClient (dmrIoNew now) es ↔
      Throughout clientStep PingFound (dmrIoNew now) es :=
  throughout_congr (fun _ e h => h.stopsClient_iff e) (fun _ _ _ h hstep => h.step hstep)
    (clients_new now) es

/-- Two clients; the one registered first fails, and the other's timer goes. -/
theorem not_stopping :
    ¬ Throughout clientStep StopsClient (dmrIoNew ⟨0, 0⟩)
      [.register 1 3 (true, true, true), .register 2 4 (true, true, true), .error 3] := by
  intro hrun
  have hstops := ((hrun.2 _ rfl).2 _ rfl).1 1 rfl _ rfl
  have hmem := (hstops.timer (1, ⟨⟨⟨5, 0⟩, ⟨5, 0⟩, .pingTimer, false⟩, 2⟩) rfl).mpr
    ⟨List.mem_cons_self, by decide⟩
  have heq := congrArg Prod.fst (List.mem_singleton.mp hmem)
  exact absurd heq (by decide)

end DmrIoRegistry

end Dmrlib
