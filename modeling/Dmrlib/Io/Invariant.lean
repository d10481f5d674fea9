import Dmrlib.Io.Dispatch
import Dmrlib.Lib.Run

/-!
# What the registry of the I/O loop keeps in step

`Registered` relates the counter and the three sets to the lists. Registering keeps
it, and so does the count whenever something is removed. The sets are the weak
point: removing one entry of a descriptor clears the descriptor, whatever other
entries there are for it, and the dispatcher for errors clears another set than that
of its list. `Registered.removal_iff` says when a removal leaves the sets right, and
`registered_step_iff` when a step of the loop does.

A dispatcher also reads the entry whose callback has returned, and the successor
that it saved, so neither must have been freed: `Frame.Returns`.

- `DmrIoRegistry.Registered`: the counter is the number of entries, and each set has the
  descriptors of its list.
- `RemovalOk`, `DelOk`: a removal that leaves it so.
- `Frame.Ok`, `Inv`: what holds of the dispatches under way, in any run.
- `StepOk`, `StaysRegistered`: a condition on the state before a step, and what the step is to do.
- `throughout_staysRegistered_iff`: the runs in which every step does are those in which every
  step meets the condition.
-/

namespace Dmrlib

open Run

variable {κ υ : Type}

theorem FdSet.request_injective : Function.Injective FdSet.request := by
  intro s s' h
  cases s <;> cases s' <;> cases h <;> rfl

namespace DmrIoRegistry

/-- How much is registered. -/
def size (io : DmrIoRegistry κ υ) : Nat :=
  (io.entry .signal).cells.length + (io.entry .read).cells.length +
    (io.entry .write).cells.length + (io.entry .error).cells.length + io.timer.cells.length

/-- The list of set `s` holds an entry for `fd`. -/
def Lists (io : DmrIoRegistry κ υ) (s : FdSet) (fd : Nat) : Prop :=
  ∃ c ∈ (io.entry s.request).cells, c.2.fd = fd

/-- The counter counts what is registered, and the sets hold the descriptors that
have an entry. -/
structure Registered (io : DmrIoRegistry κ υ) : Prop where
  entries : io.entries = io.size
  fds : ∀ s fd, fd ∈ io.fds s ↔ io.Lists s fd

/-! ## Registering

A new entry goes to the front of its list, is counted, and its descriptor goes into the set.
-/

theorem size_insert (io : DmrIoRegistry κ υ) (r : DmrRequestType) (e : DmrIoEntry κ υ) :
    (io.insert r e).size = io.size + 1 := by
  cases r <;> simp [size, insert, NodeList.length_insertHead] <;> omega

theorem size_unlink {io : DmrIoRegistry κ υ} {r : DmrRequestType} {a : Nat} {e : DmrIoEntry κ υ}
    (h : (a, e) ∈ (io.entry r).cells) : (io.unlink r a).size + 1 = io.size := by
  have hlen := NodeList.length_remove _ h
  cases r <;> simp [size, unlink] at hlen ⊢ <;> omega

theorem lists_insert {io : DmrIoRegistry κ υ} {r : DmrRequestType} {e : DmrIoEntry κ υ}
    {s : FdSet} {fd : Nat} :
    (io.insert r e).Lists s fd ↔ s.request = r ∧ e.fd = fd ∨ io.Lists s fd := by
  unfold Lists insert
  by_cases hr : s.request = r
  · subst hr
    simp only [Function.update_self, NodeList.mem_insertHead, exists_eq_or_imp, true_and]
  · simp only [Function.update_of_ne hr, hr, false_and, false_or]

/-- After a removal an entry for `fd` is left unless it was the only one. -/
theorem lists_unlink {io : DmrIoRegistry κ υ} {r : DmrRequestType} {a : Nat} {s : FdSet}
    {fd : Nat} : (io.unlink r a).Lists s fd ↔
      ∃ c ∈ (io.entry s.request).cells, c.2.fd = fd ∧ (s.request = r → c.1 ≠ a) := by
  unfold Lists unlink
  by_cases hr : s.request = r
  · subst hr
    simp only [Function.update_self, NodeList.mem_remove, forall_const, and_assoc, and_comm]
  · simp only [Function.update_of_ne hr, hr, false_implies, and_true]

theorem registered_new (now : Timeval) : (dmrIoNew now : DmrIoRegistry κ υ).Registered where
  entries := rfl
  fds s fd := by
    refine iff_of_false (Finset.notMem_empty fd) ?_
    rintro ⟨c, hc, -⟩
    cases hc

theorem Registered.regSignal {io : DmrIoRegistry κ υ} (h : io.Registered) (sig : Nat) (cb : κ)
    (userdata : υ) (once allocated : Bool) :
    (dmrIoRegSignal io sig cb userdata once allocated).2.Registered := by
  unfold dmrIoRegSignal
  split
  · constructor
    · show io.entries + 1 = _
      rw [size_insert, h.entries, Nat.cast_succ]
    · intro s fd
      rw [lists_insert]
      have hne : ¬ (s.request = .signal ∧ sig = fd) := by
        rintro ⟨hs, -⟩
        cases s <;> cases hs
      rw [or_iff_right hne]
      exact h.fds s fd
  · exact h

theorem Registered.regEntry {io : DmrIoRegistry κ υ} (h : io.Registered) (s : FdSet) (fd : Nat)
    (cb : κ) (userdata : υ) (once allocated : Bool) :
    (Dmrlib.regEntry s io fd cb userdata once allocated).2.Registered := by
  unfold Dmrlib.regEntry
  split
  · constructor
    · show io.entries + 1 = ((io.insert s.request ⟨fd, cb, userdata, once⟩).size : Int)
      rw [size_insert, h.entries, Nat.cast_succ]
    · intro s' fd'
      show fd' ∈ Function.update io.fds s (Insert.insert fd (io.fds s)) s' ↔
        (io.insert s.request ⟨fd, cb, userdata, once⟩).Lists s' fd'
      rw [lists_insert, ← h.fds s' fd']
      by_cases hs : s' = s
      · subst hs
        rw [Function.update_self, Finset.mem_insert, eq_comm]
        simp only [true_and]
      · have hr : s'.request ≠ s.request := fun h => hs (FdSet.request_injective h)
        rw [Function.update_of_ne hs]
        simp only [hr, false_and, false_or]
  · exact h

theorem Registered.regTimer {io : DmrIoRegistry κ υ} (h : io.Registered) (timeout : Timeval)
    (cb : κ) (userdata : υ) (once allocated : Bool) :
    (io.dmrIoRegTimer timeout cb userdata once allocated).2.Registered := by
  unfold dmrIoRegTimer
  split
  · constructor
    · show io.entries + 1 = _
      rw [h.entries]
      rfl
    · exact h.fds
  · exact h

/-! ## Removing

A removal takes an entry off its list and clears its descriptor in a set, which need not be that
of the list.
-/

/-- `FD_CLR` of `fd` in one of the sets, or in none. -/
def clear (io : DmrIoRegistry κ υ) : (clears : Option FdSet) → (fd : Nat) → DmrIoRegistry κ υ
  | none, _ => io
  | some s, fd => io.fdClr s fd

/-- Removing node `a` of list `r` and clearing `fd` leaves the sets right: nothing
else is listed for `fd` in the set that is cleared, and something else is in the set
of the list, if that is another one. -/
def RemovalOk (io : DmrIoRegistry κ υ) (r : DmrRequestType) (clears : Option FdSet) (fd a : Nat) :
    Prop :=
  ∀ s : FdSet,
    (clears = some s → ∀ c ∈ (io.entry s.request).cells, c.2.fd = fd → s.request = r ∧ c.1 = a) ∧
      (clears ≠ some s → s.request = r →
        ∃ c ∈ (io.entry s.request).cells, c.2.fd = fd ∧ c.1 ≠ a)

theorem size_clear (io : DmrIoRegistry κ υ) (clears : Option FdSet) (fd : Nat) :
    (io.clear clears fd).size = io.size := by
  cases clears <;> rfl

theorem lists_clear {io : DmrIoRegistry κ υ} {clears : Option FdSet} {fd : Nat} {s : FdSet}
    {fd' : Nat} : (io.clear clears fd).Lists s fd' ↔ io.Lists s fd' := by
  cases clears <;> rfl

theorem mem_fds_clear {io : DmrIoRegistry κ υ} {clears : Option FdSet} {fd : Nat} {s : FdSet}
    {fd' : Nat} :
    fd' ∈ (io.clear clears fd).fds s ↔ ¬ (clears = some s ∧ fd' = fd) ∧ fd' ∈ io.fds s := by
  cases clears with
  | none => simp [clear]
  | some s' =>
    by_cases hs : s = s'
    · subst hs
      simp [clear, fdClr]
    · have hs' : s' ≠ s := Ne.symm hs
      simp [clear, fdClr, Function.update_of_ne hs, hs']

/-- The count is right after every removal. -/
theorem Registered.entries_removal {io : DmrIoRegistry κ υ} (h : io.Registered)
    {r : DmrRequestType} {a : Nat} {e : DmrIoEntry κ υ} (hmem : (a, e) ∈ (io.entry r).cells)
    (clears : Option FdSet) (fd : Nat) :
    ((io.unlink r a).clear clears fd).entries = ((io.unlink r a).clear clears fd).size := by
  have hsize := size_unlink hmem
  have hentries : ((io.unlink r a).clear clears fd).entries = io.entries - 1 := by
    cases clears <;> rfl
  rw [size_clear, hentries, h.entries]
  omega

/-- An entry of another descriptor is another node, and stays. -/
theorem lists_unlink_other {io : DmrIoRegistry κ υ} {r : DmrRequestType} {a : Nat}
    {e : DmrIoEntry κ υ} (hmem : (a, e) ∈ (io.entry r).cells) {s : FdSet} {fd : Nat}
    (hfd : fd ≠ e.fd) : (io.unlink r a).Lists s fd ↔ io.Lists s fd := by
  rw [lists_unlink]
  constructor
  · rintro ⟨c, hc, hcfd, -⟩
    exact ⟨c, hc, hcfd⟩
  · rintro ⟨c, hc, hcfd⟩
    refine ⟨c, hc, hcfd, ?_⟩
    rintro rfl rfl
    have hce : c = (c.1, e) := NodeList.eq_of_address _ hc hmem rfl
    rw [hce] at hcfd
    exact hfd hcfd.symm

/-- **Removals.** The entry for `fd` at `a` can be removed exactly under
`RemovalOk`. -/
theorem Registered.removal_iff {io : DmrIoRegistry κ υ} (h : io.Registered) {r : DmrRequestType}
    {a : Nat} {e : DmrIoEntry κ υ} (hmem : (a, e) ∈ (io.entry r).cells)
    (clears : Option FdSet) : ((io.unlink r a).clear clears e.fd).Registered ↔
      io.RemovalOk r clears e.fd a := by
  have hfds : ∀ s fd', fd' ∈ ((io.unlink r a).clear clears e.fd).fds s ↔
      ¬ (clears = some s ∧ fd' = e.fd) ∧ io.Lists s fd' := by
    intro s fd'
    rw [mem_fds_clear]
    exact and_congr_right fun _ => h.fds s fd'
  -- what a set holds for another descriptor cannot change
  constructor
  · intro hreg s
    have hs := hreg.fds s e.fd
    rw [hfds, lists_clear, lists_unlink] at hs
    constructor
    · intro hclears c hc hcfd
      by_contra hne
      have hlisted := hs.mpr ⟨c, hc, hcfd, fun hr ha => hne ⟨hr, ha⟩⟩
      exact hlisted.1 ⟨hclears, rfl⟩
    · rintro hclears rfl
      obtain ⟨c, hc, hcfd, hne⟩ := hs.mp ⟨fun hand => hclears hand.1, (a, e), hmem, rfl⟩
      exact ⟨c, hc, hcfd, hne rfl⟩
  · intro hok
    refine ⟨h.entries_removal hmem clears e.fd, fun s fd' => ?_⟩
    rw [hfds, lists_clear]
    by_cases hfd : fd' = e.fd
    · subst hfd
      rw [lists_unlink]
      by_cases hclears : clears = some s
      · refine iff_of_false (fun hand => hand.1 ⟨hclears, rfl⟩) ?_
        rintro ⟨c, hc, hcfd, hne⟩
        obtain ⟨hr, ha⟩ := (hok s).1 hclears c hc hcfd
        exact hne hr ha
      · by_cases hr : s.request = r
        · obtain ⟨c, hc, hcfd, hne⟩ := (hok s).2 hclears hr
          exact iff_of_true ⟨fun hand => hclears hand.1, c, hc, hcfd⟩ ⟨c, hc, hcfd, fun _ => hne⟩
        · simp only [hclears, not_false_eq_true, true_and, hr, false_implies, and_true]
          rfl
    · rw [lists_unlink_other hmem hfd]
      simp only [hfd, and_false, not_false_eq_true, true_and]

theorem Registered.unlinkTimer {io : DmrIoRegistry κ υ} (h : io.Registered) {a : Nat}
    {t : DmrIoTimerEntry κ υ} (hmem : (a, t) ∈ io.timer.cells) :
    (io.unlinkTimer a).Registered := by
  constructor
  · have hlen := NodeList.length_remove _ hmem
    have hcount := h.entries
    show io.entries - 1 = _
    simp only [size, DmrIoRegistry.unlinkTimer] at hcount hlen ⊢
    omega
  · exact h.fds

/-- The call removes the only entry of the descriptor in its list, or none. -/
def DelOk [DecidableEq κ] (s : FdSet) (io : DmrIoRegistry κ υ) (fd : Nat) (cb : κ) : Prop :=
  ∀ a, delTarget s io fd cb = some a → ∀ c ∈ (io.entry s.request).cells, c.2.fd = fd → c.1 = a

theorem Registered.delEntry_iff [DecidableEq κ] {io : DmrIoRegistry κ υ} (h : io.Registered)
    (s : FdSet) (fd : Nat) (cb : κ) :
    (delEntry s io fd cb).2.Registered ↔ io.DelOk s fd cb := by
  unfold delEntry DelOk
  cases htarget : delTarget s io fd cb with
  | none => exact iff_of_true h fun a ha => nomatch ha
  | some a =>
    obtain ⟨e, hmem, he⟩ := NodeList.find?_eq_some htarget
    obtain ⟨rfl, -⟩ := of_decide_eq_true he
    show ((io.unlink s.request a).clear (some s) e.fd).Registered ↔ _
    rw [h.removal_iff hmem]
    constructor
    · rintro hok a' ha' c hc hcfd
      cases ha'
      exact ((hok s).1 rfl c hc hcfd).2
    · intro honly s'
      constructor
      · intro hs c hc hcfd
        cases hs
        exact ⟨rfl, honly a rfl c hc hcfd⟩
      · intro hs hr
        exact absurd (congrArg some (FdSet.request_injective hr).symm) hs

theorem Registered.delTimer [DecidableEq κ] {io : DmrIoRegistry κ υ} (h : io.Registered) (cb : κ) :
    (io.dmrIoDelTimer cb).2.Registered := by
  unfold dmrIoDelTimer
  split
  · next a htarget =>
    obtain ⟨t, hmem, -⟩ := NodeList.find?_eq_some htarget
    exact h.unlinkTimer hmem
  · exact h

end DmrIoRegistry

open DmrIoRegistry

/-! ## The return of a callback

The dispatcher reads the entry it has called, removes a one-shot, and goes on with the successor
that it has saved.
-/

/-- What holds of a dispatch under way, whatever its callback does: its entry, while
it is registered, is one for the descriptor, and the saved successor is another
one. -/
def Frame.Ok (io : DmrIoRegistry κ υ) : Frame → Prop
  | .entry d fd cur next => cur < (io.entry d.request).brk ∧
      (∀ e, (cur, e) ∈ (io.entry d.request).cells → e.fd = fd) ∧ next ≠ some cur
  | .timer cur next => next ≠ some cur

/-- The callback can return: its entry and the saved successor, where the dispatcher
goes on to it, are still registered, and if the entry is to be removed, it can be. -/
def Frame.Returns (io : DmrIoRegistry κ υ) : Frame → Prop
  | .entry d fd cur next => ∃ e, (cur, e) ∈ (io.entry d.request).cells ∧
      (e.once = true → io.RemovalOk d.request d.clears fd cur) ∧
      (d.all = true → ∀ a, next = some a → ∃ e', (a, e') ∈ (io.entry d.request).cells)
  | .timer cur next => ∃ t, (cur, t) ∈ io.timer.cells ∧
      ∀ a, next = some a → ∃ t', (a, t') ∈ io.timer.cells

theorem Dispatcher.reap_eq (d : Dispatcher) (fd : Nat) (io : DmrIoRegistry κ υ) (cur : Nat) :
    d.reap fd io cur = (io.unlink d.request cur).clear d.clears fd := by
  unfold Dispatcher.reap
  cases d.clears <;> rfl

/-- Of the nodes of its list a dispatcher removes none but that of its callback. -/
theorem Dispatcher.live_afterEntry (d : Dispatcher) (fd : Nat) (io : DmrIoRegistry κ υ)
    {a cur : Nat}
    (hne : a ≠ cur) (e : DmrIoEntry κ υ) :
    (∃ e', (a, e') ∈ ((d.afterEntry fd io cur e).entry d.request).cells) ↔
      ∃ e', (a, e') ∈ (io.entry d.request).cells := by
  unfold Dispatcher.afterEntry
  split
  · simp only [Dispatcher.entry_reap, NodeList.mem_remove, hne, ne_eq, not_false_eq_true, and_true]
  · rfl

theorem Dispatcher.registered_afterEntry_iff {d : Dispatcher} {io : DmrIoRegistry κ υ} {cur : Nat}
    {e : DmrIoEntry κ υ} (h : io.Registered) (hmem : (cur, e) ∈ (io.entry d.request).cells) :
    (d.afterEntry e.fd io cur e).Registered ↔
      (e.once = true → io.RemovalOk d.request d.clears e.fd cur) := by
  unfold Dispatcher.afterEntry
  cases e.once with
  | false => exact iff_of_true h fun hf => nomatch hf
  | true =>
    rw [if_pos rfl, Dispatcher.reap_eq, h.removal_iff hmem]
    exact ⟨fun hok _ => hok, fun hok => hok rfl⟩

theorem Dispatcher.resume_registered_iff {d : Dispatcher} {fd : Nat} {io : DmrIoRegistry κ υ}
    {cur : Nat} {next : Option Nat} (h : io.Registered)
    (hframe : Frame.Ok io (.entry d fd cur next)) :
    (∃ r, d.resume fd io cur next = some r ∧ r.1.Registered) ↔
      Frame.Returns io (.entry d fd cur next) := by
  obtain ⟨-, hfd, hnext⟩ := hframe
  have hlive : ∀ e, (d.all = true → ∀ a, next = some a →
        ∃ e', (a, e') ∈ ((d.afterEntry fd io cur e).entry d.request).cells) ↔
      (d.all = true → ∀ a, next = some a → ∃ e', (a, e') ∈ (io.entry d.request).cells) := by
    intro e
    refine forall_congr' fun _ => forall_congr' fun a => forall_congr' fun ha => ?_
    have hne : a ≠ cur := fun heq => hnext (ha.trans (congrArg some heq))
    exact d.live_afterEntry fd io hne e
  constructor
  · rintro ⟨⟨io', frame⟩, hr, hreg⟩
    obtain ⟨e, hmem, rfl, hseek⟩ := Dispatcher.resume_eq_some_iff.mp hr
    obtain rfl := hfd e hmem
    refine ⟨e, hmem, (Dispatcher.registered_afterEntry_iff h hmem).mp hreg, ?_⟩
    rw [← hlive e]
    exact Dispatcher.isSome_seekFrom.mp (Option.isSome_of_eq_some hseek)
  · rintro ⟨e, hmem, hok, hnodes⟩
    obtain rfl := hfd e hmem
    rw [← hlive e] at hnodes
    obtain ⟨frame, hframe⟩ := Option.isSome_iff_exists.mp (Dispatcher.isSome_seekFrom.mpr hnodes)
    exact ⟨(_, frame), Dispatcher.resume_eq_some_iff.mpr ⟨e, hmem, rfl, hframe⟩,
      (Dispatcher.registered_afterEntry_iff h hmem).mpr hok⟩

theorem live_afterTimer (io : DmrIoRegistry κ υ) {a cur : Nat} (hne : a ≠ cur)
    (t : DmrIoTimerEntry κ υ) : (∃ t', (a, t') ∈ (afterTimer io cur t).timer.cells) ↔
      ∃ t', (a, t') ∈ io.timer.cells := by
  unfold afterTimer
  split
  · simp only [unlinkTimer, NodeList.mem_remove, hne, ne_eq, not_false_eq_true, and_true]
  · exact NodeList.exists_mem_modify

theorem DmrIoRegistry.Registered.afterTimer {io : DmrIoRegistry κ υ} (h : io.Registered) {cur : Nat}
    {t : DmrIoTimerEntry κ υ} (hmem : (cur, t) ∈ io.timer.cells) :
    (afterTimer io cur t).Registered := by
  unfold Dmrlib.afterTimer
  split
  · exact h.unlinkTimer hmem
  · refine ⟨?_, h.fds⟩
    show io.entries = _
    rw [h.entries]
    simp only [size, NodeList.length_modify]

theorem resumeTimer_registered_iff {io : DmrIoRegistry κ υ} {cur : Nat} {next : Option Nat}
    (h : io.Registered) (hnext : next ≠ some cur) :
    (∃ r, resumeTimer io cur next = some r ∧ r.1.Registered) ↔
      Frame.Returns io (.timer cur next) := by
  have hlive : ∀ t, (∀ a, next = some a → ∃ t', (a, t') ∈ (afterTimer io cur t).timer.cells) ↔
      ∀ a, next = some a → ∃ t', (a, t') ∈ io.timer.cells := by
    intro t
    refine forall_congr' fun a => forall_congr' fun ha => ?_
    have hne : a ≠ cur := fun heq => hnext (ha.trans (congrArg some heq))
    exact live_afterTimer io hne t
  constructor
  · rintro ⟨⟨io', frame⟩, hr, -⟩
    obtain ⟨t, hmem, rfl, hseek⟩ := resumeTimer_eq_some_iff.mp hr
    refine ⟨t, hmem, ?_⟩
    rw [← hlive t]
    exact isSome_seekTimerFrom.mp (Option.isSome_of_eq_some hseek)
  · rintro ⟨t, hmem, hnodes⟩
    rw [← hlive t] at hnodes
    obtain ⟨frame, hframe⟩ := Option.isSome_iff_exists.mp (isSome_seekTimerFrom.mpr hnodes)
    exact ⟨(_, frame), resumeTimer_eq_some_iff.mpr ⟨t, hmem, rfl, hframe⟩, h.afterTimer hmem⟩

/-! ## Dispatches under way

What holds of a frame when it is made, and of all frames while others change the lists.
-/

/-- The lists of `io'` are what may have become of those of `io`. -/
def DmrIoRegistry.Later (io io' : DmrIoRegistry κ υ) : Prop :=
  ∀ r, (io.entry r).Later (io'.entry r)

theorem DmrIoRegistry.Later.refl (io : DmrIoRegistry κ υ) : io.Later io := fun _ => .refl _

theorem DmrIoRegistry.later_insert (io : DmrIoRegistry κ υ) (r : DmrRequestType)
    (e : DmrIoEntry κ υ) : io.Later (io.insert r e) := by
  intro r'
  unfold insert
  by_cases hr : r' = r
  · subst hr
    simp only [Function.update_self]
    exact NodeList.later_insertHead _ _
  · simp only [Function.update_of_ne hr]
    exact .refl _

theorem DmrIoRegistry.later_unlink (io : DmrIoRegistry κ υ) (r : DmrRequestType) (a : Nat) :
    io.Later (io.unlink r a) := by
  intro r'
  unfold unlink
  by_cases hr : r' = r
  · subst hr
    simp only [Function.update_self]
    exact NodeList.later_remove _ _
  · simp only [Function.update_of_ne hr]
    exact .refl _

theorem later_regEntry (s : FdSet) (io : DmrIoRegistry κ υ) (fd : Nat) (cb : κ) (userdata : υ)
    (once allocated : Bool) : io.Later (regEntry s io fd cb userdata once allocated).2 := by
  unfold regEntry
  split
  · exact io.later_insert s.request _
  · exact .refl io

theorem later_delEntry [DecidableEq κ] (s : FdSet) (io : DmrIoRegistry κ υ) (fd : Nat) (cb : κ) :
    io.Later (delEntry s io fd cb).2 := by
  unfold delEntry
  split
  · exact io.later_unlink s.request _
  · exact .refl io

theorem later_run [DecidableEq κ] (io : DmrIoRegistry κ υ) (op : IoOp κ υ) :
    io.Later (op.run io) := by
  cases op with
  | regSignal sig cb userdata once allocated =>
    show io.Later (dmrIoRegSignal io sig cb userdata once allocated).2
    unfold dmrIoRegSignal
    split
    · exact io.later_insert _ _
    · exact .refl io
  | regRead => exact later_regEntry _ io _ _ _ _ _
  | regWrite => exact later_regEntry _ io _ _ _ _ _
  | regError => exact later_regEntry _ io _ _ _ _ _
  | regTimer timeout cb userdata once allocated =>
    show io.Later (io.dmrIoRegTimer timeout cb userdata once allocated).2
    unfold DmrIoRegistry.dmrIoRegTimer
    split <;> exact .refl io
  | delRead => exact later_delEntry _ io _ _
  | delWrite => exact later_delEntry _ io _ _
  | delError => exact later_delEntry _ io _ _
  | delTimer cb =>
    show io.Later (io.dmrIoDelTimer cb).2
    unfold DmrIoRegistry.dmrIoDelTimer
    split <;> exact .refl io

theorem Frame.Ok.later {io io' : DmrIoRegistry κ υ} {f : Frame} (h : f.Ok io)
    (hlater : io.Later io') : f.Ok io' := by
  cases f with
  | entry d fd cur next =>
    obtain ⟨hlt, hfd, hnext⟩ := h
    have hlist := hlater d.request
    exact ⟨Nat.lt_of_lt_of_le hlt hlist.brk_le, fun e he => hfd e (hlist.old _ he hlt), hnext⟩
  | timer cur next => exact h

theorem Dispatcher.ok_append {d : Dispatcher} {fd : Nat} {io : DmrIoRegistry κ υ}
    {pre rest : List (Nat × DmrIoEntry κ υ)} {c : Nat × DmrIoEntry κ υ}
    (hcells : (io.entry d.request).cells = pre ++ c :: rest) (hfd : c.2.fd = fd) :
    Frame.Ok io (.entry d fd c.1 (rest.head?.map Prod.fst)) := by
  have hmem : c ∈ (io.entry d.request).cells :=
    hcells ▸ List.mem_append_right _ List.mem_cons_self
  refine ⟨(io.entry d.request).lt_brk _ hmem, fun e he => ?_, NodeList.head_ne_of_append hcells⟩
  have hce : c = (c.1, e) := NodeList.eq_of_address _ hmem he rfl
  rwa [hce] at hfd

theorem Dispatcher.ok_seek {d : Dispatcher} {fd : Nat} {io : DmrIoRegistry κ υ} {f : Frame}
    (h : d.seek fd (io.entry d.request).cells = some f) : f.Ok io := by
  unfold Dispatcher.seek at h
  rcases NodeList.seek_cases (fun e : DmrIoEntry κ υ => decide (e.fd = fd))
    (io.entry d.request).cells with ⟨hnone, -⟩ | ⟨pre, c, rest, hcells, -, hfd, hsome⟩
  · rw [hnone] at h
    cases h
  · rw [hsome] at h
    cases h
    exact Dispatcher.ok_append hcells (of_decide_eq_true hfd)

theorem ok_seekTimer {io : DmrIoRegistry κ υ} {f : Frame}
    (h : seekTimer io io.timer.cells = some f) : f.Ok io := by
  unfold seekTimer at h
  rcases NodeList.seek_cases (fun t : DmrIoTimerEntry κ υ => timerLt t.wallclock io.wallclock)
    io.timer.cells with ⟨hnone, -⟩ | ⟨pre, c, rest, hcells, -, -, hsome⟩
  · rw [hnone] at h
    cases h
  · rw [hsome] at h
    cases h
    exact NodeList.head_ne_of_append hcells

theorem Dispatcher.ok_resume {d : Dispatcher} {fd : Nat} {io : DmrIoRegistry κ υ} {cur : Nat}
    {next : Option Nat} {r : DmrIoRegistry κ υ × Option Frame}
    (h : d.resume fd io cur next = some r) :
    io.Later r.1 ∧ ∀ f ∈ r.2, f.Ok r.1 := by
  obtain ⟨e, -, hio, hseek⟩ := Dispatcher.resume_eq_some_iff.mp h
  constructor
  · rw [hio]
    unfold Dispatcher.afterEntry
    split
    · rw [Dispatcher.reap_eq]
      unfold clear
      split <;> exact io.later_unlink d.request cur
    · exact .refl io
  · rintro f hf
    rcases Dispatcher.seekFrom_cases hseek with hnone | ⟨pre, c, rest, hcells, hfd, hsome⟩
    · rw [hnone] at hf
      cases hf
    · rw [hsome] at hf
      cases hf
      exact Dispatcher.ok_append hcells hfd

theorem ok_resumeTimer {io : DmrIoRegistry κ υ} {cur : Nat} {next : Option Nat}
    {r : DmrIoRegistry κ υ × Option Frame} (h : resumeTimer io cur next = some r) :
    io.Later r.1 ∧ ∀ f ∈ r.2, f.Ok r.1 := by
  obtain ⟨t, -, hio, hseek⟩ := resumeTimer_eq_some_iff.mp h
  constructor
  · rw [hio]
    unfold afterTimer
    split <;> exact .refl io
  · rintro f hf
    rcases seekTimerFrom_cases hseek with hnone | ⟨pre, c, rest, hcells, hsome⟩
    · rw [hnone] at hf
      cases hf
    · rw [hsome] at hf
      cases hf
      exact NodeList.head_ne_of_append hcells

/-! ## The loop

Steps that meet the condition keep the registry in step, and others do not.
-/

namespace IoLoop

/-- The registry is in step, and the dispatches under way are what they seem. -/
structure Inv (l : IoLoop κ υ) : Prop where
  registered : l.io.Registered
  frames : ∀ f ∈ l.frames, f.Ok l.io

/-- The step leaves the sets right and touches no node that was freed. -/
def StepOk [DecidableEq κ] (l : IoLoop κ υ) : IoAction κ υ → Prop
  | .op (.delRead fd cb) => l.io.DelOk .readers fd cb
  | .op (.delWrite fd cb) => l.io.DelOk .writers fd cb
  | .op (.delError fd cb) => l.io.DelOk .errors fd cb
  | .ret _ => ∀ f, l.frames.head? = some f → f.Returns l.io
  | _ => True

theorem frames_dispatch {l : IoLoop κ υ} (h : ∀ f ∈ l.frames, f.Ok l.io) (d : Dispatcher)
    (fd : Nat) : ∀ f ∈ (l.dispatch d fd).frames, f.Ok l.io := by
  intro f hf
  rcases List.mem_append.mp hf with hf | hf
  · exact Dispatcher.ok_seek (Option.mem_toList.mp hf)
  · exact h f hf

theorem frames_goOn {io : DmrIoRegistry κ υ} {frames : List Frame}
    (h : ∀ f ∈ frames, f.Ok io) {r : DmrIoRegistry κ υ × Option Frame}
    (hr : io.Later r.1 ∧ ∀ f ∈ r.2, f.Ok r.1) : ∀ f ∈ (goOn frames r).frames, f.Ok r.1 := by
  intro f hf
  rcases List.mem_append.mp hf with hf | hf
  · exact hr.2 f (Option.mem_toList.mp hf)
  · exact (h f hf).later hr.1

variable [DecidableEq κ]

theorem frames_step {l l' : IoLoop κ υ} {a : IoAction κ υ} (h : ∀ f ∈ l.frames, f.Ok l.io)
    (hstep : l.step a = some l') : ∀ f ∈ l'.frames, f.Ok l'.io := by
  cases a with
  | op op =>
    cases hstep
    exact fun f hf => (h f hf).later (later_run l.io op)
  | readable fd => cases hstep; exact frames_dispatch h _ fd
  | writable fd => cases hstep; exact frames_dispatch h _ fd
  | error fd => cases hstep; exact frames_dispatch h _ fd
  | signal sig => cases hstep; exact frames_dispatch h _ sig
  | timers now =>
    cases hstep
    intro f hf
    rcases List.mem_append.mp hf with hf | hf
    · exact ok_seekTimer (Option.mem_toList.mp hf)
    · exact (h f hf).later fun r => .refl _
  -- the dispatches beneath go on with the registry that the return leaves
  | ret value =>
    obtain ⟨io, frames⟩ := l
    cases frames with
    | nil => cases hstep; exact h
    | cons f frames =>
      have hrest : ∀ f ∈ frames, f.Ok io := fun g hg => h g (List.mem_cons_of_mem f hg)
      cases f with
      | entry d fd cur next =>
        obtain ⟨r, hr, rfl⟩ := Option.map_eq_some_iff.mp hstep
        exact frames_goOn hrest (Dispatcher.ok_resume hr)
      | timer cur next =>
        obtain ⟨r, hr, rfl⟩ := Option.map_eq_some_iff.mp hstep
        exact frames_goOn hrest (ok_resumeTimer hr)

/-- **Steps.** From a registry in step, a step leads on to one exactly under
`StepOk`. -/
theorem registered_step_iff {l : IoLoop κ υ} (h : l.Inv) (a : IoAction κ υ) :
    (∃ l', l.step a = some l' ∧ l'.io.Registered) ↔ l.StepOk a := by
  have hreg := h.registered
  -- a step that cannot fail
  have hsome : ∀ l' : IoLoop κ υ, (∃ l'', some l' = some l'' ∧ l''.io.Registered) ↔
      l'.io.Registered := by
    intro l'
    simp only [Option.some.injEq, exists_eq_left']
  cases a with
  | op op =>
    refine (hsome _).trans ?_
    cases op with
    | regSignal => exact iff_of_true (hreg.regSignal _ _ _ _ _) trivial
    | regRead => exact iff_of_true (hreg.regEntry _ _ _ _ _ _) trivial
    | regWrite => exact iff_of_true (hreg.regEntry _ _ _ _ _ _) trivial
    | regError => exact iff_of_true (hreg.regEntry _ _ _ _ _ _) trivial
    | regTimer => exact iff_of_true (hreg.regTimer _ _ _ _ _) trivial
    | delRead fd cb => exact hreg.delEntry_iff .readers fd cb
    | delWrite fd cb => exact hreg.delEntry_iff .writers fd cb
    | delError fd cb => exact hreg.delEntry_iff .errors fd cb
    | delTimer cb => exact iff_of_true (hreg.delTimer cb) trivial
  | readable fd => exact (hsome _).trans (iff_of_true hreg trivial)
  | writable fd => exact (hsome _).trans (iff_of_true hreg trivial)
  | error fd => exact (hsome _).trans (iff_of_true hreg trivial)
  | signal sig => exact (hsome _).trans (iff_of_true hreg trivial)
  | timers now => exact (hsome _).trans (iff_of_true ⟨hreg.entries, hreg.fds⟩ trivial)
  | ret value =>
    obtain ⟨io, frames⟩ := l
    cases frames with
    | nil => exact (hsome _).trans (iff_of_true hreg fun f hf => nomatch hf)
    | cons f frames =>
      have hok := h.frames f List.mem_cons_self
      have hhead : StepOk (⟨io, f :: frames⟩ : IoLoop κ υ) (.ret value) ↔ f.Returns io := by
        simp only [StepOk, List.head?_cons, Option.some.injEq, forall_eq']
      rw [hhead]
      cases f with
      | entry d fd cur next =>
        rw [← Dispatcher.resume_registered_iff hreg hok]
        simp only [step, Option.map_eq_some_iff, goOn]
        exact ⟨fun ⟨l', ⟨r, hr, hl'⟩, hreg'⟩ => ⟨r, hr, by rwa [← hl'] at hreg'⟩,
          fun ⟨r, hr, hreg'⟩ => ⟨_, ⟨r, hr, rfl⟩, hreg'⟩⟩
      | timer cur next =>
        rw [← resumeTimer_registered_iff hreg hok]
        simp only [step, Option.map_eq_some_iff, goOn]
        exact ⟨fun ⟨l', ⟨r, hr, hl'⟩, hreg'⟩ => ⟨r, hr, by rwa [← hl'] at hreg'⟩,
          fun ⟨r, hr, hreg'⟩ => ⟨_, ⟨r, hr, rfl⟩, hreg'⟩⟩

omit [DecidableEq κ] in
theorem inv_start (now : Timeval) : (start now : IoLoop κ υ).Inv :=
  ⟨registered_new now, fun _ hf => nomatch hf⟩

/-- The step leads on, to a registry in step. -/
def StaysRegistered (l : IoLoop κ υ) (a : IoAction κ υ) : Prop :=
  ∃ l', l.step a = some l' ∧ l'.io.Registered

/-- **Runs.** The registry stays in step throughout a run exactly when each step of it
meets `StepOk`. -/
theorem throughout_staysRegistered_iff (now : Timeval) (as : List (IoAction κ υ)) :
    Throughout step StaysRegistered (start now) as ↔ Throughout step StepOk (start now) as := by
  have hinv : ∀ (l : IoLoop κ υ) a l', l.Inv → l.StaysRegistered a → l.step a = some l' →
      l'.Inv := by
    rintro l a l' h ⟨l'', hstep', hreg⟩ hstep
    cases hstep.symm.trans hstep'
    exact ⟨hreg, frames_step h.frames hstep⟩
  constructor
  · exact Throughout.mono (fun (l : IoLoop κ υ) a h hs => (registered_step_iff h a).mp hs) hinv
      (inv_start now)
  · exact Throughout.mono (fun (l : IoLoop κ υ) a h hok => (registered_step_iff h a).mpr hok)
      (fun l a l' h hok => hinv l a l' h ((registered_step_iff h a).mpr hok)) (inv_start now)

/-- Two readers of one descriptor, of which one is deregistered: the descriptor is no
longer watched for the other. -/
theorem not_registered_twoReaders :
    ∃ l, after step (start ⟨0, 0⟩ : IoLoop Nat Unit) [.op (.regRead 5 0 () false true),
        .op (.regRead 5 1 () false true), .op (.delRead 5 1)] = some l ∧ ¬ l.io.Registered := by
  refine ⟨_, rfl, fun hregistered => ?_⟩
  have hreg := hregistered.fds .readers 5
  have hlisted : (5 : Nat) ∈ _ := hreg.mpr ⟨(0, ⟨5, 0, (), false⟩), by decide, rfl⟩
  exact absurd hlisted (by decide)

/-- A one-shot reader that deregisters itself is read once more when it returns. -/
example : after step (start ⟨0, 0⟩ : IoLoop Nat Unit) [.op (.regRead 5 0 () true true), .readable 5,
    .op (.delRead 5 0), .ret 0] = none := rfl

end IoLoop

end Dmrlib
