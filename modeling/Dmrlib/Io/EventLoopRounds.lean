import Dmrlib.Io.EventLoop

/-!
# The rounds of the loop

Every registering function raises `io->maxfd` to its descriptor, so the loop over the
descriptors comes past each one that `select` has waited for, whatever the callbacks on the
way do. Each of them that `select` has left in a set is dispatched once, in the order of the
descriptors (`EventLoop.rounds_complete`), and the warning about events that were not handled
is never logged.

- `Round`: what `select` has reported, and the dispatches since.
- `Round.Complete`: the dispatches are those for all that was reported.
- `DmrIoRegistry.Counts`: the counter is right, and no set has a descriptor above `io->maxfd`.
- `RoundsInv`: the invariant of a loop and of the record of its rounds.
- `rounds_complete`: every round that is over is complete, and the loop has not warned.
-/

namespace Dmrlib

open Run

variable {κ υ : Type}

/-! ## What the registry keeps

A step of the registry never lowers `io->maxfd`, and no descriptor in a set is above it.
-/

/-- The counter counts what is registered, and `io->maxfd` bounds the sets. -/
structure DmrIoRegistry.Counts (io : DmrIoRegistry κ υ) : Prop where
  entries : io.entries = io.size
  le_maxfd : ∀ s, ∀ fd ∈ io.fds s, fd ≤ io.maxfd

/-- What a step of the registry leaves behind. -/
structure DmrIoRegistry.Keeps (io io' : DmrIoRegistry κ υ) : Prop where
  counts : io.Counts → io'.Counts
  maxfd : io.maxfd ≤ io'.maxfd

namespace DmrIoRegistry.Keeps

variable {io : DmrIoRegistry κ υ}

theorem refl (io : DmrIoRegistry κ υ) : io.Keeps io := ⟨id, Nat.le_refl _⟩

theorem trans {io' io'' : DmrIoRegistry κ υ} (h : io.Keeps io') (h' : io'.Keeps io'') :
    io.Keeps io'' :=
  ⟨h'.counts ∘ h.counts, h.maxfd.trans h'.maxfd⟩

theorem insert (io : DmrIoRegistry κ υ) (r : DmrRequestType) (e : DmrIoEntry κ υ) :
    io.Keeps (io.insert r e) := by
  refine ⟨fun h => ⟨?_, h.le_maxfd⟩, Nat.le_refl _⟩
  show io.entries + 1 = _
  rw [size_insert, h.entries, Nat.cast_succ]

theorem unlink {r : DmrRequestType} {a : Nat} {e : DmrIoEntry κ υ}
    (hmem : (a, e) ∈ (io.entry r).cells) : io.Keeps (io.unlink r a) := by
  refine ⟨fun h => ⟨?_, h.le_maxfd⟩, Nat.le_refl _⟩
  have hsize := size_unlink hmem
  have hentries := h.entries
  show io.entries - 1 = _
  omega

theorem unlinkTimer {a : Nat} {t : DmrIoTimerEntry κ υ} (hmem : (a, t) ∈ io.timer.cells) :
    io.Keeps (io.unlinkTimer a) := by
  refine ⟨fun h => ⟨?_, h.le_maxfd⟩, Nat.le_refl _⟩
  have hlen := NodeList.length_remove _ hmem
  have hentries := h.entries
  show io.entries - 1 = _
  simp only [size, DmrIoRegistry.unlinkTimer] at hentries hlen ⊢
  omega

theorem clear (io : DmrIoRegistry κ υ) (clears : Option FdSet) (fd : Nat) :
    io.Keeps (io.clear clears fd) := by
  constructor
  · intro h
    constructor
    · rw [size_clear, ← h.entries]
      cases clears <;> rfl
    · intro s fd' hfd'
      have hle := h.le_maxfd s fd' (mem_fds_clear.mp hfd').2
      cases clears <;> exact hle
  · cases clears <;> exact Nat.le_refl _

theorem regEntry (s : FdSet) (io : DmrIoRegistry κ υ) (fd : Nat) (cb : κ) (userdata : υ)
    (once allocated : Bool) : io.Keeps (regEntry s io fd cb userdata once allocated).2 := by
  cases allocated with
  | false => exact refl io
  | true =>
    have hinsert := insert io s.request ⟨fd, cb, userdata, once⟩
    refine ⟨fun h => ⟨(hinsert.counts h).entries, ?_⟩, le_max_left _ _⟩
    intro s' fd' hfd'
    show fd' ≤ max io.maxfd fd
    replace hfd' : fd' ∈ Function.update io.fds s (Insert.insert fd (io.fds s)) s' := hfd'
    by_cases hs : s' = s
    · subst hs
      rw [Function.update_self, Finset.mem_insert] at hfd'
      obtain rfl | hfd' := hfd'
      · exact le_max_right _ _
      · exact (h.le_maxfd s' fd' hfd').trans (le_max_left _ _)
    · rw [Function.update_of_ne hs] at hfd'
      exact (h.le_maxfd s' fd' hfd').trans (le_max_left _ _)

theorem delEntry [DecidableEq κ] (s : FdSet) (io : DmrIoRegistry κ υ) (fd : Nat) (cb : κ) :
    io.Keeps (delEntry s io fd cb).2 := by
  unfold Dmrlib.delEntry
  cases htarget : delTarget s io fd cb with
  | none => exact refl io
  | some a =>
    obtain ⟨e, hmem, -⟩ := NodeList.find?_eq_some htarget
    exact (unlink hmem).trans (clear _ (some s) fd)

theorem run [DecidableEq κ] (op : IoOp κ υ) (io : DmrIoRegistry κ υ) : io.Keeps (op.run io) := by
  cases op with
  | regSignal sig cb userdata once allocated =>
    cases allocated with
    | false => exact refl io
    | true => exact insert io _ _
  | regRead => exact regEntry .readers io ..
  | regWrite => exact regEntry .writers io ..
  | regError => exact regEntry .errors io ..
  | regTimer timeout cb userdata once allocated =>
    cases allocated with
    | false => exact refl io
    | true =>
      -- timers are counted, and stand in no set
      refine ⟨fun h => ⟨?_, h.le_maxfd⟩, Nat.le_refl _⟩
      show io.entries + 1 = _
      rw [h.entries]
      rfl
  | delRead fd cb => exact delEntry .readers io fd cb
  | delWrite fd cb => exact delEntry .writers io fd cb
  | delError fd cb => exact delEntry .errors io fd cb
  | delTimer cb =>
    show io.Keeps (io.dmrIoDelTimer cb).2
    unfold dmrIoDelTimer
    cases htarget : io.timer.find? fun t => decide (t.cb = cb) with
    | none => exact refl io
    | some a =>
      obtain ⟨t, hmem, -⟩ := NodeList.find?_eq_some htarget
      exact unlinkTimer hmem

theorem resume {d : Dispatcher} {fd cur : Nat} {next : Option Nat}
    {r : DmrIoRegistry κ υ × Option Frame} (h : d.resume fd io cur next = some r) :
    io.Keeps r.1 := by
  obtain ⟨e, hmem, hio, -⟩ := Dispatcher.resume_eq_some_iff.mp h
  rw [hio]
  unfold Dispatcher.afterEntry
  split
  · rw [Dispatcher.reap_eq]
    exact (unlink hmem).trans (clear _ _ _)
  · exact refl io

theorem resumeTimer {cur : Nat} {next : Option Nat} {r : DmrIoRegistry κ υ × Option Frame}
    (h : resumeTimer io cur next = some r) : io.Keeps r.1 := by
  obtain ⟨t, hmem, hio, -⟩ := resumeTimer_eq_some_iff.mp h
  rw [hio]
  unfold afterTimer
  split
  · exact unlinkTimer hmem
  · refine ⟨fun h => ⟨?_, h.le_maxfd⟩, Nat.le_refl _⟩
    rw [show io.entries = _ from h.entries]
    simp only [size, NodeList.length_modify]

/-- So does every step of the loop that works on the registry. -/
theorem step [DecidableEq κ] {l l' : IoLoop κ υ} {a : IoAction κ υ} (h : l.step a = some l') :
    l.io.Keeps l'.io := by
  cases a with
  | op op =>
    cases h
    exact run op l.io
  | readable fd | writable fd | error fd | signal sig =>
    cases h
    exact refl l.io
  | timers now =>
    cases h
    exact ⟨fun h => ⟨h.entries, h.le_maxfd⟩, Nat.le_refl _⟩
  | ret value =>
    rw [IoLoop.step] at h
    split at h
    · cases h
      exact refl l.io
    · obtain ⟨r, hr, rfl⟩ := Option.map_eq_some_iff.mp h
      exact resume hr
    · obtain ⟨r, hr, rfl⟩ := Option.map_eq_some_iff.mp h
      exact resumeTimer hr

end DmrIoRegistry.Keeps

namespace EventLoop

variable [DecidableEq κ]

theorem within_eq_some {l l' : EventLoop κ υ} {a : IoAction κ υ} {control : LoopControl}
    (h : l.within a control = some l') :
    l.io.Keeps l'.io ∧ l'.control = control ∧ l'.closers = l.closers ∧ l'.closed = l.closed := by
  obtain ⟨i, hi, rfl⟩ := Option.map_eq_some_iff.mp h
  exact ⟨.step hi, rfl, rfl, rfl⟩

/-- What a step does: code of the program and the dispatchers leave the loop where it is, and
the rest is the loop's own, while no dispatch is under way. -/
theorem step_cases {l l' : EventLoop κ υ} {e : Event κ υ} (h : l.step e = some l') :
    (l.io.Keeps l'.io ∧ l'.control = l.control ∧
      (l'.closers = l.closers ∨ ∃ v, l'.closers = l.closers.insertHead v)) ∨
    (∃ cur next, l.control = .close cur next ∧ l.closeReturns cur next = some l') ∨
    ∃ now outcome, l.advance now outcome = some l' := by
  cases e with
  | op op =>
    obtain ⟨hio, hcontrol, hclosers, -⟩ := within_eq_some h
    exact .inl ⟨hio, hcontrol, .inl hclosers⟩
  | regClose cb userdata allocated =>
    cases h
    cases allocated with
    | false => exact .inl ⟨.refl _, rfl, .inl rfl⟩
    | true => exact .inl ⟨.refl _, rfl, .inr ⟨_, rfl⟩⟩
  | close =>
    cases h
    exact .inl ⟨.refl _, rfl, .inl rfl⟩
  | signal sig =>
    obtain ⟨hio, hcontrol, hclosers, -⟩ := within_eq_some h
    exact .inl ⟨hio, hcontrol, .inl hclosers⟩
  | ret value =>
    -- a callback of a dispatch, or a close handler, has returned
    rw [step] at h
    split at h
    · next cur next hframes hcontrol => exact .inr (.inl ⟨cur, next, hcontrol, h⟩)
    · obtain ⟨hio, hcontrol, hclosers, -⟩ := within_eq_some h
      exact .inl ⟨hio, hcontrol, .inl hclosers⟩
  | advance now outcome =>
    rw [step] at h
    split at h
    · exact .inr (.inr ⟨now, outcome, h⟩)
    · cases h
      exact .inl ⟨.refl _, rfl, .inl rfl⟩

end EventLoop

/-! ## Requests

The dispatches that a report of `select` asks for, in the order of the loop.
-/

/-- The dispatches for `i` among some sets. -/
def requestsAt (fds : FdSet → Finset Nat) (i : Nat) (sets : List FdSet) : List (FdSet × Nat) :=
  (sets.filter fun s => i ∈ fds s).map fun s => (s, i)

/-- The dispatches for all descriptors below `n`, in the order of the loop. -/
def requests (fds : FdSet → Finset Nat) (n : Nat) : List (FdSet × Nat) :=
  (List.range n).flatMap fun i => requestsAt fds i FdSet.scanned

theorem requests_succ (fds : FdSet → Finset Nat) (n : Nat) :
    requests fds (n + 1) = requests fds n ++ requestsAt fds n FdSet.scanned := by
  unfold requests
  rw [List.range_succ, List.flatMap_append, List.flatMap_singleton]

theorem requestsAt_append (fds : FdSet → Finset Nat) (i : Nat) (done : List FdSet) (s : FdSet) :
    requestsAt fds i (done ++ [s]) =
      requestsAt fds i done ++ if i ∈ fds s then [(s, i)] else [] := by
  unfold requestsAt
  by_cases hs : i ∈ fds s <;> simp [hs]

/-- Above the highest descriptor there is nothing. -/
theorem requests_eq {fds : FdSet → Finset Nat} {m n : Nat} (hm : ∀ s, ∀ fd ∈ fds s, fd < m)
    (hmn : m ≤ n) : requests fds n = requests fds m := by
  induction n, hmn using Nat.le_induction with
  | base => rfl
  | succ n hle ih =>
    have hnone : requestsAt fds n FdSet.scanned = [] := by
      unfold requestsAt
      rw [List.map_eq_nil_iff, List.filter_eq_nil_iff]
      intro s _ hs
      exact absurd (hm s n (of_decide_eq_true hs)) (Nat.not_lt.mpr hle)
    rw [requests_succ, hnone, List.append_nil, ih]

theorem length_requests {fds : FdSet → Finset Nat} (n : Nat) :
    (requests fds n).length = ready fun s => (fds s).filter (· < n) := by
  induction n with
  | zero =>
    simp [requests, ready]
  | succ n ih =>
    have hcard : ∀ s, ((fds s).filter (· < n + 1)).card =
        ((fds s).filter (· < n)).card + if n ∈ fds s then 1 else 0 := by
      intro s
      have hsplit : (fds s).filter (· < n + 1) =
          (fds s).filter (· < n) ∪ (fds s).filter (· = n) := by
        rw [← Finset.filter_or]
        exact Finset.filter_congr fun fd _ => by omega
      have hdisj : Disjoint ((fds s).filter (· < n)) ((fds s).filter (· = n)) :=
        Finset.disjoint_filter.mpr fun fd _ hlt heq => by omega
      rw [hsplit, Finset.card_union_of_disjoint hdisj, Finset.filter_eq']
      split <;> simp
    rw [requests_succ, List.length_append, ih]
    unfold ready
    rw [hcard, hcard, hcard]
    unfold requestsAt FdSet.scanned
    by_cases he : n ∈ fds .errors <;> by_cases hr : n ∈ fds .readers <;>
      by_cases hw : n ∈ fds .writers <;> simp [he, hr, hw] <;> omega

/-- There are as many as `select` counts. -/
theorem length_requests_of_lt {fds : FdSet → Finset Nat} {n : Nat}
    (hn : ∀ s, ∀ fd ∈ fds s, fd < n) : (requests fds n).length = ready fds := by
  have hall : (fun s => (fds s).filter (· < n)) = fds :=
    funext fun s => Finset.filter_true_of_mem (hn s)
  rw [length_requests, hall]

/-! ## Rounds

The record of a loop: for each round what was reported and what has been dispatched.
-/

/-- What `select` has returned and left in the sets, and what has been dispatched since. -/
structure Round where
  ret : Int
  reported : FdSet → Finset Nat
  dispatched : List (FdSet × Nat)

/-- All that was reported has been dispatched. -/
structure Round.Complete (r : Round) : Prop where
  dispatched : ∀ n, (∀ s, ∀ fd ∈ r.reported s, fd < n) → r.dispatched = requests r.reported n
  ret : r.ret = -1 ∨ r.ret = r.dispatched.length

/-- A round begins when `select` has returned. -/
def Round.note (l l' : EventLoop κ υ) (rounds : List Round) : List Round :=
  match l.control, l'.control with
  | .select _ _, .scan ret fds _ _ _ => ⟨ret, fds, []⟩ :: rounds
  | .scan _ _ i (s :: _) handled, .scan _ _ _ _ handled' =>
    if handled < handled' then
      rounds.modifyHead fun r => { r with dispatched := r.dispatched ++ [(s, i)] }
    else rounds
  | _, _ => rounds

namespace EventLoop

/-- All rounds but the one under way are complete, and that one is as far as the loop is. -/
def RoundsAt (maxfd : Nat) (rounds : List Round) : LoopControl → Prop
  | .select fds _ => (∀ s, ∀ fd ∈ fds s, fd ≤ maxfd) ∧ ∀ r ∈ rounds, r.Complete
  | .scan ret fds i todo handled => (∀ s, ∀ fd ∈ fds s, fd ≤ maxfd) ∧
      (ret = -1 ∨ ret = ready fds) ∧ ∃ done complete, done ++ todo = FdSet.scanned ∧
        rounds = ⟨ret, fds, requests fds i ++ requestsAt fds i done⟩ :: complete ∧
        handled = (requests fds i ++ requestsAt fds i done).length ∧
        ∀ r ∈ complete, r.Complete
  | _ => ∀ r ∈ rounds, r.Complete

/-- The invariant of the rounds. -/
structure RoundsInv (l : EventLoop κ υ) (rounds : List Round) : Prop where
  counts : l.io.Counts
  rounds : RoundsAt l.io.maxfd rounds l.control

theorem RoundsAt.mono {maxfd maxfd' : Nat} {rounds : List Round} {control : LoopControl}
    (h : RoundsAt maxfd rounds control) (hle : maxfd ≤ maxfd') :
    RoundsAt maxfd' rounds control := by
  cases control with
  | select fds timeout => exact ⟨fun s fd hfd => (h.1 s fd hfd).trans hle, h.2⟩
  | scan ret fds i todo handled => exact ⟨fun s fd hfd => (h.1 s fd hfd).trans hle, h.2⟩
  | idle | check | close cur next => exact h

/-- Where the loop stays where it is, nothing is noted. -/
theorem note_of_control_eq {l l' : EventLoop κ υ} (h : l'.control = l.control)
    (rounds : List Round) : Round.note l l' rounds = rounds := by
  unfold Round.note
  rw [h]
  cases l.control with
  | scan ret fds i todo handled =>
    cases todo with
    | nil => rfl
    | cons s todo => exact if_neg (Nat.lt_irrefl _)
  | idle | check | select fds timeout | close cur next => rfl

/-- Between `io_handle_close` and the next call nothing is noted either. -/
theorem roundsAt_closeFrom {maxfd : Nat} {rounds : List Round} (h : ∀ r ∈ rounds, r.Complete)
    (cells : List (Nat × DmrIoEntry κ υ)) : RoundsAt maxfd rounds (closeFrom cells) := by
  cases cells <;> exact h

theorem RoundsInv.checked {l : EventLoop κ υ} {rounds : List Round} (h : l.RoundsInv rounds)
    (hcontrol : l.control = .check) (now : Timeval) :
    (l.checked now).RoundsInv (Round.note l (l.checked now) rounds) := by
  have hnote : Round.note l (l.checked now) rounds = rounds := by
    unfold Round.note
    rw [hcontrol]
  have hrounds := h.rounds
  rw [hcontrol] at hrounds
  rw [hnote]
  unfold EventLoop.checked
  split
  · exact ⟨⟨h.counts.entries, h.counts.le_maxfd⟩, h.counts.le_maxfd, hrounds⟩
  · exact ⟨h.counts, roundsAt_closeFrom hrounds _⟩

variable [DecidableEq κ]

theorem RoundsInv.serve {l l' : EventLoop κ υ} {rounds : List Round} {fds : FdSet → Finset Nat}
    {timeout : Option Timeval} (h : l.RoundsInv rounds) (hcontrol : l.control = .select fds timeout)
    {now : Timeval} {ret : Int} {left : FdSet → Finset Nat} (hleft : ∀ s, left s ⊆ fds s)
    (hret : ret = -1 ∨ ret = ready left) (hserve : l.serve now ret left = some l') :
    l'.RoundsInv (Round.note l l' rounds) := by
  obtain ⟨hio, hcontrol', -, -⟩ := within_eq_some hserve
  have hrounds := h.rounds
  rw [hcontrol] at hrounds
  refine ⟨hio.counts h.counts, ?_⟩
  unfold Round.note
  rw [hcontrol, hcontrol']
  refine ⟨fun s fd hfd => (hrounds.1 s fd (hleft s hfd)).trans hio.maxfd, hret, [], rounds, rfl,
    rfl, rfl, hrounds.2⟩

theorem RoundsInv.selected {l l' : EventLoop κ υ} {rounds : List Round}
    {fds : FdSet → Finset Nat} {timeout : Option Timeval} (h : l.RoundsInv rounds)
    (hcontrol : l.control = .select fds timeout) {now : Timeval} {outcome : SelectOutcome}
    (hselected : l.selected fds timeout now outcome = some l') :
    l'.RoundsInv (Round.note l l' rounds) := by
  cases outcome with
  | again =>
    cases hselected
    have hrounds := h.rounds
    rw [hcontrol] at hrounds
    refine ⟨h.counts, ?_⟩
    unfold Round.note
    rw [hcontrol]
    exact hrounds
  | failed => exact h.serve hcontrol (fun s => subset_rfl) (.inl rfl) hselected
  | ready report =>
    rw [EventLoop.selected] at hselected
    split at hselected
    · cases hselected
      rw [note_of_control_eq rfl]
      exact h
    · exact h.serve hcontrol (fun s => Finset.inter_subset_left) (.inr rfl) hselected

/-- The set at the head of `todo` is looked up. -/
theorem requests_push {fds : FdSet → Finset Nat} (i : Nat) (done : List FdSet) {s : FdSet} :
    requests fds i ++ requestsAt fds i (done ++ [s]) =
      (requests fds i ++ requestsAt fds i done) ++ if i ∈ fds s then [(s, i)] else [] := by
  rw [requestsAt_append, List.append_assoc]

theorem RoundsInv.scan {l l' : EventLoop κ υ} {rounds : List Round} {ret : Int}
    {fds : FdSet → Finset Nat} {i : Nat} {todo : List FdSet} {handled : Nat}
    (h : l.RoundsInv rounds) (hcontrol : l.control = .scan ret fds i todo handled)
    (hscan : l.scan ret fds i todo handled = some l') :
    l'.RoundsInv (Round.note l l' rounds) := by
  have hrounds := h.rounds
  rw [hcontrol] at hrounds
  obtain ⟨hle, hret, done, complete, hdone, hnoted, hhandled, hcomplete⟩ := hrounds
  cases todo with
  | nil =>
    rw [List.append_nil] at hdone
    subst hdone
    rw [← requests_succ] at hnoted hhandled
    cases hscan
    refine ⟨h.counts, ?_⟩
    unfold Round.note
    rw [hcontrol]
    dsimp only
    split
    · exact ⟨hle, hret, [], complete, rfl, by rw [hnoted]; simp [requestsAt],
        by rw [hhandled]; simp [requestsAt], hcomplete⟩
    · -- the highest descriptor has been looked up
      next hlast =>
      have hlt : ∀ s, ∀ fd ∈ fds s, fd < i + 1 := fun s fd hfd => by
        have hmax := hle s fd hfd
        omega
      show ∀ r ∈ rounds, r.Complete
      rw [hnoted, List.forall_mem_cons]
      refine ⟨⟨?_, ?_⟩, hcomplete⟩
      · intro n hn
        show requests fds (i + 1) = requests fds n
        obtain hlen | hlen := Nat.le_total (i + 1) n
        · exact (requests_eq hlt hlen).symm
        · exact requests_eq hn hlen
      · show ret = -1 ∨ ret = (requests fds (i + 1)).length
        rw [length_requests_of_lt hlt]
        exact hret
  | cons s todo =>
    have hdone' : (done ++ [s]) ++ todo = FdSet.scanned := by
      rw [← hdone, List.append_assoc]
      rfl
    rw [EventLoop.scan] at hscan
    by_cases hfd : i ∈ fds s
    · rw [if_pos hfd] at hscan
      obtain ⟨hio, hcontrol', -, -⟩ := within_eq_some hscan
      refine ⟨hio.counts h.counts, ?_⟩
      unfold Round.note
      rw [hcontrol, hcontrol']
      dsimp only
      rw [if_pos (Nat.lt_succ_self handled), hnoted]
      refine ⟨fun s fd hfd => (hle s fd hfd).trans hio.maxfd, hret, done ++ [s], complete, hdone',
        ?_, ?_, hcomplete⟩
      · rw [requests_push, if_pos hfd]
        rfl
      · rw [requests_push, if_pos hfd, List.length_append, ← hhandled]
        rfl
    · rw [if_neg hfd] at hscan
      cases hscan
      refine ⟨h.counts, ?_⟩
      unfold Round.note
      rw [hcontrol]
      dsimp only
      rw [if_neg (Nat.lt_irrefl handled)]
      refine ⟨hle, hret, done ++ [s], complete, hdone', ?_, ?_, hcomplete⟩
      · rw [requests_push, if_neg hfd, List.append_nil]
        exact hnoted
      · rw [requests_push, if_neg hfd, List.append_nil]
        exact hhandled

/-- Every step keeps the invariant. -/
theorem RoundsInv.step {l l' : EventLoop κ υ} {rounds : List Round} {e : Event κ υ}
    (h : l.RoundsInv rounds) (hstep : l.step e = some l') :
    l'.RoundsInv (Round.note l l' rounds) := by
  obtain ⟨hio, hcontrol, -⟩ | ⟨cur, next, hcontrol, hreturns⟩ | ⟨now, outcome, hadvance⟩ :=
    step_cases hstep
  -- no round begins or goes on while other code runs
  · rw [note_of_control_eq hcontrol]
    exact ⟨hio.counts h.counts, hcontrol ▸ h.rounds.mono hio.maxfd⟩
  -- the loop is over, and its rounds stay what they are
  · have hrounds := h.rounds
    rw [hcontrol] at hrounds
    have hnote : Round.note l l' rounds = rounds := by
      unfold Round.note
      rw [hcontrol]
    rw [hnote]
    cases next with
    | none =>
      cases hreturns
      exact ⟨h.counts, hrounds⟩
    | some a =>
      obtain ⟨cells, -, rfl⟩ := Option.map_eq_some_iff.mp hreturns
      exact ⟨h.counts, roundsAt_closeFrom hrounds cells⟩
  -- where the loop itself goes on, each of its points has a lemma
  · rw [EventLoop.advance] at hadvance
    split at hadvance
    · next hcontrol =>
      cases hadvance
      have hrounds := h.rounds
      rw [hcontrol] at hrounds
      have hnote : Round.note l { l with closed := false, control := .check } rounds = rounds := by
        unfold Round.note
        rw [hcontrol]
      rw [hnote]
      exact ⟨h.counts, hrounds⟩
    · next hcontrol =>
      cases hadvance
      exact h.checked hcontrol now
    · next fds timeout hcontrol => exact h.selected hcontrol hadvance
    · next ret fds i todo handled hcontrol => exact h.scan hcontrol hadvance
    · next cur next hcontrol =>
      cases hadvance
      rw [note_of_control_eq rfl]
      exact h

/-- The loop is at the end of the descriptors and has dispatched less than `select` has
returned. -/
def Warns (l : EventLoop κ υ) : Prop :=
  ∃ ret fds i handled, l.control = .scan ret fds i [] handled ∧ l.io.maxfd ≤ i ∧
    (handled : Int) < ret

omit [DecidableEq κ] in
theorem RoundsInv.not_warns {l : EventLoop κ υ} {rounds : List Round} (h : l.RoundsInv rounds) :
    ¬ l.Warns := by
  rintro ⟨ret, fds, i, handled, hcontrol, hlast, hlt⟩
  have hrounds := h.rounds
  rw [hcontrol] at hrounds
  obtain ⟨hle, hret, done, complete, hdone, -, hhandled, -⟩ := hrounds
  rw [List.append_nil] at hdone
  subst hdone
  have hlt : ∀ s, ∀ fd ∈ fds s, fd < i + 1 := fun s fd hfd => by
    have hmax := hle s fd hfd
    omega
  rw [← requests_succ, length_requests_of_lt hlt] at hhandled
  omega

/-- The rounds that are over. -/
def finished (l : EventLoop κ υ) (rounds : List Round) : List Round :=
  match l.control with
  | .scan _ _ _ _ _ => rounds.tail
  | _ => rounds

/-- **Rounds.** In every run the rounds that are over have dispatched what `select` had left in
the sets, and no event goes unhandled. -/
theorem rounds_complete {now : Timeval} {es : List (Event κ υ)} {l : EventLoop κ υ}
    {rounds : List Round} (h : after (recorded step Round.note) (start now, []) es =
      some (l, rounds)) : (∀ r ∈ l.finished rounds, r.Complete) ∧ ¬ l.Warns := by
  have hstart : RoundsInv (start now : EventLoop κ υ) [] := by
    refine ⟨⟨rfl, fun s fd hfd => absurd hfd (Finset.notMem_empty fd)⟩, ?_⟩
    intro r hr
    cases hr
  have hinv : RoundsInv l rounds :=
    inv_after_recorded (I := RoundsInv) (fun l e l' rounds h hstep => h.step hstep) hstart h
  refine ⟨?_, hinv.not_warns⟩
  have hrounds := hinv.rounds
  unfold finished
  split
  · next hcontrol =>
    rw [hcontrol] at hrounds
    obtain ⟨-, -, done, complete, -, rfl, -, hcomplete⟩ := hrounds
    exact hcomplete
  · next hno =>
    cases hcontrol : l.control with
    | scan ret fds i todo handled => exact absurd hcontrol (hno ret fds i todo handled)
    | idle | check | close cur next =>
      rw [hcontrol] at hrounds
      exact hrounds
    | select fds timeout =>
      rw [hcontrol] at hrounds
      exact hrounds.2

/-- A reader and a writer of one descriptor, which is ready for both. -/
def twoRequests : List (Event Nat Unit) :=
  [.op (.regRead 0 1 () false true), .op (.regWrite 0 2 () true true), .advance ⟨0, 0⟩ .again,
    .advance ⟨1, 0⟩ .again, .advance ⟨2, 0⟩ (.ready fun _ => {0}), .advance ⟨2, 0⟩ .again,
    .advance ⟨2, 0⟩ .again, .ret 0, .advance ⟨2, 0⟩ .again, .ret 0, .advance ⟨2, 0⟩ .again]

theorem rounds_complete_twoRequests :
    ∃ l rounds, after (recorded step Round.note) (start ⟨0, 0⟩, []) twoRequests =
        some (l, rounds) ∧
      rounds.map Round.dispatched = [[(.readers, 0), (.writers, 0)]] ∧
      (∀ r ∈ l.finished rounds, r.Complete) ∧ ¬ l.Warns :=
  ⟨_, _, rfl, rfl, @rounds_complete _ _ _ ⟨0, 0⟩ twoRequests _ _ rfl⟩

end EventLoop

end Dmrlib
