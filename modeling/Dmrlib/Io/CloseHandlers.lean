import Dmrlib.Io.EventLoopRounds

/-!
# How the loop ends

The loop goes on as long as something is registered and no callback has asked for its end,
and then calls the close handlers, the newest first. A close handler may register others, but
they go in front of the list, where the loop has been already: they wait for the end of the
next loop. So each close handler is called once, at the end of the first loop that ends after
it was registered (`EventLoop.close_handlers`), and `io_handle_close` never follows a node that
was freed.

- `Closing`: the handlers that were registered when the loop ended, and those called since.
- `Ledger`: each handler that was ever registered has been called or is on the list, not both.
- `ClosingsInv`: the invariant of a loop and of the record of its ends.
- `close_handlers`: every closing that is over is complete, and no handler is called twice.
-/

namespace Dmrlib

open Run

variable {κ υ : Type}

/-- The close handlers that were registered when a loop ended, and those it has called since. -/
structure Closing where
  registered : List Nat
  called : List Nat

/-- All handlers have been called, in the order of the list. -/
def Closing.Complete (c : Closing) : Prop := c.called = c.registered

/-- A closing begins when the loop leaves the `while`. -/
def Closing.note (l l' : EventLoop κ υ) (closings : List Closing) : List Closing :=
  match l.control, l'.control with
  | .check, .idle => ⟨l.closers.cells.map Prod.fst, []⟩ :: closings
  | .check, .close cur _ => ⟨l.closers.cells.map Prod.fst, [cur]⟩ :: closings
  | .close cur _, .close cur' _ =>
    if cur = cur' then closings
    else closings.modifyHead fun c => { c with called := c.called ++ [cur'] }
  | _, _ => closings

/-- The handlers that were called are no longer in the list, and all others are. -/
def Ledger (closings : List Closing) (waiting : List Nat) (brk : Nat) : Prop :=
  ((closings.flatMap Closing.called) ++ waiting).Perm (List.range brk)

theorem Ledger.register {closings : List Closing} {waiting : List Nat} {brk : Nat}
    (h : Ledger closings waiting brk) : Ledger closings (brk :: waiting) (brk + 1) := by
  unfold Ledger at h ⊢
  rw [List.range_succ]
  exact List.perm_middle.trans ((h.cons brk).trans (List.perm_append_singleton brk _).symm)

/-- The next handler in the list is called. -/
theorem Ledger.call {c : Closing} {closings : List Closing} {new rest : List Nat} {a brk : Nat}
    (h : Ledger (c :: closings) (new ++ a :: rest) brk) :
    Ledger (⟨c.registered, c.called ++ [a]⟩ :: closings) (new ++ rest) brk := by
  unfold Ledger at h ⊢
  refine List.Perm.trans ?_ h
  simp only [List.flatMap_cons, List.append_assoc]
  refine List.Perm.append_left _ ?_
  show (a :: (closings.flatMap Closing.called ++ (new ++ rest))).Perm _
  rw [← List.append_assoc, ← List.append_assoc]
  exact List.perm_middle.symm

namespace EventLoop

/-- All closings but the one under way are complete. In that one the handlers in `rest` are
still to be called, and those in front of `cur` were registered since. -/
def ClosingsAt (closers : NodeList (DmrIoEntry κ υ)) (closings : List Closing) :
    LoopControl → Prop
  | .close cur next => ∃ new e rest c complete, closers.cells = new ++ (cur, e) :: rest ∧
      next = rest.head?.map Prod.fst ∧ closings = c :: complete ∧
      c.registered = c.called ++ rest.map Prod.fst ∧ (∀ c ∈ complete, c.Complete) ∧
      Ledger closings (new.map Prod.fst ++ rest.map Prod.fst) closers.brk
  | _ => (∀ c ∈ closings, c.Complete) ∧ Ledger closings (closers.cells.map Prod.fst) closers.brk

/-- The invariant of the close handlers. -/
structure ClosingsInv (l : EventLoop κ υ) (closings : List Closing) : Prop where
  counts : l.io.Counts
  closings : ClosingsAt l.closers closings l.control

theorem ClosingsAt.insertHead {closers : NodeList (DmrIoEntry κ υ)} {closings : List Closing}
    {control : LoopControl} (h : ClosingsAt closers closings control) (v : DmrIoEntry κ υ) :
    ClosingsAt (closers.insertHead v) closings control := by
  cases control with
  | close cur next =>
    obtain ⟨new, e, rest, c, complete, hcells, hnext, hclosings, hreg, hcomplete, hledger⟩ := h
    refine ⟨(closers.brk, v) :: new, e, rest, c, complete, ?_, hnext, hclosings, hreg, hcomplete,
      hledger.register⟩
    show (closers.brk, v) :: closers.cells = _
    rw [hcells]
    rfl
  | idle | check | select fds timeout | scan ret fds i todo handled =>
    exact ⟨h.1, h.2.register⟩

/-- A closing begins. -/
theorem closingsAt_closeFrom {closers : NodeList (DmrIoEntry κ υ)} {closings : List Closing}
    (hcomplete : ∀ c ∈ closings, c.Complete)
    (hledger : Ledger closings (closers.cells.map Prod.fst) closers.brk) :
    ClosingsAt closers (⟨closers.cells.map Prod.fst, (closers.cells.map Prod.fst).take 1⟩ ::
      closings) (closeFrom closers.cells) := by
  cases hcells : closers.cells with
  | nil =>
    rw [hcells] at hledger
    refine ⟨List.forall_mem_cons.mpr ⟨rfl, hcomplete⟩, ?_⟩
    rw [hcells]
    exact hledger
  | cons c cells =>
    rw [hcells] at hledger
    have hfirst : Ledger (⟨c.1 :: cells.map Prod.fst, []⟩ :: closings)
        ([] ++ c.1 :: cells.map Prod.fst) closers.brk := hledger
    have hcall := hfirst.call
    exact ⟨[], c.2, cells, _, closings, hcells, rfl, rfl, rfl, hcomplete, hcall⟩

/-- The callback of a close handler returns: it is freed, and the next one is called. -/
theorem ClosingsInv.closeReturns {l : EventLoop κ υ} {closings : List Closing}
    (h : l.ClosingsInv closings) {cur : Nat} {next : Option Nat}
    (hcontrol : l.control = .close cur next) :
    ∃ l', l.closeReturns cur next = some l' ∧ l'.ClosingsInv (Closing.note l l' closings) := by
  have hclosings := h.closings
  rw [hcontrol] at hclosings
  obtain ⟨new, e, rest, c, complete, hcells, rfl, rfl, hreg, hcomplete, hledger⟩ := hclosings
  have hremove : (l.closers.remove cur).cells = new ++ rest := NodeList.remove_append hcells
  -- the handler that has returned is freed, after its successor was read
  cases rest with
  | nil =>
    refine ⟨_, rfl, h.counts, ?_⟩
    unfold Closing.note
    rw [hcontrol]
    rw [List.map_nil, List.append_nil] at hreg hledger
    rw [List.append_nil] at hremove
    refine ⟨List.forall_mem_cons.mpr ⟨hreg.symm, hcomplete⟩, ?_⟩
    show Ledger _ ((l.closers.remove cur).cells.map Prod.fst) _
    rw [hremove]
    exact hledger
  | cons d rest =>
    have hsuffix : (l.closers.remove cur).suffix d.1 = some (d :: rest) :=
      NodeList.suffix_append hremove
    have hreturns : l.closeReturns cur (some d.1) = some { l with
        closers := l.closers.remove cur
        control := .close d.1 (rest.head?.map Prod.fst) } := by
      unfold EventLoop.closeReturns
      dsimp only
      rw [hsuffix]
      rfl
    -- the next one has another address, so its call is noted
    have hne : cur ≠ d.1 := ((NodeList.ne_of_append hcells).2 d List.mem_cons_self).symm
    refine ⟨_, hreturns, h.counts, ?_⟩
    unfold Closing.note
    rw [hcontrol]
    dsimp only
    rw [if_neg hne]
    refine ⟨new, d.2, rest, ⟨c.registered, c.called ++ [d.1]⟩, complete, hremove, rfl, rfl, ?_,
      hcomplete, hledger.call⟩
    show c.registered = c.called ++ [d.1] ++ rest.map Prod.fst
    rw [hreg, List.append_assoc]
    rfl

/-- The loop has left its place, but not for `io_handle_close`. -/
theorem note_of_control_ne {l l' : EventLoop κ υ} (hcheck : l.control ≠ .check)
    (hclose : ∀ cur next, l.control ≠ .close cur next) (closings : List Closing) :
    Closing.note l l' closings = closings := by
  unfold Closing.note
  cases hcontrol : l.control with
  | check => exact absurd hcontrol hcheck
  | close cur next => exact absurd hcontrol (hclose cur next)
  | idle | select fds timeout | scan ret fds i todo handled => rfl

/-- What the loop does elsewhere leaves the close handlers alone. -/
theorem ClosingsInv.elsewhere {l l' : EventLoop κ υ} {closings : List Closing}
    (h : l.ClosingsInv closings) (hcheck : l.control ≠ .check)
    (hclose : ∀ cur next, l.control ≠ .close cur next) (hio : l.io.Keeps l'.io)
    (hclosers : l'.closers = l.closers) (hclose' : ∀ cur next, l'.control ≠ .close cur next) :
    l'.ClosingsInv (Closing.note l l' closings) := by
  rw [note_of_control_ne hcheck hclose]
  refine ⟨hio.counts h.counts, ?_⟩
  have hclosings := h.closings
  rw [hclosers]
  cases hcontrol : l.control with
  | check => exact absurd hcontrol hcheck
  | close cur next => exact absurd hcontrol (hclose cur next)
  | idle | select fds timeout | scan ret fds i todo handled =>
    rw [hcontrol] at hclosings
    cases hcontrol' : l'.control with
    | close cur next => exact absurd hcontrol' (hclose' cur next)
    | idle | check | select fds timeout | scan ret fds i todo handled => exact hclosings

theorem closing_note_of_control_eq {l l' : EventLoop κ υ} (h : l'.control = l.control)
    (closings : List Closing) : Closing.note l l' closings = closings := by
  unfold Closing.note
  rw [h]
  cases l.control with
  | close cur next => exact if_pos rfl
  | idle | check | select fds timeout | scan ret fds i todo handled => rfl

/-- The loop goes on, or a closing begins. -/
theorem ClosingsInv.checked {l : EventLoop κ υ} {closings : List Closing}
    (h : l.ClosingsInv closings) (hcontrol : l.control = .check) (now : Timeval) :
    (l.checked now).ClosingsInv (Closing.note l (l.checked now) closings) := by
  have hclosings := h.closings
  rw [hcontrol] at hclosings
  unfold EventLoop.checked
  split
  · have hnote : Closing.note l { l with
        io := { l.io with wallclock := now }
        control := .select l.io.fds (selectTimeout { l.io with wallclock := now }) } closings =
        closings := by
      unfold Closing.note
      rw [hcontrol]
    rw [hnote]
    exact ⟨⟨h.counts.entries, h.counts.le_maxfd⟩, hclosings⟩
  · have hnote : Closing.note l { l with control := closeFrom l.closers.cells } closings =
        ⟨l.closers.cells.map Prod.fst, (l.closers.cells.map Prod.fst).take 1⟩ :: closings := by
      unfold Closing.note
      rw [hcontrol]
      cases hcells : l.closers.cells <;> rfl
    rw [hnote]
    exact ⟨h.counts, closingsAt_closeFrom hclosings.1 hclosings.2⟩

variable [DecidableEq κ]

theorem ClosingsInv.selected {l l' : EventLoop κ υ} {closings : List Closing}
    (h : l.ClosingsInv closings) {fds : FdSet → Finset Nat} {timeout : Option Timeval}
    (hcontrol : l.control = .select fds timeout) {now : Timeval} {outcome : SelectOutcome}
    (hselected : l.selected fds timeout now outcome = some l') :
    l'.ClosingsInv (Closing.note l l' closings) := by
  have hserve : ∀ ret left, l.serve now ret left = some l' →
      l'.ClosingsInv (Closing.note l l' closings) := by
    intro ret left hserve
    obtain ⟨hio, hcontrol', hclosers, -⟩ := within_eq_some hserve
    exact h.elsewhere (by simp [hcontrol]) (by simp [hcontrol]) hio hclosers (by simp [hcontrol'])
  cases outcome with
  | again =>
    cases hselected
    exact h.elsewhere (by simp [hcontrol]) (by simp [hcontrol]) (.refl _) rfl (by simp)
  | failed => exact hserve _ _ hselected
  | ready report =>
    rw [EventLoop.selected] at hselected
    split at hselected
    · cases hselected
      rw [closing_note_of_control_eq rfl]
      exact h
    · exact hserve _ _ hselected

theorem ClosingsInv.scan {l l' : EventLoop κ υ} {closings : List Closing}
    (h : l.ClosingsInv closings) {ret : Int} {fds : FdSet → Finset Nat} {i : Nat}
    {todo : List FdSet} {handled : Nat} (hcontrol : l.control = .scan ret fds i todo handled)
    (hscan : l.scan ret fds i todo handled = some l') :
    l'.ClosingsInv (Closing.note l l' closings) := by
  have hcheck : l.control ≠ .check := by simp [hcontrol]
  have hclose : ∀ cur next, l.control ≠ .close cur next := by simp [hcontrol]
  cases todo with
  | nil =>
    cases hscan
    refine h.elsewhere hcheck hclose (.refl _) rfl fun cur next => ?_
    dsimp only
    split <;> exact nofun
  | cons s todo =>
    rw [EventLoop.scan] at hscan
    split at hscan
    · obtain ⟨hio, hcontrol', hclosers, -⟩ := within_eq_some hscan
      exact h.elsewhere hcheck hclose hio hclosers (by simp [hcontrol'])
    · cases hscan
      exact h.elsewhere hcheck hclose (.refl _) rfl (by simp)

/-- Every step keeps the invariant. -/
theorem ClosingsInv.step {l l' : EventLoop κ υ} {closings : List Closing} {e : Event κ υ}
    (h : l.ClosingsInv closings) (hstep : l.step e = some l') :
    l'.ClosingsInv (Closing.note l l' closings) := by
  obtain ⟨hio, hcontrol, hclosers⟩ | ⟨cur, next, hcontrol, hreturns⟩ | ⟨now, outcome, hadvance⟩ :=
    step_cases hstep
  -- something else than the loop ran: at most a handler was put in front
  · rw [closing_note_of_control_eq hcontrol]
    refine ⟨hio.counts h.counts, ?_⟩
    rw [hcontrol]
    obtain hsame | ⟨v, hinsert⟩ := hclosers
    · rw [hsame]
      exact h.closings
    · rw [hinsert]
      exact h.closings.insertHead v
  -- a close handler returned
  · obtain ⟨l'', hreturns', hinv⟩ := h.closeReturns hcontrol
    cases hreturns'.symm.trans hreturns
    exact hinv
  -- the loop itself went on
  · rw [EventLoop.advance] at hadvance
    split at hadvance
    · next hcontrol =>
      cases hadvance
      exact h.elsewhere (by simp [hcontrol]) (by simp [hcontrol]) (.refl _) rfl (by simp)
    · next hcontrol =>
      cases hadvance
      exact h.checked hcontrol now
    · next fds timeout hcontrol => exact h.selected hcontrol hadvance
    · next ret fds i todo handled hcontrol => exact h.scan hcontrol hadvance
    · next cur next hcontrol =>
      cases hadvance
      rw [closing_note_of_control_eq rfl]
      exact h

/-- The closings that are over. -/
def ended (l : EventLoop κ υ) (closings : List Closing) : List Closing :=
  match l.control with
  | .close _ _ => closings.tail
  | _ => closings

/-- **The end of the loop.** In every run the loop goes on exactly while something is
registered and no end was asked for. A closing calls all handlers that were registered when it
began, in the order of the list, and between closings each handler ever registered has been
called once or is still in the list. -/
theorem close_handlers {now : Timeval} {es : List (Event κ υ)} {l : EventLoop κ υ}
    {closings : List Closing}
    (h : after (recorded step Closing.note) (start now, []) es = some (l, closings)) :
    (l.Continues ↔ 0 < l.io.size ∧ l.closed = false) ∧
      (∀ cur next, l.control = .close cur next → ∃ l', l.closeReturns cur next = some l') ∧
      (∀ c ∈ l.ended closings, c.Complete) ∧
      ((∀ cur next, l.control ≠ .close cur next) →
        Ledger closings (l.closers.cells.map Prod.fst) l.closers.brk) := by
  have hstart : ClosingsInv (start now : EventLoop κ υ) [] := by
    refine ⟨⟨rfl, fun s fd hfd => absurd hfd (Finset.notMem_empty fd)⟩, ?_, ?_⟩
    · intro c hc
      cases hc
    · exact List.Perm.nil
  have hinv : ClosingsInv l closings :=
    inv_after_recorded (I := ClosingsInv) (fun l e l' closings h hstep => h.step hstep) hstart h
  refine ⟨?_, ?_, ?_, ?_⟩
  · unfold Continues
    rw [hinv.counts.entries, Nat.cast_pos]
  -- `io_handle_close` follows no freed node
  · intro cur next hcontrol
    obtain ⟨l', hreturns, -⟩ := hinv.closeReturns hcontrol
    exact ⟨l', hreturns⟩
  -- closings that are over; the one under way is not among them
  · have hclosings := hinv.closings
    unfold ended
    split
    · next hcontrol =>
      rw [hcontrol] at hclosings
      obtain ⟨new, e, rest, c, complete, -, -, rfl, -, hcomplete, -⟩ := hclosings
      exact hcomplete
    · next hno =>
      cases hcontrol : l.control with
      | close cur next => exact absurd hcontrol (hno cur next)
      | idle | check | select fds timeout | scan ret fds i todo handled =>
        rw [hcontrol] at hclosings
        exact hclosings.1
  · intro hno
    have hclosings := hinv.closings
    cases hcontrol : l.control with
    | close cur next => exact absurd hcontrol (hno cur next)
    | idle | check | select fds timeout | scan ret fds i todo handled =>
      rw [hcontrol] at hclosings
      exact hclosings.2

/-- Two close handlers, of which the one that is called first registers a third. -/
def threeHandlers : List (Event Nat Unit) :=
  [.regClose 1 () true, .regClose 2 () true, .advance ⟨0, 0⟩ .again, .advance ⟨0, 0⟩ .again,
    .regClose 3 () true, .ret 0, .ret 0]

theorem close_handlers_threeHandlers :
    ∃ l closings, after (recorded step Closing.note) (start ⟨0, 0⟩, []) threeHandlers =
        some (l, closings) ∧
      closings.map Closing.called = [[1, 0]] ∧ l.closers.cells.map Prod.fst = [2] ∧
      (l.Continues ↔ 0 < l.io.size ∧ l.closed = false) ∧
      (∀ cur next, l.control = .close cur next → ∃ l', l.closeReturns cur next = some l') ∧
      (∀ c ∈ l.ended closings, c.Complete) ∧
      ((∀ cur next, l.control ≠ .close cur next) →
        Ledger closings (l.closers.cells.map Prod.fst) l.closers.brk) :=
  ⟨_, _, rfl, rfl, rfl, @close_handlers _ _ _ ⟨0, 0⟩ threeHandlers _ _ rfl⟩

end EventLoop

end Dmrlib
