import Dmrlib.Io.Registry

/-!
# How a dispatch goes on

What can be said when a callback has returned. `Dispatcher.resume_eq_some_iff` and
`resumeTimer_eq_some_iff` say what becomes of the registry and where the dispatcher
goes on; `Dispatcher.resume_append` and `resumeTimer_append` say it of a list that is
split at the node in question, when the saved successor is the one that the list
shows.

- `Dispatcher.seek_none`: a dispatch that finds no entry ends.
- `Dispatcher.resume_stays`, `Dispatcher.resume_gone`: a dispatch ends behind the last entry of its
  descriptor, and reads what was freed when its entry is gone.
- `cells_regEntry`, `notMem_delEntry`: which entries there are after a registration, and after a
  removal.
-/

namespace Dmrlib

variable {κ υ : Type}

/-- The list of a dispatcher that has removed a one-shot entry. -/
theorem Dispatcher.entry_reap (d : Dispatcher) (fd : Nat) (io : DmrIoRegistry κ υ) (cur : Nat) :
    (d.reap fd io cur).entry d.request = (io.entry d.request).remove cur := by
  have hentry : (d.reap fd io cur).entry = (io.unlink d.request cur).entry := by
    unfold Dispatcher.reap
    cases d.clears <;> rfl
  rw [hentry]
  exact Function.update_self _ _ _

theorem Dispatcher.resume_eq_some_iff {d : Dispatcher} {fd : Nat} {io : DmrIoRegistry κ υ}
    {cur : Nat} {next : Option Nat} {r : DmrIoRegistry κ υ × Option Frame} :
    d.resume fd io cur next = some r ↔
      ∃ e, (cur, e) ∈ (io.entry d.request).cells ∧ r.1 = d.afterEntry fd io cur e ∧
        d.seekFrom fd r.1 next = some r.2 := by
  unfold Dispatcher.resume
  simp only [Option.bind_eq_bind, Option.bind_eq_some_iff, Option.pure_def, Option.some.injEq,
    NodeList.get?_eq_some_iff]
  constructor
  · rintro ⟨e, he, frame, hframe, rfl⟩
    exact ⟨e, he, rfl, hframe⟩
  · rintro ⟨e, he, hio, hframe⟩
    rw [hio] at hframe
    exact ⟨e, he, r.2, hframe, Prod.ext hio.symm rfl⟩

theorem resumeTimer_eq_some_iff {io : DmrIoRegistry κ υ} {cur : Nat} {next : Option Nat}
    {r : DmrIoRegistry κ υ × Option Frame} :
    resumeTimer io cur next = some r ↔
      ∃ t, (cur, t) ∈ io.timer.cells ∧ r.1 = afterTimer io cur t ∧
        seekTimerFrom r.1 next = some r.2 := by
  unfold resumeTimer
  simp only [Option.bind_eq_bind, Option.bind_eq_some_iff, Option.pure_def, Option.some.injEq,
    NodeList.get?_eq_some_iff]
  constructor
  · rintro ⟨t, ht, frame, hframe, rfl⟩
    exact ⟨t, ht, rfl, hframe⟩
  · rintro ⟨t, ht, hio, hframe⟩
    rw [hio] at hframe
    exact ⟨t, ht, r.2, hframe, Prod.ext hio.symm rfl⟩

/-! ## Where it goes on -/

/-- The dispatcher goes on to an entry of its list, for its descriptor, with the
successor that the list shows. -/
theorem Dispatcher.seekFrom_cases {d : Dispatcher} {fd : Nat} {io : DmrIoRegistry κ υ}
    {next : Option Nat} {frame : Option Frame} (h : d.seekFrom fd io next = some frame) :
    frame = none ∨ ∃ pre c rest, (io.entry d.request).cells = pre ++ c :: rest ∧ c.2.fd = fd ∧
      frame = some (.entry d fd c.1 (rest.head?.map Prod.fst)) := by
  unfold Dispatcher.seekFrom at h
  split at h
  · obtain ⟨cells, hcells, rfl⟩ := Option.map_eq_some_iff.mp h
    obtain ⟨ahead, hahead⟩ := NodeList.exists_append_of_suffix hcells
    unfold Dispatcher.seek
    rcases NodeList.seek_cases (fun e : DmrIoEntry κ υ => decide (e.fd = fd)) cells with
      ⟨hnone, -⟩ | ⟨mid, c, rest, rfl, -, hfd, hsome⟩
    · exact .inl (by rw [hnone]; rfl)
    · exact .inr ⟨ahead ++ mid, c, rest, by rw [hahead, List.append_assoc],
        of_decide_eq_true hfd, by rw [hsome]; rfl⟩
  · cases h
    exact .inl rfl

theorem seekTimerFrom_cases {io : DmrIoRegistry κ υ} {next : Option Nat} {frame : Option Frame}
    (h : seekTimerFrom io next = some frame) :
    frame = none ∨ ∃ pre c rest, io.timer.cells = pre ++ c :: rest ∧
      frame = some (.timer c.1 (rest.head?.map Prod.fst)) := by
  cases next with
  | none =>
    cases h
    exact .inl rfl
  | some a =>
    obtain ⟨cells, hcells, rfl⟩ := Option.map_eq_some_iff.mp h
    obtain ⟨ahead, hahead⟩ := NodeList.exists_append_of_suffix hcells
    unfold seekTimer
    rcases NodeList.seek_cases (fun t : DmrIoTimerEntry κ υ => timerLt t.wallclock io.wallclock)
      cells with ⟨hnone, -⟩ | ⟨mid, c, rest, rfl, -, -, hsome⟩
    · exact .inl (by rw [hnone]; rfl)
    · exact .inr ⟨ahead ++ mid, c, rest, by rw [hahead, List.append_assoc], by rw [hsome]; rfl⟩

/-- It can go on exactly when the saved successor is still in the list. -/
theorem Dispatcher.isSome_seekFrom {d : Dispatcher} {fd : Nat} {io : DmrIoRegistry κ υ}
    {next : Option Nat} : (d.seekFrom fd io next).isSome = true ↔
      (d.all = true → ∀ a, next = some a → ∃ e, (a, e) ∈ (io.entry d.request).cells) := by
  unfold Dispatcher.seekFrom
  split
  · next a hall =>
    rw [Option.isSome_map, NodeList.isSome_suffix_iff]
    simp only [hall, forall_const, Option.some.injEq, forall_eq']
  · next hno => exact iff_of_true rfl fun hall a ha => absurd ha (hno a hall)

theorem isSome_seekTimerFrom {io : DmrIoRegistry κ υ} {next : Option Nat} :
    (seekTimerFrom io next).isSome = true ↔
      ∀ a, next = some a → ∃ t, (a, t) ∈ io.timer.cells := by
  cases next with
  | none => exact iff_of_true rfl fun a ha => nomatch ha
  | some a =>
    unfold seekTimerFrom
    rw [Option.isSome_map, NodeList.isSome_suffix_iff]
    simp only [Option.some.injEq, forall_eq']

/-! ## Lists split at the node that was worked on -/

theorem Dispatcher.resume_append {d : Dispatcher} (hall : d.all = true) (fd : Nat)
    {io : DmrIoRegistry κ υ} {pre rest : List (Nat × DmrIoEntry κ υ)} {c : Nat × DmrIoEntry κ υ}
    (hcells : (io.entry d.request).cells = pre ++ c :: rest) :
    ∃ io', d.resume fd io c.1 (rest.head?.map Prod.fst) = some (io', d.seek fd rest) ∧
      (io'.entry d.request).cells = (if c.2.once then pre else pre ++ [c]) ++ rest := by
  have hmem : c ∈ (io.entry d.request).cells :=
    hcells ▸ List.mem_append_right _ List.mem_cons_self
  have hcells' : ((d.afterEntry fd io c.1 c.2).entry d.request).cells =
      (if c.2.once then pre else pre ++ [c]) ++ rest := by
    unfold Dispatcher.afterEntry
    cases c.2.once with
    | true =>
      rw [if_pos rfl, if_pos rfl, Dispatcher.entry_reap]
      exact NodeList.remove_append hcells
    | false =>
      rw [if_neg Bool.false_ne_true, if_neg Bool.false_ne_true, hcells, List.append_assoc]
      rfl
  refine ⟨_, Dispatcher.resume_eq_some_iff.mpr ⟨c.2, hmem, rfl, ?_⟩, hcells'⟩
  unfold Dispatcher.seekFrom
  -- the saved successor is the head of the rest
  rw [hall]
  cases rest with
  | nil => rfl
  | cons b rest => exact congrArg (Option.map _) (NodeList.suffix_append hcells')

/-- A periodic timer is set again. -/
theorem resumeTimer_append {io : DmrIoRegistry κ υ} {pre rest : List (Nat × DmrIoTimerEntry κ υ)}
    {c : Nat × DmrIoTimerEntry κ υ} (hcells : io.timer.cells = pre ++ c :: rest) :
    ∃ io', resumeTimer io c.1 (rest.head?.map Prod.fst) = some (io', seekTimer io rest) ∧
      io'.wallclock = io.wallclock ∧
      io'.timer.cells = (if c.2.once then pre
        else pre ++ [(c.1, { c.2 with wallclock := timeradd io.wallclock c.2.timeout })]) ++
        rest := by
  have hmem : c ∈ io.timer.cells := hcells ▸ List.mem_append_right _ List.mem_cons_self
  have hclock : (afterTimer io c.1 c.2).wallclock = io.wallclock := by
    unfold afterTimer
    split <;> rfl
  have hcells' : (afterTimer io c.1 c.2).timer.cells = (if c.2.once then pre
      else pre ++ [(c.1, { c.2 with wallclock := timeradd io.wallclock c.2.timeout })]) ++
      rest := by
    unfold afterTimer
    cases c.2.once with
    | true => exact NodeList.remove_append hcells
    | false =>
      rw [if_neg Bool.false_ne_true, if_neg Bool.false_ne_true, List.append_assoc]
      exact NodeList.modify_append hcells _
  refine ⟨_, resumeTimer_eq_some_iff.mpr ⟨c.2, hmem, rfl, ?_⟩, hclock, hcells'⟩
  -- setting a timer again leaves the time of the dispatch alone
  have hseek : seekTimer (afterTimer io c.1 c.2) rest = seekTimer io rest := by
    unfold seekTimer
    rw [hclock]
  rw [← hseek]
  cases rest with
  | nil => rfl
  | cons b rest => exact congrArg (Option.map _) (NodeList.suffix_append hcells')

/-! ## Descriptors with one entry, and the lists they are on -/

section OneEntry

variable {d : Dispatcher} {fd : Nat} {pre rest : List (Nat × DmrIoEntry κ υ)}
  {c : Nat × DmrIoEntry κ υ}

/-- Nothing is called where there is no entry for the descriptor. -/
theorem Dispatcher.seek_none {cells : List (Nat × DmrIoEntry κ υ)} (h : ∀ b ∈ cells, b.2.fd ≠ fd) :
    d.seek fd cells = none := by
  unfold Dispatcher.seek
  obtain ⟨hnone, -⟩ | ⟨skip, b, tail, rfl, -, hb, -⟩ :=
    NodeList.seek_cases (fun e : DmrIoEntry κ υ => decide (e.fd = fd)) cells
  · rw [hnone]
    rfl
  · exact absurd (of_decide_eq_true hb) (h b (List.mem_append_right _ List.mem_cons_self))

/-- An entry that is still there is taken off if it is a one-shot, and the dispatch ends. -/
theorem Dispatcher.resume_stays {io : DmrIoRegistry κ υ}
    (hcells : (io.entry d.request).cells = pre ++ c :: rest) (hrest : ∀ b ∈ rest, b.2.fd ≠ fd) :
    d.resume fd io c.1 (rest.head?.map Prod.fst) = some (d.afterEntry fd io c.1 c.2, none) := by
  have hmem : (c.1, c.2) ∈ (io.entry d.request).cells :=
    hcells ▸ List.mem_append_right _ List.mem_cons_self
  cases hall : d.all with
  | false =>
    refine Dispatcher.resume_eq_some_iff.mpr ⟨c.2, hmem, rfl, ?_⟩
    unfold Dispatcher.seekFrom
    rw [hall]
  | true =>
    obtain ⟨io', hresume, -⟩ := Dispatcher.resume_append hall fd hcells
    obtain ⟨e, he, hio, -⟩ := Dispatcher.resume_eq_some_iff.mp hresume
    have hec : (c.1, e) = c := NodeList.eq_of_address _ he hmem rfl
    rw [hresume, seek_none hrest, show io' = d.afterEntry fd io c.1 e from hio,
      show e = c.2 from congrArg Prod.snd hec]

/-- An entry that is gone is not survived. -/
theorem Dispatcher.resume_gone {io : DmrIoRegistry κ υ} {next : Option Nat}
    (h : ∀ e, (c.1, e) ∉ (io.entry d.request).cells) : d.resume fd io c.1 next = none := by
  refine Option.eq_none_iff_forall_ne_some.mpr fun r hr => ?_
  obtain ⟨e, he, -⟩ := Dispatcher.resume_eq_some_iff.mp hr
  exact h e he

/-- Deregistering takes the first entry for the descriptor and the callback off its list. -/
theorem notMem_delEntry [DecidableEq κ] {set : FdSet} {io : DmrIoRegistry κ υ} {cb : κ}
    (hcells : (io.entry set.request).cells = pre ++ c :: rest) (hfd : c.2.fd = fd)
    (hcb : c.2.cb = cb) (hpre : ∀ b ∈ pre, b.2.fd ≠ fd) (e : DmrIoEntry κ υ) :
    (c.1, e) ∉ ((delEntry set io fd cb).2.entry set.request).cells := by
  have htarget : delTarget set io fd cb = some c.1 := by
    unfold delTarget NodeList.find?
    rw [hcells, List.find?_append, List.find?_eq_none.mpr fun b hb => by simp [hpre b hb],
      Option.none_or, List.find?_cons_of_pos (by simp [hfd, hcb])]
    rfl
  have hentry :
      (delEntry set io fd cb).2.entry set.request = (io.entry set.request).remove c.1 := by
    unfold delEntry
    rw [htarget]
    exact Function.update_self _ _ _
  rw [hentry]
  exact fun hmem => (NodeList.mem_remove.mp hmem).2 rfl

theorem entry_delEntry_other [DecidableEq κ] (set : FdSet) (io : DmrIoRegistry κ υ) (fd : Nat)
    (cb : κ) {r : DmrRequestType} (hr : r ≠ set.request) :
    (delEntry set io fd cb).2.entry r = io.entry r := by
  unfold delEntry
  cases delTarget set io fd cb with
  | none => rfl
  | some a => exact Function.update_of_ne hr _ _

theorem entry_regEntry_other (set : FdSet) (io : DmrIoRegistry κ υ) (fd : Nat) (cb : κ)
    (userdata : υ) (once allocated : Bool) {r : DmrRequestType} (hr : r ≠ set.request) :
    (regEntry set io fd cb userdata once allocated).2.entry r = io.entry r := by
  unfold regEntry
  split
  · exact Function.update_of_ne hr _ _
  · rfl

/-- Registering puts an entry in front of a list at most. -/
theorem cells_regEntry (set : FdSet) (io : DmrIoRegistry κ υ) (fd : Nat) (cb : κ) (userdata : υ)
    (once allocated : Bool) (r : DmrRequestType) :
    ∃ new, ((regEntry set io fd cb userdata once allocated).2.entry r).cells =
      new ++ (io.entry r).cells ∧ ∀ b ∈ new, b.2 = ⟨fd, cb, userdata, once⟩ := by
  have hnone : ∀ b ∈ ([] : List (Nat × DmrIoEntry κ υ)), b.2 = ⟨fd, cb, userdata, once⟩ := by
    rintro _ ⟨⟩
  by_cases hr : r = set.request
  · subst hr
    cases allocated with
    | false => exact ⟨[], rfl, hnone⟩
    | true =>
      have hentry : (regEntry set io fd cb userdata once true).2.entry set.request =
          (io.entry set.request).insertHead ⟨fd, cb, userdata, once⟩ := Function.update_self _ _ _
      refine ⟨[((io.entry set.request).brk, ⟨fd, cb, userdata, once⟩)], ?_, ?_⟩
      · rw [hentry]
        rfl
      · intro b hb
        rw [List.mem_singleton.mp hb]
  · refine ⟨[], ?_, hnone⟩
    rw [entry_regEntry_other _ _ _ _ _ _ _ hr, List.nil_append]

end OneEntry

end Dmrlib
