import Dmrlib.Io.Program

/-!
# The timers of the I/O loop (`src/dmr/io.c`)

Before it waits the loop asks `io_timeout` for how long, and after it has waited
`io_handle_timers` calls the timers that are due. The two go by different clocks, the one read
before the wait and the one read after it, and by the same rule: the wait is over when the
earliest deadline has come, and a timer is due once its deadline is past (`timer_service`).

Callbacks may register timers while the list is gone through. They go in front of the list,
where the loop has been already.

- `ioTimeout`: the time to wait.
- `deadlines`: when the timers of the list are due.
- `KeepsTimers`: callbacks may register timers, and do nothing else to the clock or to the list.
- `serve`, `due`: what a dispatch makes of a timer, and the timers that it calls.
- `IoLoop.normalTimes_after`: in every state of the loop the times have normal form, which
  `timer_service` asks of them.
- `timer_service`: the wait, the calls, their order, and the list afterwards.
-/

namespace Dmrlib

variable {κ υ ι σ : Type}

/-! ## How long to wait

The least of the differences between the deadlines and the clock, but at most the timeout and not
less than zero.
-/

/-- The loop of `io_timeout`, over the rest of the list. -/
def timeoutLoop (wallclock : Timeval) :
    List (Nat × DmrIoTimerEntry κ υ) → (timers : Int) → (timeout : Timeval) → Int × Timeval
  | [], timers, timeout => (timers, timeout)
  | c :: cells, timers, timeout =>
    let delta := timersub c.2.wallclock wallclock
    if delta.sec < 0 ∨ delta.usec < 0 then (1, ⟨0, 0⟩)
    -- `timercmp(delta, timeout, >)`
    else if ¬ timerLt timeout delta then timeoutLoop wallclock cells (timers + 1) delta
    else timeoutLoop wallclock cells (timers + 1) timeout

/-- `io_timeout`: the return value and `timeout`. -/
def ioTimeout (io : DmrIoRegistry κ υ) (timeout : Timeval) : Int × Timeval :=
  if io.timer.cells = [] then (0, timeout)
  else timeoutLoop io.wallclock io.timer.cells 0 timeout

theorem timerLt_iff {a b : Timeval} (ha : a.Normal) (hb : b.Normal) :
    timerLt a b = true ↔ a.micros < b.micros := by
  have hanonneg := ha.nonneg
  have halt := ha.lt
  have hbnonneg := hb.nonneg
  have hblt := hb.lt
  unfold timerLt Timeval.micros
  split
  · rw [decide_eq_true_iff]
    omega
  · rw [decide_eq_true_iff]
    omega

/-- How far off the deadlines are. -/
def deltas (wallclock : Timeval) (cells : List (Nat × DmrIoTimerEntry κ υ)) : List Int :=
  cells.map fun c => c.2.wallclock.micros - wallclock.micros

section Timeout

variable {wallclock : Timeval} (hclock : wallclock.Normal)

include hclock

/-- The loop leaves at a timer that has expired. -/
theorem timeoutLoop_expired {cells : List (Nat × DmrIoTimerEntry κ υ)}
    (hcells : ∀ c ∈ cells, c.2.wallclock.Normal) (h : ∃ d ∈ deltas wallclock cells, d < 0)
    (timers : Int) (timeout : Timeval) :
    timeoutLoop wallclock cells timers timeout = (1, ⟨0, 0⟩) := by
  induction cells generalizing timers timeout with
  | nil =>
    obtain ⟨d, hd, -⟩ := h
    cases hd
  | cons c cells ih =>
    obtain ⟨hc, hcells⟩ := List.forall_mem_cons.mp hcells
    have hdelta := hc.timersub hclock
    have hexpired : ((timersub c.2.wallclock wallclock).sec < 0 ∨
        (timersub c.2.wallclock wallclock).usec < 0) ↔
        c.2.wallclock.micros - wallclock.micros < 0 := by
      rw [← Timeval.micros_timersub, hdelta.micros_neg_iff,
        or_iff_left (not_lt_of_ge hdelta.nonneg)]
    rw [timeoutLoop]
    by_cases hneg : c.2.wallclock.micros - wallclock.micros < 0
    · rw [if_pos (hexpired.mpr hneg)]
    · have hrest : ∃ d ∈ deltas wallclock cells, d < 0 := by
        obtain ⟨d, hd, hlt⟩ := h
        obtain rfl | hd := List.mem_cons.mp hd
        · exact absurd hlt hneg
        · exact ⟨d, hd, hlt⟩
      rw [if_neg (hexpired.not.mpr hneg), ih hcells hrest, ih hcells hrest, ite_self]

/-- Otherwise it finds the least of the timeout and the deltas. -/
theorem timeoutLoop_pending {cells : List (Nat × DmrIoTimerEntry κ υ)}
    (hcells : ∀ c ∈ cells, c.2.wallclock.Normal) (h : ∀ d ∈ deltas wallclock cells, 0 ≤ d)
    (timers : Int) {timeout : Timeval} (htimeout : timeout.Normal) :
    ∃ tv, timeoutLoop wallclock cells timers timeout = (timers + cells.length, tv) ∧ tv.Normal ∧
      tv.micros = (deltas wallclock cells).foldl min timeout.micros := by
  -- the minimum so far is the timeout that the next round starts with
  induction cells generalizing timers timeout with
  | nil =>
    refine ⟨timeout, ?_, htimeout, rfl⟩
    rw [timeoutLoop, List.length_nil, Nat.cast_zero, add_zero]
  | cons c cells ih =>
    obtain ⟨hc, hcells⟩ := List.forall_mem_cons.mp hcells
    obtain ⟨hpos, hrest⟩ := List.forall_mem_cons.mp h
    have hdelta := hc.timersub hclock
    have hpending : ¬ ((timersub c.2.wallclock wallclock).sec < 0 ∨
        (timersub c.2.wallclock wallclock).usec < 0) := by
      rw [or_iff_left (not_lt_of_ge hdelta.nonneg), ← hdelta.micros_neg_iff,
        Timeval.micros_timersub]
      exact not_lt_of_ge hpos
    have hlen : timers + (c :: cells).length = timers + 1 + cells.length := by
      rw [List.length_cons, Nat.cast_succ]
      ring
    rw [timeoutLoop, if_neg hpending, hlen, deltas, List.map_cons, List.foldl_cons,
      ← Timeval.micros_timersub]
    by_cases hlt : timerLt timeout (timersub c.2.wallclock wallclock) = true
    · rw [if_neg (not_not_intro hlt)]
      rw [timerLt_iff htimeout hdelta] at hlt
      rw [min_eq_left hlt.le]
      exact ih hcells hrest _ htimeout
    · rw [if_pos hlt]
      rw [timerLt_iff htimeout hdelta, not_lt] at hlt
      rw [min_eq_right hlt]
      exact ih hcells hrest _ hdelta

end Timeout

theorem le_foldl_min_iff {l : List Int} {a x : Int} :
    x ≤ l.foldl min a ↔ x ≤ a ∧ ∀ d ∈ l, x ≤ d := by
  induction l generalizing a with
  | nil => exact ⟨fun h => ⟨h, fun d hd => nomatch hd⟩, And.left⟩
  | cons d l ih => rw [List.foldl_cons, ih, le_min_iff, List.forall_mem_cons, and_assoc]

/-- The deadlines of the timers. -/
def deadlines (io : DmrIoRegistry κ υ) : Set Int :=
  {d | ∃ c ∈ io.timer.cells, c.2.wallclock.micros = d}

theorem foldl_min_deltas {io : DmrIoRegistry κ υ} {earliest : Int}
    (h : IsLeast (deadlines io) earliest) (a : Int) :
    (deltas io.wallclock io.timer.cells).foldl min a =
      min a (earliest - io.wallclock.micros) := by
  obtain ⟨⟨c, hc, hearliest⟩, hle⟩ := h
  refine eq_of_forall_le_iff fun x => ?_
  rw [le_foldl_min_iff, le_min_iff]
  refine and_congr_right fun _ => ?_
  constructor
  · intro hall
    rw [← hearliest]
    exact hall _ (List.mem_map_of_mem hc)
  · intro hx d hd
    obtain ⟨c', hc', rfl⟩ := List.mem_map.mp hd
    exact hx.trans (sub_le_sub_right (hle ⟨c', hc', rfl⟩) _)

/-- How long the loop waits for its timers. -/
theorem ioTimeout_spec {io : DmrIoRegistry κ υ} {timeout : Timeval} (hclock : io.wallclock.Normal)
    (hcells : ∀ c ∈ io.timer.cells, c.2.wallclock.Normal) (htimeout : timeout.Normal)
    (hpos : 0 ≤ timeout.micros) :
    ((ioTimeout io timeout).1 = 0 ↔ io.timer.cells = []) ∧ (ioTimeout io timeout).2.Normal ∧
      ∀ earliest, IsLeast (deadlines io) earliest → (ioTimeout io timeout).2.micros =
        max 0 (min timeout.micros (earliest - io.wallclock.micros)) := by
  unfold ioTimeout
  by_cases hempty : io.timer.cells = []
  · rw [if_pos hempty]
    refine ⟨iff_of_true rfl hempty, htimeout, ?_⟩
    rintro earliest ⟨⟨c, hc, -⟩, -⟩
    rw [hempty] at hc
    cases hc
  · rw [if_neg hempty]
    have hlen : 0 < io.timer.cells.length := List.length_pos_of_ne_nil hempty
    -- one timer that is overdue ends the loop with no time to wait
    by_cases hexpired : ∃ d ∈ deltas io.wallclock io.timer.cells, d < 0
    · rw [timeoutLoop_expired hclock hcells hexpired]
      refine ⟨iff_of_false (by decide) hempty, ⟨by decide, by decide⟩, fun earliest hleast => ?_⟩
      obtain ⟨d, hd, hneg⟩ := hexpired
      obtain ⟨c, hc, rfl⟩ := List.mem_map.mp hd
      have hle : earliest ≤ c.2.wallclock.micros := hleast.2 ⟨c, hc, rfl⟩
      have hmin : min timeout.micros (earliest - io.wallclock.micros) ≤ 0 :=
        (min_le_right _ _).trans (by omega)
      rw [max_eq_left hmin]
      rfl
    · push Not at hexpired
      obtain ⟨tv, hloop, hnormal, hmicros⟩ :=
        timeoutLoop_pending hclock hcells hexpired 0 htimeout
      rw [hloop]
      refine ⟨iff_of_false ?_ hempty, hnormal, fun earliest hleast => ?_⟩
      · dsimp only
        omega
      -- the earliest deadline is in the list, and none is earlier
      · rw [hmicros, foldl_min_deltas hleast, max_eq_right]
        obtain ⟨⟨c, hc, rfl⟩, -⟩ := hleast
        exact le_min hpos (hexpired _ (List.mem_map_of_mem hc))

/-! ## Which timers to call

A dispatch goes through the list once. Timers that are due are called, and get a new deadline or
go.
-/

/-- The call of a timer: the callback, the timers it has registered, and what it has added to
`io->entries`. -/
structure TimerCall (κ υ : Type) where
  cb : κ
  userdata : υ
  registered : List (Nat × DmrIoTimerEntry κ υ)
  entries : Int

namespace IoProgram

/-- The program with a log of the calls. -/
def logged (p : IoProgram κ υ ι σ) : IoProgram κ υ ι (σ × List (TimerCall κ υ)) where
  io s := p.io s.1
  setIo s io := (p.setIo s.1 io, s.2)
  io_setIo s io := p.io_setIo s.1 io
  setIo_io s := by rw [p.setIo_io]
  work cb userdata fd i s := (p.work cb userdata fd i s.1).map fun s' =>
    let cells := (p.io s').timer.cells
    (s', s.2 ++ [⟨cb, userdata, cells.take (cells.length - (p.io s.1).timer.cells.length),
      (p.io s').entries - (p.io s.1).entries⟩])

/-- The log leaves a dispatch as it is. -/
theorem run_logged (p : IoProgram κ υ ι σ) (fuel : Nat) (input : Nat → ι) (frame : Option Frame)
    (s : σ × List (TimerCall κ υ)) :
    (p.logged.run fuel input frame s).map Prod.fst = p.run fuel input frame s.1 := by
  induction fuel generalizing input frame s with
  | zero => cases frame <;> rfl
  | succ fuel ih =>
    cases frame with
    | none => rfl
    | some frame =>
      show Option.map Prod.fst ((frame.callback (p.io s.1)).bind _) = _
      rw [Option.map_bind]
      refine Option.bind_congr fun call _ => ?_
      show Option.map Prod.fst (((p.work call.1 call.2.1 call.2.2 (input 0) s.1).map _).bind _) = _
      rw [Option.bind_map, Option.map_bind]
      refine Option.bind_congr fun s' _ => ?_
      show Option.map Prod.fst ((frame.resume (p.io s')).bind _) = _
      rw [Option.map_bind]
      exact Option.bind_congr fun r _ => ih _ _ _

/-- Callbacks that return, and that neither remove timers nor set the clock. -/
def KeepsTimers (p : IoProgram κ υ ι σ) : Prop :=
  ∀ cb userdata fd i s, ∃ s', p.work cb userdata fd i s = some s' ∧
    (p.io s').wallclock = (p.io s).wallclock ∧
    ∃ new, (p.io s').timer.cells = new ++ (p.io s).timer.cells

/-- What a dispatch makes of a timer in the list; `none` is a timer that is gone. -/
def serve (now : Timeval) (c : Nat × DmrIoTimerEntry κ υ) : Option (Nat × DmrIoTimerEntry κ υ) :=
  if c.2.wallclock.micros < now.micros then
    if c.2.once then none else some (c.1, { c.2 with wallclock := timeradd now c.2.timeout })
  else some c

/-- The timers that are due. -/
def due (now : Timeval) (cells : List (Nat × DmrIoTimerEntry κ υ)) :
    List (Nat × DmrIoTimerEntry κ υ) :=
  cells.filter fun c => c.2.wallclock.micros < now.micros

/-- What a dispatch of timers does to a registry: it calls the timers that are due, in the order
of the list, takes the one-shot ones among them out of the list, and sets the others again. -/
structure Serves (now : Timeval) (cells : List (Nat × DmrIoTimerEntry κ υ))
    (calls : List (TimerCall κ υ)) (before : Int) (front : List (Nat × DmrIoTimerEntry κ υ))
    (io' : DmrIoRegistry κ υ) : Prop where
  called : calls.map (fun call => (call.cb, call.userdata)) =
    (due now cells).map fun c => (c.2.cb, c.2.userdata)
  timers : io'.timer.cells =
    (calls.reverse.flatMap fun call => call.registered) ++ front ++ cells.filterMap (serve now)
  entries : io'.entries = before + (calls.map fun call => call.entries).sum -
    (due now cells).countP fun c => c.2.once

theorem seekTimer_cases {io : DmrIoRegistry κ υ} {cells : List (Nat × DmrIoTimerEntry κ υ)}
    (hclock : io.wallclock.Normal) (hcells : ∀ c ∈ cells, c.2.wallclock.Normal) :
    (seekTimer io cells = none ∧ due io.wallclock cells = [] ∧
        cells.filterMap (serve io.wallclock) = cells) ∨
      ∃ pre c rest, cells = pre ++ c :: rest ∧
        seekTimer io cells = some (.timer c.1 (rest.head?.map Prod.fst)) ∧
        c.2.wallclock.micros < io.wallclock.micros ∧
        due io.wallclock pre = [] ∧ pre.filterMap (serve io.wallclock) = pre := by
  -- nodes that are not due are left alone
  have hlate : ∀ cells : List (Nat × DmrIoTimerEntry κ υ),
      (∀ c ∈ cells, c.2.wallclock.Normal) →
      (∀ c ∈ cells, timerLt c.2.wallclock io.wallclock = false) →
      due io.wallclock cells = [] ∧ cells.filterMap (serve io.wallclock) = cells := by
    intro cells hnormal hall
    have hnot : ∀ c ∈ cells, ¬ c.2.wallclock.micros < io.wallclock.micros := by
      intro c hc
      rw [← timerLt_iff (hnormal c hc) hclock, hall c hc]
      exact Bool.false_ne_true
    constructor
    · exact List.filter_eq_nil_iff.mpr fun c hc => by simpa using hnot c hc
    · conv_rhs => rw [← List.filterMap_some (l := cells)]
      exact List.filterMap_congr fun c hc => if_neg (hnot c hc)
  unfold seekTimer
  obtain ⟨hnone, hall⟩ | ⟨pre, c, rest, rfl, hpre, hc, hsome⟩ := NodeList.seek_cases
    (fun t : DmrIoTimerEntry κ υ => timerLt t.wallclock io.wallclock) cells
  · rw [hnone]
    exact Or.inl ⟨rfl, hlate cells hcells hall⟩
  · rw [hsome]
    have hnormal : ∀ d ∈ pre, d.2.wallclock.Normal :=
      fun d hd => hcells d (List.mem_append_left _ hd)
    have hcnormal := hcells c (List.mem_append_right _ List.mem_cons_self)
    exact Or.inr ⟨pre, c, rest, rfl, rfl, (timerLt_iff hcnormal hclock).mp hc,
      hlate pre hnormal hpre⟩

theorem logged_work {p : IoProgram κ υ ι σ} {cb : κ} {userdata : υ} {fd : Nat} {i : ι} {s s' : σ}
    (hwork : p.work cb userdata fd i s = some s') {new : List (Nat × DmrIoTimerEntry κ υ)}
    (hnew : (p.io s').timer.cells = new ++ (p.io s).timer.cells) (log : List (TimerCall κ υ)) :
    p.logged.work cb userdata fd i (s, log) =
      some (s', log ++ [⟨cb, userdata, new, (p.io s').entries - (p.io s).entries⟩]) := by
  have hregistered : (p.io s').timer.cells.take
      ((p.io s').timer.cells.length - (p.io s).timer.cells.length) = new := by
    rw [hnew, List.length_append, Nat.add_sub_cancel_right, List.take_left]
  simp only [logged, hwork, Option.map_some, hregistered]

/-- A timer that is due is called, and the dispatch goes on behind it. -/
theorem run_timer {p : IoProgram κ υ ι σ} (hp : p.KeepsTimers) (fuel : Nat) (input : Nat → ι)
    {front rest : List (Nat × DmrIoTimerEntry κ υ)} {c : Nat × DmrIoTimerEntry κ υ} {s : σ}
    (log : List (TimerCall κ υ)) (hcells : (p.io s).timer.cells = front ++ c :: rest) :
    ∃ (s' : σ) (call : TimerCall κ υ),
      p.logged.run (fuel + 1) input (some (.timer c.1 (rest.head?.map Prod.fst))) (s, log) =
        p.logged.run fuel (fun k => input (k + 1)) (seekTimer (p.io s') rest)
          (s', log ++ [call]) ∧
      (call.cb, call.userdata) = (c.2.cb, c.2.userdata) ∧
      (p.io s').wallclock = (p.io s).wallclock ∧
      (p.io s').timer.cells = (call.registered ++ front ++ if c.2.once then []
        else [(c.1, { c.2 with wallclock := timeradd (p.io s).wallclock c.2.timeout })]) ++ rest ∧
      (p.io s').entries = (p.io s).entries + call.entries - if c.2.once then 1 else 0 := by
  -- the callback has registered `new`, in front of all others
  obtain ⟨s₁, hwork, hclock, new, hnew⟩ := hp c.2.cb c.2.userdata 0 (input 0) s
  have hget : (p.io s).timer.get? c.1 = some c.2 :=
    NodeList.get?_eq_some_iff.mpr (hcells ▸ List.mem_append_right _ List.mem_cons_self)
  have hcells₁ : (p.io s₁).timer.cells = (new ++ front) ++ c :: rest := by
    rw [hnew, hcells, List.append_assoc]
  have hget₁ : (p.io s₁).timer.get? c.1 = some c.2 :=
    NodeList.get?_eq_some_iff.mpr (hcells₁ ▸ List.mem_append_right _ List.mem_cons_self)
  -- the dispatcher comes back to a list with the same rest
  obtain ⟨io', hresume, hclock', hcells'⟩ := resumeTimer_append hcells₁
  have hentries : io'.entries = (p.io s₁).entries - if c.2.once then 1 else 0 := by
    obtain ⟨t, ht, hio, -⟩ := resumeTimer_eq_some_iff.mp hresume
    obtain rfl : t = c.2 := Option.some.inj ((NodeList.get?_eq_some_iff.mpr ht).symm.trans hget₁)
    rw [show io' = afterTimer (p.io s₁) c.1 c.2 from hio, afterTimer]
    split
    · rfl
    · exact (sub_zero _).symm
  have hseek : seekTimer (p.io s₁) rest = seekTimer io' rest := by
    unfold seekTimer
    rw [hclock']
  refine ⟨p.setIo s₁ io', ⟨c.2.cb, c.2.userdata, new, (p.io s₁).entries - (p.io s).entries⟩,
    ?_, rfl, ?_, ?_, ?_⟩
  -- one round, from the call to the next timer that is due
  · rw [p.io_setIo, ← hseek]
    show ((((p.io s).timer.get? c.1).map _).bind _ : Option _) = _
    rw [hget]
    show (p.logged.work c.2.cb c.2.userdata 0 (input 0) (s, log)).bind _ = _
    rw [logged_work hwork hnew]
    show ((resumeTimer (p.io s₁) c.1 (rest.head?.map Prod.fst)).bind _ : Option _) = _
    rw [hresume]
    rfl
  · rw [p.io_setIo, hclock', hclock]
  · rw [p.io_setIo, hcells', hclock]
    cases c.2.once <;> simp
  · rw [p.io_setIo, hentries]
    ring

theorem run_timers {p : IoProgram κ υ ι σ} (hp : p.KeepsTimers) {now : Timeval}
    (hnow : now.Normal) {fuel : Nat} (input : Nat → ι)
    {front rest : List (Nat × DmrIoTimerEntry κ υ)} {s : σ} (log : List (TimerCall κ υ))
    (hcells : (p.io s).timer.cells = front ++ rest) (hrest : ∀ c ∈ rest, c.2.wallclock.Normal)
    (hclock : (p.io s).wallclock = now) (hfuel : rest.length ≤ fuel) :
    ∃ s' calls, p.logged.run fuel input (seekTimer (p.io s) rest) (s, log) =
        some (s', log ++ calls) ∧
      Serves now rest calls (p.io s).entries front (p.io s') := by
  induction fuel generalizing input front rest s log with
  | zero =>
    obtain rfl : rest = [] := List.eq_nil_of_length_eq_zero (Nat.le_zero.mp hfuel)
    refine ⟨s, [], by rw [List.append_nil]; rfl, rfl, by simp [hcells], by simp [due]⟩
  | succ fuel ih =>
    -- there is no timer left to call, or the first of them is `c`
    obtain ⟨hnone, hdue, hserve⟩ | ⟨pre, c, rest, rfl, hsome, hlt, hdue, hserve⟩ :=
      seekTimer_cases (hclock ▸ hnow : (p.io s).wallclock.Normal) hrest
    · rw [hclock] at hdue hserve
      refine ⟨s, [], by rw [hnone, run_none, List.append_nil], ?_, ?_, ?_⟩
      · rw [hdue]
        rfl
      · rw [hserve, hcells]
        rfl
      · rw [hdue]
        simp
    · rw [hclock] at hlt hdue hserve
      rw [← List.append_assoc] at hcells
      obtain ⟨s₁, call, hrun, hcall, hclock₁, hcells₁, hentries₁⟩ :=
        run_timer hp fuel input log hcells
      have hserveCons : (pre ++ c :: rest).filterMap (serve now) = pre ++ (if c.2.once then []
          else [(c.1, { c.2 with wallclock := timeradd now c.2.timeout })]) ++
          rest.filterMap (serve now) := by
        rw [List.filterMap_append, hserve, List.filterMap_cons, serve, if_pos hlt]
        cases c.2.once <;> simp
      have hdueCons : due now (pre ++ c :: rest) = c :: due now rest := by
        rw [due, List.filter_append, ← due, hdue, List.nil_append,
          List.filter_cons_of_pos (by simpa using hlt)]
        rfl
      -- the rest of the list is shorter
      obtain ⟨s', calls, hrun', hserves⟩ := ih (fun k => input (k + 1)) (log ++ [call])
        hcells₁ (fun d hd => hrest d (by simp [hd])) (hclock₁.trans hclock) (by
          simp only [List.length_append, List.length_cons] at hfuel
          omega)
      refine ⟨s', call :: calls, ?_, ?_, ?_, ?_⟩
      · rw [hsome, hrun, hrun', List.append_assoc]
        rfl
      · rw [List.map_cons, hserves.called, hdueCons, List.map_cons, hcall]
      · rw [hserves.timers, hserveCons, hclock]
        simp
      · rw [hserves.entries, hentries₁, hdueCons, List.map_cons, List.sum_cons, List.countP_cons]
        cases c.2.once <;> simp <;> ring

end IoProgram

/-! ## Callbacks that register

Programs whose callbacks work on the registry by its operations, without removing a timer, keep
timers.
-/

section Operations

variable [DecidableEq κ]

/-- An operation that takes no timer out of the list. -/
def IoOp.KeepsTimers : IoOp κ υ → Prop
  | .delTimer _ => False
  | _ => True

/-- What an operation does to the timers. -/
theorem IoOp.timer_run (op : IoOp κ υ) (io : DmrIoRegistry κ υ) :
    (op.run io).wallclock = io.wallclock ∧
      ((op.run io).timer = io.timer ∨
        (∃ timeout cb userdata once, op = .regTimer timeout cb userdata once true ∧
          (op.run io).timer = io.timer.insertHead
            ⟨⟨timeout, timeradd io.wallclock timeout, cb, once⟩, userdata⟩) ∨
        ∃ cb a, op = .delTimer cb ∧ (op.run io).timer = io.timer.remove a) := by
  -- descriptors have lists of their own
  have hreg : ∀ (s : FdSet) fd cb userdata once allocated,
      (regEntry s io fd cb userdata once allocated).2.wallclock = io.wallclock ∧
        (regEntry s io fd cb userdata once allocated).2.timer = io.timer := by
    intro s fd cb userdata once allocated
    cases allocated <;> exact ⟨rfl, rfl⟩
  have hdel : ∀ (s : FdSet) fd cb, (delEntry s io fd cb).2.wallclock = io.wallclock ∧
      (delEntry s io fd cb).2.timer = io.timer := by
    intro s fd cb
    unfold delEntry
    cases delTarget s io fd cb <;> exact ⟨rfl, rfl⟩
  cases op with
  | regSignal sig cb userdata once allocated => cases allocated <;> exact ⟨rfl, .inl rfl⟩
  | regRead fd cb userdata once allocated => exact (hreg .readers ..).imp_right .inl
  | regWrite fd cb userdata once allocated => exact (hreg .writers ..).imp_right .inl
  | regError fd cb userdata once allocated => exact (hreg .errors ..).imp_right .inl
  | regTimer timeout cb userdata once allocated =>
    cases allocated with
    | false => exact ⟨rfl, .inl rfl⟩
    | true => exact ⟨rfl, .inr (.inl ⟨timeout, cb, userdata, once, rfl, rfl⟩)⟩
  | delRead fd cb => exact (hdel .readers ..).imp_right .inl
  | delWrite fd cb => exact (hdel .writers ..).imp_right .inl
  | delError fd cb => exact (hdel .errors ..).imp_right .inl
  | delTimer cb =>
    show (io.dmrIoDelTimer cb).2.wallclock = _ ∧ ((io.dmrIoDelTimer cb).2.timer = _ ∨ _ ∨
      ∃ cb' a, _ ∧ (io.dmrIoDelTimer cb).2.timer = _)
    unfold DmrIoRegistry.dmrIoDelTimer
    cases io.timer.find? fun t => decide (t.cb = cb) with
    | none => exact ⟨rfl, .inl rfl⟩
    | some a => exact ⟨rfl, .inr (.inr ⟨cb, a, rfl, rfl⟩)⟩

theorem IoOp.KeepsTimers.run {op : IoOp κ υ} (hop : op.KeepsTimers) (io : DmrIoRegistry κ υ) :
    (op.run io).wallclock = io.wallclock ∧
      ∃ new, (op.run io).timer.cells = new ++ io.timer.cells := by
  obtain ⟨hclock, hsame | ⟨timeout, cb, userdata, once, -, hreg⟩ | ⟨cb, a, rfl, -⟩⟩ :=
    op.timer_run io
  · exact ⟨hclock, [], by rw [hsame, List.nil_append]⟩
  · exact ⟨hclock, [_], by rw [hreg]; rfl⟩
  · exact hop.elim

/-- Callbacks that do nothing but a list of operations each. -/
def IoProgram.ofOps (ops : κ → υ → Nat → ι → DmrIoRegistry κ υ → List (IoOp κ υ)) :
    IoProgram κ υ ι (DmrIoRegistry κ υ) where
  io := id
  setIo _ io := io
  io_setIo _ _ := rfl
  setIo_io _ := rfl
  work cb userdata fd i io := some ((ops cb userdata fd i io).foldl IoOp.run io)

theorem IoProgram.keepsTimers_ofOps
    {ops : κ → υ → Nat → ι → DmrIoRegistry κ υ → List (IoOp κ υ)}
    (hops : ∀ cb userdata fd i io, ∀ op ∈ ops cb userdata fd i io, op.KeepsTimers) :
    (ofOps ops).KeepsTimers := by
  intro cb userdata fd i io
  refine ⟨_, rfl, ?_⟩
  -- each operation puts its timers in front of what the callback found
  refine List.foldlRecOn (motive := fun io' : DmrIoRegistry κ υ =>
    io'.wallclock = io.wallclock ∧ ∃ new, io'.timer.cells = new ++ io.timer.cells)
    _ _ ⟨rfl, [], rfl⟩ fun io' hio' op hop => ?_
  obtain ⟨hclock, new, hnew⟩ := hio'
  obtain ⟨hclock', new', hnew'⟩ := (hops cb userdata fd i io op hop).run io'
  exact ⟨hclock'.trans hclock, new' ++ new, by rw [hnew', hnew, List.append_assoc]⟩

end Operations

/-! ## Times are normal

A clock shows less than a million microseconds, and so do the periods that the library
registers timers with. -/

/-- The times of a registry. -/
structure DmrIoRegistry.NormalTimes (io : DmrIoRegistry κ υ) : Prop where
  wallclock : io.wallclock.Normal
  timer : ∀ c ∈ io.timer.cells, c.2.wallclock.Normal ∧ c.2.timeout.Normal

/-- The times that an action brings. -/
def IoAction.NormalTimes : IoAction κ υ → Prop
  | .op (.regTimer timeout _ _ _ _) => timeout.Normal
  | .timers now => now.Normal
  | _ => True

namespace DmrIoRegistry.NormalTimes

variable {io : DmrIoRegistry κ υ}

theorem new {now : Timeval} (h : now.Normal) : (dmrIoNew now : DmrIoRegistry κ υ).NormalTimes :=
  ⟨h, fun _ hc => nomatch hc⟩

theorem run [DecidableEq κ] (h : io.NormalTimes) {op : IoOp κ υ}
    (hop : (IoAction.op op).NormalTimes) : (op.run io).NormalTimes := by
  obtain ⟨hclock, htimer⟩ := op.timer_run io
  refine ⟨hclock ▸ h.wallclock, ?_⟩
  obtain hsame | ⟨timeout, cb, userdata, once, rfl, hreg⟩ | ⟨cb, a, -, hdel⟩ := htimer
  · rw [hsame]
    exact h.timer
  · rw [hreg]
    intro c hc
    obtain rfl | hc := NodeList.mem_insertHead.mp hc
    · exact ⟨h.wallclock.timeradd hop, hop⟩
    · exact h.timer c hc
  · rw [hdel]
    exact fun c hc => h.timer c (NodeList.mem_remove.mp hc).1

theorem afterTimer (h : io.NormalTimes) {cur : Nat} {t : DmrIoTimerEntry κ υ} :
    (Dmrlib.afterTimer io cur t).NormalTimes := by
  unfold Dmrlib.afterTimer
  split
  · exact ⟨h.wallclock, fun c hc => h.timer c (NodeList.mem_remove.mp hc).1⟩
  · refine ⟨h.wallclock, fun c hc => ?_⟩
    obtain ⟨c', hc', rfl⟩ := List.mem_map.mp hc
    obtain ⟨hwallclock, htimeout⟩ := h.timer c' hc'
    dsimp only
    split
    · exact ⟨h.wallclock.timeradd htimeout, htimeout⟩
    · exact ⟨hwallclock, htimeout⟩

theorem afterEntry (h : io.NormalTimes) (d : Dispatcher) (fd cur : Nat) (e : DmrIoEntry κ υ) :
    (d.afterEntry fd io cur e).NormalTimes := by
  unfold Dispatcher.afterEntry Dispatcher.reap
  split
  · split <;> exact ⟨h.wallclock, h.timer⟩
  · exact h

end DmrIoRegistry.NormalTimes

/-- Every action with normal times leaves the times of the registry normal. -/
theorem IoLoop.normalTimes_step [DecidableEq κ] {l l' : IoLoop κ υ} {a : IoAction κ υ}
    (h : l.io.NormalTimes) (ha : a.NormalTimes) (hstep : l.step a = some l') :
    l'.io.NormalTimes := by
  cases a with
  | op op =>
    cases hstep
    exact h.run ha
  | readable fd | writable fd | error fd | signal sig =>
    cases hstep
    exact h
  | timers now =>
    cases hstep
    exact ⟨ha, h.timer⟩
  -- what the dispatcher leaves behind is that of `afterEntry` or `afterTimer`
  | ret value =>
    rw [IoLoop.step] at hstep
    split at hstep
    · cases hstep
      exact h
    · obtain ⟨r, hr, rfl⟩ := Option.map_eq_some_iff.mp hstep
      obtain ⟨e, -, hio, -⟩ := Dispatcher.resume_eq_some_iff.mp hr
      show r.1.NormalTimes
      rw [hio]
      exact h.afterEntry _ _ _ _
    · obtain ⟨r, hr, rfl⟩ := Option.map_eq_some_iff.mp hstep
      obtain ⟨t, -, hio, -⟩ := resumeTimer_eq_some_iff.mp hr
      show r.1.NormalTimes
      rw [hio]
      exact h.afterTimer

/-- So they are normal in every state of the loop. -/
theorem IoLoop.normalTimes_after [DecidableEq κ] {now : Timeval} (hnow : now.Normal)
    {as : List (IoAction κ υ)} (has : ∀ a ∈ as, a.NormalTimes) {l : IoLoop κ υ}
    (h : Run.after step (start now) as = some l) : l.io.NormalTimes :=
  Run.inv_after_of_mem (I := fun l : IoLoop κ υ => l.io.NormalTimes)
    (fun _ _ _ hl ha hstep => normalTimes_step hl ha hstep) (.new hnow) has h

/-! ## The service -/

/-- **Timer service.** How long the loop waits before it looks at the timers, and what it does then
with callbacks that take no timer out of the list. -/
theorem timer_service {p : IoProgram κ υ ι σ} (hp : p.KeepsTimers) {s : σ} {timeout now : Timeval}
    (hclock : (p.io s).wallclock.Normal) (hcells : ∀ c ∈ (p.io s).timer.cells, c.2.wallclock.Normal)
    (htimeout : timeout.Normal) (hpos : 0 ≤ timeout.micros) (hnow : now.Normal)
    (input : Nat → ι) :
    ((ioTimeout (p.io s) timeout).1 = 0 ↔ (p.io s).timer.cells = []) ∧
      (∀ earliest, IsLeast (deadlines (p.io s)) earliest →
        (ioTimeout (p.io s) timeout).2.micros =
          max 0 (min timeout.micros (earliest - (p.io s).wallclock.micros))) ∧
      ∃ s' calls, p.timers now input s = some s' ∧
        p.logged.timers now input (s, []) = some (s', calls) ∧
        IoProgram.Serves now (p.io s).timer.cells calls (p.io s).entries [] (p.io s') := by
  obtain ⟨hzero, -, hleast⟩ := ioTimeout_spec hclock hcells htimeout hpos
  -- the dispatch begins with the new clock and the whole list ahead
  have hio : p.io (p.setIo s { p.io s with wallclock := now }) =
      { p.io s with wallclock := now } := p.io_setIo _ _
  have hfront : (p.io (p.setIo s { p.io s with wallclock := now })).timer.cells =
      [] ++ (p.io s).timer.cells := by
    rw [hio]
    rfl
  obtain ⟨s', calls, hrun, hserves⟩ :=
    IoProgram.run_timers hp hnow input [] hfront hcells (by rw [hio]) (Nat.le_refl _)
  rw [hio] at hrun hserves
  have hlogged : p.logged.timers now input (s, []) = some (s', calls) := hrun
  refine ⟨hzero, hleast, s', calls, ?_, hlogged, hserves⟩
  -- the log does not change what runs
  have hfst := p.run_logged (p.io s).timer.cells.length input
    (seekTimer { p.io s with wallclock := now } (p.io s).timer.cells)
    (p.setIo s { p.io s with wallclock := now }, [])
  rw [hrun] at hfst
  exact hfst.symm

/-- One timer, due at 6, and a callback that registers another one each time. -/
theorem timer_service_registering :
    let p := IoProgram.ofOps (ι := Unit) fun (cb : Bool) (userdata : Nat) _ _ _ =>
      [.regTimer ⟨1, 500000⟩ cb userdata true true]
    let io := ((dmrIoNew ⟨5, 0⟩).dmrIoRegTimer ⟨1, 0⟩ true 3 false true).2
    ((ioTimeout io ⟨1, 0⟩).1 = 0 ↔ io.timer.cells = []) ∧
      (∀ earliest, IsLeast (deadlines io) earliest → (ioTimeout io ⟨1, 0⟩).2.micros =
        max 0 (min (Timeval.mk 1 0).micros (earliest - io.wallclock.micros))) ∧
      ∃ s' calls, p.timers ⟨7, 250000⟩ (fun _ => ()) io = some s' ∧
        p.logged.timers ⟨7, 250000⟩ (fun _ => ()) (io, []) = some (s', calls) ∧
        IoProgram.Serves ⟨7, 250000⟩ io.timer.cells calls io.entries [] (p.io s') :=
  timer_service (p := IoProgram.ofOps (ι := Unit) fun (cb : Bool) (userdata : Nat) _ _ _ =>
      [.regTimer ⟨1, 500000⟩ cb userdata true true])
    (IoProgram.keepsTimers_ofOps fun cb userdata _ _ _ op hop => by
      rw [List.mem_singleton] at hop
      rw [hop]
      trivial)
    (s := ((dmrIoNew ⟨5, 0⟩).dmrIoRegTimer ⟨1, 0⟩ true 3 false true).2)
    (by decide) (fun c hc => by
      obtain rfl : c = (0, ⟨⟨⟨1, 0⟩, ⟨6, 0⟩, true, false⟩, 3⟩) := List.mem_singleton.mp hc
      exact ⟨by decide, by decide⟩)
    (by decide : (Timeval.mk 1 0).Normal) (by decide) (by decide : (Timeval.mk 7 250000).Normal)
    (fun _ => ())

end Dmrlib
