import Dmrlib.Noisebridge.Calls

/-!
# The timers of the slots

A slot that takes up a call registers a timer with the callback `slot_timer`, and a slot
whose call ends takes one down. `slot_timer` itself frees a slot and leaves the timer where
it is, so the two drift apart with the first call that times out; they also do when there
is no memory for a timer, which `new_io_timer` does not look at.

Timers are counted by their callback, since `dmr_io_del_timer` finds them by it.

- `slotTimers`, `liveSlots`: the timers with the callback, and the slots in a call.
- `TimersMatch`: there are as many of the one as of the other.
- `TimerChange`: what a packet does to the two numbers.
- `KeepsTimers`: the condition on an event.
- `throughout_timersMatch_iff`: the runs in which the numbers stay equal.
-/

namespace Dmrlib

open Lua Run

/-- The timers that call `slot_timer`. -/
def slotTimers (r : Repeater) : Nat := r.io.timer.countP fun timer => timer.cb = .slotTimer

/-- The slots that are in a call. -/
def liveSlots (r : Repeater) : Finset (Fin 2) :=
  Finset.univ.filter fun t => (r.ts t).state ≠ .idle

/-- One timer for each call. -/
def TimersMatch (r : Repeater) : Prop := slotTimers r = (liveSlots r).card

theorem mem_liveSlots {r : Repeater} {t : Fin 2} : t ∈ liveSlots r ↔ (r.ts t).state ≠ .idle := by
  simp [liveSlots]

theorem timersMatch_start {timer : List (DmrIoTimer TimerCb)}
    (htimer : ∀ x ∈ timer, x.cb ≠ .slotTimer) (clock : Nat) :
    TimersMatch (World.start timer clock).repeater := by
  have hnone : slotTimers (World.start timer clock).repeater = 0 := by
    rw [slotTimers, List.countP_eq_zero]
    intro x hx
    simpa using htimer x hx
  have hidle : liveSlots (World.start timer clock).repeater = ∅ := by
    refine Finset.eq_empty_of_forall_notMem fun t ht => ?_
    exact mem_liveSlots.mp ht rfl
  rw [TimersMatch, hnone, hidle, Finset.card_empty]

/-! ## Registering and deregistering -/

/-- `dmr_io_del_timer` takes away one timer, if there is one. -/
theorem slotTimers_endIoTimer (r : Repeater) : slotTimers (endIoTimer r) = slotTimers r - 1 := by
  have hcount : ∀ timer : List (DmrIoTimer TimerCb),
      (timer.eraseP fun t => t.cb = .slotTimer).countP (fun t => t.cb = .slotTimer) =
        timer.countP (fun t => t.cb = .slotTimer) - 1 := by
    intro timer
    induction timer with
    | nil => rfl
    | cons t timer ih =>
      by_cases ht : t.cb = .slotTimer
      · simp [ht]
      · simp [ht, ih]
  exact hcount r.io.timer

theorem slotTimers_newIoTimer (config : RepeaterConfig) (allocated : Bool) (r : Repeater) :
    slotTimers (newIoTimer config allocated r) = slotTimers r + allocated.toNat := by
  cases allocated with
  | false => rfl
  | true => simp [slotTimers, newIoTimer, dmrIoRegTimer]

/-! ## Taking up and ending a call -/

/-- A slot that was idle and is in a call is one more. -/
theorem card_liveSlots_opens {r r' : Repeater} {t : Fin 2}
    (hother : ∀ t', t' ≠ t → r'.ts t' = r.ts t') (hidle : (r.ts t).state = .idle)
    (hlive : (r'.ts t).state ≠ .idle) : (liveSlots r').card = (liveSlots r).card + 1 := by
  have hinsert : liveSlots r' = insert t (liveSlots r) := by
    ext t'
    rw [Finset.mem_insert, mem_liveSlots, mem_liveSlots]
    by_cases htt : t' = t
    · rw [htt]
      exact iff_of_true hlive (.inl rfl)
    · rw [hother t' htt]
      exact (or_iff_right htt).symm
  rw [hinsert, Finset.card_insert_of_notMem fun ht => mem_liveSlots.mp ht hidle]

/-- What a push does to a slot and to the timers. -/
inductive TimerChange (allocated : Bool) (t : Fin 2) (r r' : Repeater) : Prop where
  | keeps (hlive : liveSlots r' = liveSlots r) (htimers : slotTimers r' = slotTimers r)
  | opens (hlive : (liveSlots r').card = (liveSlots r).card + 1)
    (hidle : (r.ts t).state = .idle) (hcall : (r'.ts t).state ≠ .idle)
    (htimers : slotTimers r' = slotTimers r + allocated.toNat)
  | ends (hlive : (liveSlots r).card = (liveSlots r').card + 1)
    (htimers : slotTimers r' = slotTimers r - 1)

theorem timerChange_newCall {config : RepeaterConfig} {allocated : Bool} {t : Fin 2}
    {parsed : DmrParsedPacket} {r : Repeater} {state : SlotState} (hstate : state ≠ .idle)
    (hidle : (r.ts t).state = .idle) :
    TimerChange allocated t r
      ((newIoTimer config allocated (takeUp t state parsed r)).setState t state) := by
  have hcall :
      (((newIoTimer config allocated (takeUp t state parsed r)).setState t state).ts t).state ≠
        .idle := by
    simpa [Repeater.setState] using hstate
  refine .opens (card_liveSlots_opens (fun t' ht => ?_) hidle hcall) hidle hcall ?_
  · simp [Repeater.setState, takeUp, ht]
  · exact slotTimers_newIoTimer config allocated (takeUp t state parsed r)

theorem timerChange_endCall {allocated : Bool} {t : Fin 2} {r : Repeater}
    (hlive : (r.ts t).state ≠ .idle) : TimerChange allocated t r (endCall t true r) := by
  refine .ends (card_liveSlots_opens (fun t' ht => ?_) ?_ hlive) ?_
  · simp [endCall, Repeater.setState, ht]
  · simp [endCall, Repeater.setState]
  · exact slotTimers_endIoTimer (r.setState t .idle)

theorem pushSlot_timerChange {config : RepeaterConfig} {allocated : Bool} {t : Fin 2}
    {parsed : DmrParsedPacket} {r r' : Repeater}
    (h : pushSlot config allocated t parsed r = some r') : TimerChange allocated t r r' := by
  unfold pushSlot at h
  split at h
  · next hidle =>
    split at h
    · cases h
      rw [newVoiceCall_takeUp]
      exact timerChange_newCall (by decide) hidle
    · split at h
      · cases h
        rw [newDataCall_takeUp]
        exact timerChange_newCall (by decide) hidle
      · cases h
        exact .keeps rfl rfl
  all_goals
    next hstate =>
      split at h
      · cases h
      · split at h
        · cases h
          refine timerChange_endCall ?_
          rw [hstate]
          decide
        · cases h
          exact .keeps rfl rfl

/-! ## Runs -/

/-- The data types with which an idle slot takes up a call. -/
def OpensCall (dataType : DmrDataType) : Prop :=
  dataType ∈ [DMR_DATA_TYPE_VOICE_LC, DMR_DATA_TYPE_VOICE_SYNC, DMR_DATA_TYPE_VOICE,
    DMR_DATA_TYPE_CSBK, DMR_DATA_TYPE_MBC_HEADER, DMR_DATA_TYPE_DATA_HEADER]

theorem pushSlot_opens_iff {config : RepeaterConfig} {allocated : Bool} {t : Fin 2}
    {parsed : DmrParsedPacket} {r r' : Repeater} (hidle : (r.ts t).state = .idle)
    (h : pushSlot config allocated t parsed r = some r') :
    (r'.ts t).state ≠ .idle ↔ OpensCall parsed.dataType := by
  unfold pushSlot at h
  rw [hidle] at h
  simp only at h
  split at h
  · next hvoice =>
    cases h
    refine iff_of_true ?_ ?_
    · simp [newVoiceCall, Repeater.setState]
    · simp only [OpensCall, List.mem_cons]
      tauto
  · next hvoice =>
    split at h
    · next hdata =>
      cases h
      refine iff_of_true ?_ ?_
      · simp [newDataCall, Repeater.setState]
      · simp only [OpensCall, List.mem_cons]
        tauto
    · next hdata =>
      cases h
      refine iff_of_false (not_not.mpr hidle) ?_
      simp only [OpensCall, List.mem_cons, List.not_mem_nil, or_false]
      tauto

variable (config : RepeaterConfig)

/-- The repeater after an event, whether or not the bridge survives the relaying. -/
def World.repeaterAfter (w : World) : Event config → Repeater
  | .push _ _ parsed env =>
    match slotOf parsed.ts with
    | none => w.repeater
    | some t => (pushSlot config env.timerAllocated t parsed w.repeater).getD w.repeater
  | .tick wait lag => tickRepeater config w wait lag
  | .wake wait => w.repeater.readClock (w.clock + wait)

/-- A call that a push opens gets its timer; a tick, however long after the loop read the clock
it comes to the turn of a slot, does not time a call out. -/
def KeepsTimers (h : History) : Event config → Prop
  | .push _ _ parsed env => ∀ t, slotOf parsed.ts = some t →
    (h.world.repeater.ts t).state = .idle → OpensCall parsed.dataType → env.timerAllocated = true
  | .tick wait lag => ∀ t, h.Live t → ¬ Late config h (reading (h.world.clock + wait) lag t)
  | .wake _ => True

variable {config} {conv : Conv}

theorem World.repeater_step {w w' : World} {e : Event config}
    (h : w.step config conv e = some w') : w'.repeater = w.repeaterAfter config e := by
  cases e with
  | push wait src parsed env =>
    simp only [World.step, bind, Option.bind_eq_some_iff, pure, Option.some.injEq] at h
    obtain ⟨t, ht, ret, hret, rfl⟩ := h
    simp only [World.repeaterAfter, ht]
    exact fst_pushProto
  | tick wait lag =>
    cases h
    rfl
  | wake wait =>
    cases h
    rfl

/-- A push keeps the count exactly when the call it may open gets a timer. -/
theorem timersMatch_push_iff {allocated : Bool} {t : Fin 2} {parsed : DmrParsedPacket}
    {r : Repeater} (hmatch : TimersMatch r) :
    TimersMatch ((pushSlot config allocated t parsed r).getD r) ↔
      ((r.ts t).state = .idle → OpensCall parsed.dataType → allocated = true) := by
  cases hpush : pushSlot config allocated t parsed r with
  | none =>
    refine iff_of_true hmatch fun hidle => ?_
    exact absurd hidle (pushSlot_eq_none_iff.mp hpush).1
  | some r' =>
    rw [Option.getD_some]
    unfold TimersMatch at hmatch ⊢
    have hopens := fun hidle => pushSlot_opens_iff hidle hpush
    cases pushSlot_timerChange hpush with
    | keeps hlive htimers =>
      refine iff_of_true (by rw [htimers, hlive, hmatch]) fun hidle hcall => ?_
      -- the slot would be in a call that it was not in
      have ht : t ∈ liveSlots r' := mem_liveSlots.mpr ((hopens hidle).mpr hcall)
      rw [hlive] at ht
      exact absurd hidle (mem_liveSlots.mp ht)
    | opens hlive hidle hcall htimers =>
      rw [hlive, htimers, hmatch]
      constructor
      · intro hcard _ _
        cases allocated with
        | false => exact absurd hcard (by simp)
        | true => rfl
      · intro halloc
        rw [halloc hidle ((hopens hidle).mp hcall), Bool.toNat_true]
    | ends hlive htimers =>
      refine iff_of_true (by omega) fun hidle hcall => ?_
      have hstate := (hopens hidle).mpr hcall
      have hcard := card_liveSlots_opens (pushSlot_spec hpush).other hidle hstate
      omega

/-- A tick takes down no timer, so it must free no slot. -/
theorem timersMatch_tick_iff {w : World} {wait : Nat} {lag : Fin 2 → Nat}
    (hmatch : TimersMatch w.repeater) :
    TimersMatch (tickRepeater config w wait lag) ↔
      ∀ t, (w.repeater.ts t).state ≠ .idle →
        ((tickRepeater config w wait lag).ts t).state ≠ .idle := by
  have htimers : slotTimers (tickRepeater config w wait lag) = slotTimers w.repeater := rfl
  have hsub : liveSlots (tickRepeater config w wait lag) ⊆ liveSlots w.repeater := by
    intro t ht
    rw [mem_liveSlots, tickRepeater_ts] at ht
    rw [slotTimeout_live ht] at ht
    exact mem_liveSlots.mpr ht
  unfold TimersMatch at hmatch ⊢
  rw [htimers, hmatch]
  constructor
  · intro hcard t ht
    rw [← mem_liveSlots] at ht ⊢
    rwa [Finset.eq_of_subset_of_card_le hsub hcard.le]
  · intro hlive
    refine (congrArg Finset.card (Finset.Subset.antisymm hsub fun t ht => ?_)).symm
    exact mem_liveSlots.mpr (hlive t (mem_liveSlots.mp ht))

theorem History.Inv.timersMatch_iff {h : History} (hinv : h.Inv)
    (hmatch : TimersMatch h.world.repeater) (e : Event config) :
    TimersMatch (h.world.repeaterAfter config e) ↔ KeepsTimers config h e := by
  cases e with
  | push wait src parsed env =>
    simp only [World.repeaterAfter, KeepsTimers]
    cases ht : slotOf parsed.ts with
    | none => exact iff_of_true hmatch fun t ht' => nomatch ht'
    | some t =>
      refine (timersMatch_push_iff hmatch).trans ⟨fun hkeep t' ht' => ?_, fun hkeep => hkeep t rfl⟩
      cases ht'
      exact hkeep
  | tick wait lag =>
    refine (timersMatch_tick_iff hmatch).trans ?_
    refine forall_congr' fun t => forall_congr' fun hlive => ?_
    have hread : h.lastRead ≤ reading (h.world.clock + wait) lag t := by
      have hle := hinv.lastRead
      rw [reading]
      omega
    rw [tickRepeater_ts, hinv.wallclock, Ne,
      slotTimeout_state_eq_idle_iff hlive (hinv.lastFrameReceived t) hread]
    exact Iff.rfl
  | wake wait => exact iff_of_true hmatch trivial

/-- The slots of a history, and one timer for each call. -/
structure History.TimersInv (h : History) : Prop extends h.Inv where
  timers : TimersMatch h.world.repeater

theorem History.TimersInv.step {h h' : History} {e : Event config} (hinv : h.TimersInv)
    (hmatch : TimersMatch (h.world.repeaterAfter config e))
    (hstep : h.step config conv e = some h') : h'.TimersInv := by
  refine ⟨History.inv_step hinv.toInv hstep, ?_⟩
  obtain ⟨w, hw, rfl⟩ := Option.map_eq_some_iff.mp hstep
  rw [History.world_observe, World.repeater_step hw]
  exact hmatch

/-- **Slot timers.** In every run from idle slots and without timers for them, there is one
timer for each call after every event if and only if every call that is opened gets its
timer and no tick times a call out. -/
theorem throughout_timersMatch_iff (config : RepeaterConfig) (conv : Conv)
    {timer : List (DmrIoTimer TimerCb)} (htimer : ∀ x ∈ timer, x.cb ≠ .slotTimer) (clock : Nat)
    (events : List (Event config)) :
    Throughout (History.step config conv)
        (fun h e => TimersMatch (h.world.repeaterAfter config e)) (.start timer clock) events ↔
      Throughout (History.step config conv) (KeepsTimers config) (.start timer clock) events := by
  have hstart : (History.start timer clock).TimersInv :=
    ⟨History.inv_start timer clock, timersMatch_start htimer clock⟩
  constructor
  · refine Throughout.mono (I := History.TimersInv) (fun h e hinv hmatch => ?_)
      (fun h e h' hinv hmatch hstep => hinv.step hmatch hstep) hstart
    exact (hinv.timersMatch_iff hinv.timers e).mp hmatch
  · refine Throughout.mono (I := History.TimersInv) (fun h e hinv hkeep => ?_)
      (fun h e h' hinv hkeep hstep => ?_) hstart
    · exact (hinv.timersMatch_iff hinv.timers e).mpr hkeep
    · exact hinv.step ((hinv.timersMatch_iff hinv.timers e).mpr hkeep) hstep

/-- A bridge of a modem and a Homebrew client, whose ping timer is there: the modem's voice call
on slot 1 goes through one tick in time and one that is late, and then a call on slot 2 begins
for which there is no timer. -/
theorem throughout_timersMatch_iff_modem :
    let config : RepeaterConfig :=
      ⟨180, [⟨"modem", DMR_PROTOCOL_MMDVM⟩, ⟨"homebrew", DMR_PROTOCOL_HOMEBREW⟩]⟩
    let conv : Conv := ⟨fun _ => none, fun _ => none, fun _ => "", fun _ => ""⟩
    let voice : DmrTs → DmrParsedPacket := fun ts =>
      ⟨Vector.replicate 33 0, ts, 0, 1, 2, 0, DMR_DATA_TYPE_VOICE, 1, 0, 7, 0, true⟩
    let env : Bool → PushEnv := fun allocated =>
      ⟨allocated, fun _ => true, fun _ _ => .ok .nil⟩
    let ping : DmrIoTimer TimerCb := ⟨⟨5, 0⟩, ⟨5, 0⟩, .homebrewIoPingTimer 0, false⟩
    let events : List (Event config) :=
      [.push 0 ⟨0, Nat.zero_lt_two⟩ (voice DMR_TS1) (env true), .wake 100000,
        .tick 0 (fun _ => 0), .wake 100000, .tick 0 (fun _ => 200000),
        .push 0 ⟨0, Nat.zero_lt_two⟩ (voice DMR_TS2) (env false)]
    Throughout (History.step config conv)
        (fun h e => TimersMatch (h.world.repeaterAfter config e)) (.start [ping] 0) events ↔
      Throughout (History.step config conv) (KeepsTimers config) (.start [ping] 0) events := by
  intro config conv voice env ping events
  have hping : ∀ x ∈ [ping], x.cb ≠ .slotTimer := by
    intro x hx
    rw [List.mem_singleton.mp hx]
    exact TimerCb.noConfusion
  exact throughout_timersMatch_iff config conv hping 0 events

/-- A voice call that a tick frees 200 milliseconds after the loop read the clock leaves its
timer behind. -/
theorem not_timersMatch_timeout :
    let config : RepeaterConfig := ⟨180, [⟨"modem", DMR_PROTOCOL_MMDVM⟩]⟩
    let conv : Conv := ⟨fun _ => none, fun _ => none, fun _ => "", fun _ => ""⟩
    let parsed : DmrParsedPacket :=
      ⟨Vector.replicate 33 0, DMR_TS1, 0, 1, 2, 0, DMR_DATA_TYPE_VOICE, 1, 0, 7, 0, true⟩
    let env : PushEnv := ⟨true, fun _ => true, fun _ _ => .ok .nil⟩
    ¬ Throughout (History.step config conv)
      (fun h e => TimersMatch (h.world.repeaterAfter config e)) (.start [] 0)
      [.push 0 0 parsed env, .wake 0, .tick 0 fun _ => 200000] := by
  intro config conv parsed env hall
  obtain ⟨h, hstep, hlive, hclock⟩ :
      ∃ h, History.step config conv (.start [] 0) (.push 0 0 parsed env) = some h ∧
        (h.world.repeater.ts 0).state = .voiceCall ∧ h.world.clock = 0 := ⟨_, rfl, rfl, rfl⟩
  obtain ⟨h', hstep', hlive', hclock', hread'⟩ :
      ∃ h', History.step config conv h (.wake 0) = some h' ∧
        (h'.world.repeater.ts 0).state = .voiceCall ∧ h'.world.clock = 0 ∧ h'.lastRead = 0 :=
    ⟨_, rfl, hlive, hclock, hclock⟩
  have hstart : (History.start [] 0).TimersInv :=
    ⟨History.inv_start [] 0, timersMatch_start (List.forall_mem_nil _) 0⟩
  have hinv : h'.TimersInv :=
    (hstart.step hall.1 hstep).step (hall.2 h hstep).1 hstep'
  have hkeep := (hinv.timersMatch_iff hinv.timers _).mp ((hall.2 h hstep).2 h' hstep').1
  have hlate := hkeep 0 (by rw [History.Live, hlive']; decide)
  rw [Late, hclock', hread'] at hlate
  exact absurd hlate (by decide)

end Dmrlib
