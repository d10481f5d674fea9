import Dmrlib.Noisebridge.Repeater

/-!
# Calls and their timeouts, over whole runs

A run is any interleaving of packets pushed from any source, timer ticks, and passes
of the I/O loop that read the clock. The clock is driven by the run itself: each event
says how much time goes by before it and between its own readings, so that no reading
is ever earlier than the one before. A tick does not set `io->wallclock`: with two calls
there are two timers, and one pass of the loop runs `slot_timer` twice with one wall clock.

- `World`, `Event`, `World.step`: the bridge and its clock, and what can happen to it.
- `History`: a run seen from outside, which stream opened the call of each slot, when each
  slot last accepted a packet, and when the loop last read the clock.
- `History.Inv`: what ties the two together; every event keeps it (`inv_step`).

Two properties of runs follow:

- `calls_isolated`: while a slot is in a call, it relays the stream that opened the
  call, and packets of other streams change nothing;
- `throughout_timeoutExact_iff`: a tick frees exactly the slots that have been silent
  for longer than the timeout, as long as that agrees with the time the tick itself
  takes. `slot_timer` subtracts a time stamp that is never set and then subtracts
  the result from the clock again, so the silence of the slot does not enter.
-/

namespace Dmrlib

open Lua Run

/-- The bridge and the clock, in microseconds. -/
structure World where
  repeater : Repeater
  stack : Stack
  clock : Nat

/-- What can happen to the bridge. -/
inductive Event (config : RepeaterConfig) where
  /-- After `wait`, a packet is pushed. -/
  | push (wait : Nat) (src : Fin config.protos.length) (parsed : DmrParsedPacket) (env : PushEnv)
  /-- After `wait`, `slot_timer` runs, with the wall clock that the loop has read last. It
  reads the clock again, `lag t` later, at the turn of slot `t`. -/
  | tick (wait : Nat) (lag : Fin 2 → Nat)
  /-- After `wait`, the loop reads the clock, as it does before it looks at its timers. -/
  | wake (wait : Nat)

/-- The reading of the clock at a slot's turn in a tick that begins at `start`. -/
def reading (start : Nat) (lag : Fin 2 → Nat) (t : Fin 2) : Nat :=
  start + (if t = 0 then lag 0 else lag 0 + lag 1)

/-- `gettimeofday(&io->wallclock, NULL)` -/
def Repeater.readClock (r : Repeater) (n : Nat) : Repeater :=
  { r with io := { r.io with wallclock := .ofMicros n } }

variable (config : RepeaterConfig) (conv : Conv)

/-- The repeater after a tick. -/
def tickRepeater (w : World) (wait : Nat) (lag : Fin 2 → Nat) : Repeater :=
  slotTimer config (fun t => .ofMicros (reading (w.clock + wait) lag t)) w.repeater

/-- One event. A packet with an invalid time slot, or an error that no one catches,
ends the run. -/
def World.step (w : World) : Event config → Option World
  | .push wait src parsed env => do
    let t ← slotOf parsed.ts
    let (repeater, out) := pushProto config conv env src t parsed ⟨w.repeater, w.stack⟩
    let _ ← out.ret
    return ⟨repeater, out.stack, w.clock + wait⟩
  | .tick wait lag =>
    some { w with
      repeater := tickRepeater config w wait lag
      clock := reading (w.clock + wait) lag 1 }
  | .wake wait =>
    some { w with repeater := w.repeater.readClock (w.clock + wait), clock := w.clock + wait }

/-- The bridge after `init_repeater`, with the timers of its protocols registered. -/
def World.start (timer : List (DmrIoTimer TimerCb)) (clock : Nat) : World where
  repeater :=
    { ts := fun _ => ⟨0, 0, .idle, 0, ⟨0, 0⟩⟩
      io := ⟨.ofMicros clock, timer⟩ }
  stack := []
  clock := clock

/-! ## Histories -/

/-- A run seen from outside: the stream that opened the last call of each slot, the time at
which each slot last accepted a packet, and the time at which the loop last read the clock. -/
structure History where
  world : World
  opener : Fin 2 → UInt32
  lastAccepted : Fin 2 → Nat
  lastRead : Nat

/-- The slot of a history is in a call. -/
def History.Live (h : History) (t : Fin 2) : Prop := (h.world.repeater.ts t).state ≠ .idle

/-- What an event adds to a history. -/
def History.observe (h : History) (w : World) : Event config → History
  | .push _ _ parsed env =>
    match slotOf parsed.ts with
    | none => { h with world := w }
    | some t =>
      { h with
        world := w
        opener :=
          if (h.world.repeater.ts t).state = .idle ∧ (w.repeater.ts t).state ≠ .idle then
            Function.update h.opener t parsed.streamId
          else h.opener
        lastAccepted :=
          if (pushSlot config env.timerAllocated t parsed h.world.repeater).isSome then
            Function.update h.lastAccepted t w.clock
          else h.lastAccepted }
  | .tick _ _ => { h with world := w }
  | .wake _ => { h with world := w, lastRead := w.clock }

def History.step (h : History) (e : Event config) : Option History :=
  (h.world.step config conv e).map fun w => h.observe config w e

def History.start (timer : List (DmrIoTimer TimerCb)) (clock : Nat) : History :=
  ⟨.start timer clock, fun _ => 0, fun _ => 0, clock⟩

/-- What ties a history to the state of the bridge. -/
structure History.Inv (h : History) : Prop where
  opener : ∀ t, h.Live t → (h.world.repeater.ts t).streamId = h.opener t
  lastFrameReceived : ∀ t, (h.world.repeater.ts t).lastFrameReceived = ⟨0, 0⟩
  lastAccepted : ∀ t, h.lastAccepted t ≤ h.world.clock
  wallclock : h.world.repeater.io.wallclock = .ofMicros h.lastRead
  lastRead : h.lastRead ≤ h.world.clock

theorem History.inv_start (timer : List (DmrIoTimer TimerCb)) (clock : Nat) :
    (History.start timer clock).Inv where
  opener _ hlive := absurd rfl hlive
  lastFrameReceived _ := rfl
  lastAccepted _ := Nat.zero_le _
  wallclock := rfl
  lastRead := le_rfl

variable {config conv}

@[simp]
theorem History.world_observe (h : History) (w : World) (e : Event config) :
    (h.observe config w e).world = w := by
  cases e with
  | push wait src parsed env =>
    simp only [observe]
    split <;> rfl
  | _ => rfl

/-- A push that the bridge survives, taken apart. -/
theorem History.step_push {h h' : History} {wait : Nat} {src : Fin config.protos.length}
    {parsed : DmrParsedPacket} {env : PushEnv}
    (hstep : h.step config conv (.push wait src parsed env) = some h') :
    ∃ t, slotOf parsed.ts = some t ∧
      h'.world.repeater =
        (pushSlot config env.timerAllocated t parsed h.world.repeater).getD h.world.repeater ∧
      h'.world.clock = h.world.clock + wait ∧
      h' = h.observe config h'.world (.push wait src parsed env) := by
  obtain ⟨w, hw, rfl⟩ := Option.map_eq_some_iff.mp hstep
  simp only [World.step, bind, Option.bind_eq_some_iff, pure, Option.some.injEq] at hw
  obtain ⟨t, ht, ret, hret, rfl⟩ := hw
  refine ⟨t, ht, ?_, ?_, ?_⟩
  · rw [world_observe, fst_pushProto]
  · rw [world_observe]
  · rw [world_observe]

/-- The invariant survives a push … -/
theorem History.inv_push {h h' : History} {wait : Nat} {src : Fin config.protos.length}
    {parsed : DmrParsedPacket} {env : PushEnv} (hinv : h.Inv)
    (hstep : h.step config conv (.push wait src parsed env) = some h') : h'.Inv := by
  obtain ⟨t, ht, hrep, hclock, hobs⟩ := History.step_push hstep
  generalize h'.world = w at hrep hclock hobs
  have hle : ∀ t, h.lastAccepted t ≤ w.clock := fun t =>
    hclock ▸ (hinv.lastAccepted t).trans (Nat.le_add_right _ _)
  have hread : h.lastRead ≤ w.clock := hclock ▸ hinv.lastRead.trans (Nat.le_add_right _ _)
  rw [hobs]
  simp only [observe, ht]
  -- a push that is refused changes no slot
  cases hpush : pushSlot config env.timerAllocated t parsed h.world.repeater with
  | none =>
    rw [hpush, Option.getD_none] at hrep
    have hsame : ¬ ((h.world.repeater.ts t).state = .idle ∧
        (h.world.repeater.ts t).state ≠ .idle) := fun hx => hx.2 hx.1
    simp only [hrep, if_neg hsame, Option.isSome_none, Bool.false_eq_true, if_false]
    refine ⟨fun t' hlive => ?_, fun t' => ?_, hle, ?_, hread⟩
    · rw [Live, hrep] at hlive
      simp only [hrep]
      exact hinv.opener t' hlive
    · simp only [hrep]
      exact hinv.lastFrameReceived t'
    · simp only [hrep]
      exact hinv.wallclock
  | some r' =>
    rw [hpush, Option.getD_some] at hrep
    have hacc := pushSlot_spec hpush
    simp only [hrep, Option.isSome_some, if_true]
    refine ⟨fun t' hlive => ?_, fun t' => ?_, fun t' => ?_, ?_, hread⟩
    · simp only [Live, hrep] at hlive ⊢
      by_cases htt : t' = t
      · subst htt
        have hslot := hacc.slot
        generalize r'.ts t' = new at hslot hlive ⊢
        cases hslot with
        | keeps =>
          rw [if_neg fun hx => hx.2 hx.1]
          exact hinv.opener t' hlive
        | opens hold hstate => rw [if_pos ⟨hold, hstate⟩, Function.update_self]
        | ends hold => exact absurd rfl hlive
      · rw [hacc.other t' htt] at hlive ⊢
        split
        · rw [Function.update_of_ne htt]
          exact hinv.opener t' hlive
        · exact hinv.opener t' hlive
    · simp only [hrep]
      exact (hacc.lastFrameReceived t').trans (hinv.lastFrameReceived t')
    · change Function.update h.lastAccepted t w.clock t' ≤ w.clock
      by_cases htt : t' = t
      · rw [htt, Function.update_self]
      · rw [Function.update_of_ne htt]
        exact hle t'
    · simp only [hrep]
      exact hacc.wallclock.trans hinv.wallclock

theorem tickRepeater_ts (w : World) (wait : Nat) (lag : Fin 2 → Nat) (t : Fin 2) :
    (tickRepeater config w wait lag).ts t =
      slotTimeout config w.repeater.io.wallclock (.ofMicros (reading (w.clock + wait) lag t))
        (w.repeater.ts t) := by
  rw [tickRepeater, slotTimer_ts]

/-- … and every other event. -/
theorem History.inv_step {h h' : History} {e : Event config} (hinv : h.Inv)
    (hstep : h.step config conv e = some h') : h'.Inv := by
  cases e with
  | push wait src parsed env => exact History.inv_push hinv hstep
  | tick wait lag =>
    cases hstep
    have hclock : h.world.clock ≤ reading (h.world.clock + wait) lag 1 := by
      rw [reading]
      omega
    refine ⟨fun t hlive => ?_, fun t => ?_, fun t => (hinv.lastAccepted t).trans hclock,
      hinv.wallclock, hinv.lastRead.trans hclock⟩
    · simp only [Live, observe, tickRepeater_ts] at hlive ⊢
      have hsame := slotTimeout_live hlive
      rw [hsame] at hlive ⊢
      exact hinv.opener t hlive
    · simp only [observe, tickRepeater_ts, lastFrameReceived_slotTimeout]
      exact hinv.lastFrameReceived t
  | wake wait =>
    cases hstep
    exact ⟨hinv.opener, hinv.lastFrameReceived,
      fun t => (hinv.lastAccepted t).trans (Nat.le_add_right _ _), rfl, le_rfl⟩

/-! ## Calls are isolated -/

/-- A push relays the stream that opened the slot's call, and ignores any other. -/
structure IsolatedPush (config : RepeaterConfig) (conv : Conv) (h : History)
    (src : Fin config.protos.length) (parsed : DmrParsedPacket) (env : PushEnv) (t : Fin 2) :
    Prop where
  /-- The packet that may open a call is relayed under its own stream. -/
  opened : ∀ p ∈ (pushProto config conv env src t parsed
    ⟨h.world.repeater, h.world.stack⟩).2.offered, p.2.streamId = parsed.streamId
  /-- Whatever is relayed during a call belongs to the stream that opened it. -/
  carried : h.Live t → ∀ p ∈ (pushProto config conv env src t parsed
    ⟨h.world.repeater, h.world.stack⟩).2.offered, p.2.streamId = h.opener t
  /-- A packet of another stream does not reach `route` and changes no slot. -/
  dropped : h.Live t → parsed.streamId ≠ h.opener t →
    pushProto config conv env src t parsed ⟨h.world.repeater, h.world.stack⟩ =
      (h.world.repeater, ⟨some 0, h.world.stack, [], []⟩)

/-- Every push of a valid time slot is isolated. -/
def Isolated (config : RepeaterConfig) (conv : Conv) (h : History) : Event config → Prop
  | .push _ src parsed env =>
    ∀ t, slotOf parsed.ts = some t → IsolatedPush config conv h src parsed env t
  | _ => True

theorem History.Inv.isolated {h : History} (hinv : h.Inv) (e : Event config) :
    Isolated config conv h e := by
  cases e with
  | push wait src parsed env =>
    intro t _
    have hopened : ∀ p ∈ (pushProto config conv env src t parsed
        ⟨h.world.repeater, h.world.stack⟩).2.offered, p.2 = parsed := by
      unfold pushProto
      split
      · simp
      · exact relay_offered
    have hdropped : h.Live t → parsed.streamId ≠ h.opener t →
        pushProto config conv env src t parsed ⟨h.world.repeater, h.world.stack⟩ =
          (h.world.repeater, ⟨some 0, h.world.stack, [], []⟩) := by
      intro hlive hne
      rw [← hinv.opener t hlive] at hne
      unfold pushProto
      rw [pushSlot_eq_none_iff.mpr ⟨hlive, hne⟩]
    refine ⟨fun p hp => by rw [hopened p hp], fun hlive p hp => ?_, hdropped⟩
    by_contra hne
    rw [hopened p hp] at hne
    rw [hdropped hlive hne] at hp
    cases hp
  | _ => trivial

/-- **Call isolation.** In every run from idle slots, a slot that is in a call relays
the stream that opened the call and nothing else. -/
theorem calls_isolated (config : RepeaterConfig) (conv : Conv)
    (timer : List (DmrIoTimer TimerCb)) (clock : Nat) (events : List (Event config)) :
    Throughout (History.step config conv) (Isolated config conv) (.start timer clock) events :=
  Throughout.of_inv (fun _ e hinv => hinv.isolated e)
    (fun _ _ _ hinv hstep => History.inv_step hinv hstep) (History.inv_start timer clock) events

/-! ## Timeouts -/

/-- The slot has accepted nothing for longer than the timeout. -/
def Silent (config : RepeaterConfig) (h : History) (now : Nat) (t : Fin 2) : Prop :=
  config.timeout.toNat * 1000 < now - h.lastAccepted t

/-- The loop has read the clock longer ago than the timeout, in milliseconds to the nearest
one, kept in 32 bits. -/
def Late (config : RepeaterConfig) (h : History) (now : Nat) : Prop :=
  config.timeout.toNat < (now - h.lastRead + 500) / 1000 % 2 ^ 32

/-- A tick frees a slot exactly when the slot has accepted nothing for longer than the
timeout, as the clock reads at the slot's turn. -/
def TimeoutExact (config : RepeaterConfig) (h : History) : Event config → Prop
  | .tick wait lag => ∀ t, h.Live t →
    (((tickRepeater config h.world wait lag).ts t).state = .idle ↔
      Silent config h (reading (h.world.clock + wait) lag t) t)
  | _ => True

/-- The turn of a slot in a call comes late exactly when the slot is silent. -/
def LateIffSilent (config : RepeaterConfig) (h : History) : Event config → Prop
  | .tick wait lag => ∀ t, h.Live t →
    (Late config h (reading (h.world.clock + wait) lag t) ↔
      Silent config h (reading (h.world.clock + wait) lag t) t)
  | _ => True

/-- In a pass of the loop no packet comes between the reading of the clock and the ticks. What
is asked is then that each call is within its timeout, or the tick itself takes longer. -/
theorem late_iff_silent_iff {h : History} {now : Nat} {t : Fin 2}
    (hread : h.lastAccepted t ≤ h.lastRead) :
    (Late config h now ↔ Silent config h now t) ↔ ¬ Silent config h now t ∨ Late config h now := by
  have hsilent : Late config h now → Silent config h now t := by
    unfold Late Silent
    intro hlate
    have hmod := Nat.mod_le ((now - h.lastRead + 500) / 1000) (2 ^ 32)
    omega
  tauto

/-- With a time stamp of zero, what counts is how long ago the loop read the clock. -/
theorem slotTimeout_state_eq_idle_iff {rts : RepeaterSlot} (hlive : rts.state ≠ .idle)
    (hzero : rts.lastFrameReceived = ⟨0, 0⟩) {wallclock now : Nat} (h : wallclock ≤ now) :
    (slotTimeout config (.ofMicros wallclock) (.ofMicros now) rts).state = .idle ↔
      config.timeout.toNat < (now - wallclock + 500) / 1000 % 2 ^ 32 := by
  have hdelta : timersub (.ofMicros wallclock) rts.lastFrameReceived = .ofMicros wallclock := by
    rw [hzero]
    exact timersub_ofMicros (Nat.zero_le wallclock)
  have hms : dmrTimeMsSince (.ofMicros now) (.ofMicros wallclock) > config.timeout.toUInt32 ↔
      config.timeout.toNat < (now - wallclock + 500) / 1000 % 2 ^ 32 := by
    rw [gt_iff_lt, UInt32.lt_iff_toNat_lt, toNat_dmrTimeMsSince h, UInt16.toNat_toUInt32]
  rw [← hms]
  simp only [slotTimeout, if_neg hlive, hdelta]
  split
  · next hlt => exact iff_of_true rfl hlt
  · next hge => exact iff_of_false hlive hge

theorem History.Inv.timeoutExact_iff {h : History} (hinv : h.Inv) (e : Event config) :
    TimeoutExact config h e ↔ LateIffSilent config h e := by
  cases e with
  | tick wait lag =>
    refine forall_congr' fun t => forall_congr' fun hlive => ?_
    have hread : h.lastRead ≤ reading (h.world.clock + wait) lag t := by
      have hle := hinv.lastRead
      rw [reading]
      omega
    rw [tickRepeater_ts, hinv.wallclock,
      slotTimeout_state_eq_idle_iff hlive (hinv.lastFrameReceived t) hread]
    exact Iff.rfl
  | _ => exact Iff.rfl

/-- **Timeouts.** In every run from idle slots, the ticks free exactly the slots that have
been silent for too long if and only if at every tick the turn of a call comes late, counted
from when the loop read the clock, exactly when its slot is silent. For the ticks of a pass
over the timers, which begins by reading the clock, `late_iff_silent_iff` says what that is. -/
theorem throughout_timeoutExact_iff (config : RepeaterConfig) (conv : Conv)
    (timer : List (DmrIoTimer TimerCb)) (clock : Nat) (events : List (Event config)) :
    Throughout (History.step config conv) (TimeoutExact config) (.start timer clock) events ↔
      Throughout (History.step config conv) (LateIffSilent config) (.start timer clock) events :=
  throughout_congr (fun _ e hinv => hinv.timeoutExact_iff e)
    (fun _ _ _ hinv hstep => History.inv_step hinv hstep) (History.inv_start timer clock) events

/-- A voice call of one packet is not freed by a tick 200 seconds later, with a timeout
of 180 milliseconds. -/
theorem not_timeoutExact :
    let config : RepeaterConfig := ⟨180, [⟨"modem", DMR_PROTOCOL_MMDVM⟩]⟩
    let conv : Conv := ⟨fun _ => none, fun _ => none, fun _ => "", fun _ => ""⟩
    let parsed : DmrParsedPacket :=
      ⟨Vector.replicate 33 0, DMR_TS1, 0, 1, 2, 0, DMR_DATA_TYPE_VOICE, 1, 0, 7, 0, true⟩
    let env : PushEnv := ⟨true, fun _ => true, fun _ _ => .ok .nil⟩
    ¬ Throughout (History.step config conv) (TimeoutExact config) (.start [] 0)
      [.push 0 0 parsed env, .wake 200000000, .tick 0 fun _ => 0] := by
  intro config conv parsed env hall
  obtain ⟨h, hstep, hlive, hlast, hclock⟩ :
      ∃ h, History.step config conv (.start [] 0) (.push 0 0 parsed env) = some h ∧
        (h.world.repeater.ts 0).state = .voiceCall ∧ h.lastAccepted 0 = 0 ∧
          h.world.clock = 0 := ⟨_, rfl, rfl, rfl, rfl⟩
  obtain ⟨h', hstep', hlive', hlast', hclock', hread'⟩ :
      ∃ h', History.step config conv h (.wake 200000000) = some h' ∧
        (h'.world.repeater.ts 0).state = .voiceCall ∧ h'.lastAccepted 0 = 0 ∧
          h'.world.clock = 200000000 ∧ h'.lastRead = 200000000 := by
    refine ⟨_, rfl, hlive, hlast, ?_, ?_⟩ <;> exact congrArg (· + 200000000) hclock
  have hinv : h'.Inv := History.inv_step (History.inv_step (History.inv_start [] 0) hstep) hstep'
  have htick := (hinv.timeoutExact_iff _).mp ((hall.2 h hstep).2 h' hstep').1
  have hcase := htick 0 (by rw [History.Live, hlive']; decide)
  rw [Late, Silent, hlast', hclock', hread'] at hcase
  exact absurd hcase (by decide)

end Dmrlib
