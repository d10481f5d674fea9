import Dmrlib.Io
import Dmrlib.Lib.Loop
import Dmrlib.Noisebridge.Route

/-!
# The repeater (`src/cmd/noisebridge/repeater.c`)

The bridge has two time slots, each idle or in a data or voice call. `pushProto`
takes a packet received from one protocol, moves the packet's slot through the call
states, and offers a copy of the packet to every other protocol through `route`.
`slotTimer` frees slots whose call has gone silent.

`pushSlot_spec` and `slotTimer_ts` say what either does to the slots; every run
result is derived from these two.

- `Repeater`, `RepeaterSlot`: the two slots, and the timers of the loop.
- `pushSlot`: the part of `push_proto` that is about the slots.
- `relay`, `pushProto`: the packet to all other protocols, and the whole function.
- `slotTimer`, `slotTimeout`: the timer callback, and its work on one slot.
- `Accepted`: what a packet may do to the slots.
-/

namespace Dmrlib

open Loop Lua Run

/-- `slot_state` -/
inductive SlotState where
  | idle
  | dataCall
  | voiceCall
deriving DecidableEq

/-- `repeater_slot_t` -/
structure RepeaterSlot where
  srcId : DmrId
  dstId : DmrId
  state : SlotState
  streamId : UInt32
  lastFrameReceived : Timeval

/-- The callbacks that end up on the timer list of the bridge's I/O loop. -/
inductive TimerCb where
  | slotTimer
  | homebrewIoPingTimer (homebrew : Nat)
deriving DecidableEq

/-- `repeater_t` -/
structure Repeater where
  ts : Fin 2 → RepeaterSlot
  io : DmrIo TimerCb

/-- The parts of `config_t` that the repeater uses; a protocol is known by its
position in the list. -/
structure RepeaterConfig where
  timeout : UInt16
  protos : List Proto

/-- Protocol types (`dmr_protocol_type`). -/
abbrev DMR_PROTOCOL_HOMEBREW : UInt32 := 0x01
abbrev DMR_PROTOCOL_MMDVM : UInt32 := 0x40

/-- `repeater->ts[ts]`: the array has two entries. -/
def slotOf (ts : DmrTs) : Option (Fin 2) :=
  if ts = DMR_TS1 then some ⟨0, Nat.zero_lt_two⟩
  else if ts = DMR_TS2 then some ⟨1, Nat.one_lt_two⟩
  else none

namespace Repeater

/-- Replace one slot. -/
def setSlot (r : Repeater) (t : Fin 2) (rts : RepeaterSlot) : Repeater :=
  { r with ts := Function.update r.ts t rts }

/-- `rts->state = state` -/
def setState (r : Repeater) (t : Fin 2) (state : SlotState) : Repeater :=
  r.setSlot t { r.ts t with state := state }

@[simp]
theorem ts_setSlot (r : Repeater) (t : Fin 2) (rts : RepeaterSlot) :
    (r.setSlot t rts).ts t = rts := Function.update_self ..

@[simp]
theorem ts_setSlot_other (r : Repeater) {t t' : Fin 2} (rts : RepeaterSlot) (h : t' ≠ t) :
    (r.setSlot t rts).ts t' = r.ts t' := Function.update_of_ne h ..

theorem io_setSlot (r : Repeater) (t : Fin 2) (rts : RepeaterSlot) :
    (r.setSlot t rts).io = r.io := rfl

end Repeater

/-! ## Timers -/

/-- The body of the loop in `slot_timer`, for a slot whose turn comes when the clock
reads `now`. -/
def slotTimeout (config : RepeaterConfig) (wallclock now : Timeval) (rts : RepeaterSlot) :
    RepeaterSlot :=
  if rts.state = .idle then rts
  else
    let delta := timersub wallclock rts.lastFrameReceived
    let ms := dmrTimeMsSince now delta
    if ms > config.timeout.toUInt32 then { rts with state := .idle } else rts

/-- `slot_timer`; `now` gives the reading of the clock at each slot's turn. -/
def slotTimer (config : RepeaterConfig) (now : Fin 2 → Timeval) (r : Repeater) : Repeater :=
  forLoop 2 (fun ts r => r.setSlot ts (slotTimeout config r.io.wallclock (now ts) (r.ts ts))) r

/-- `end_io_timer` -/
def endIoTimer (r : Repeater) : Repeater :=
  { r with io := (dmrIoDelTimer r.io .slotTimer).2 }

/-- `new_io_timer` -/
def newIoTimer (config : RepeaterConfig) (allocated : Bool) (r : Repeater) : Repeater :=
  let slottimeout : Timeval :=
    ⟨(config.timeout / 1000).toNat, (config.timeout % 1000).toNat * 1000⟩
  { r with io := (dmrIoRegTimer r.io slottimeout .slotTimer false allocated).2 }

@[simp]
theorem ts_endIoTimer (r : Repeater) : (endIoTimer r).ts = r.ts := rfl

@[simp]
theorem wallclock_endIoTimer (r : Repeater) :
    (endIoTimer r).io.wallclock = r.io.wallclock := rfl

@[simp]
theorem ts_newIoTimer (config : RepeaterConfig) (allocated : Bool) (r : Repeater) :
    (newIoTimer config allocated r).ts = r.ts := rfl

@[simp]
theorem wallclock_newIoTimer (config : RepeaterConfig) (allocated : Bool) (r : Repeater) :
    (newIoTimer config allocated r).io.wallclock = r.io.wallclock := by
  simp [newIoTimer]

/-! ## Calls -/

/-- `end_data_call` and `end_voice_call` are the same but for what they log. -/
def endCall (t : Fin 2) (killTimer : Bool) (r : Repeater) : Repeater :=
  let r := r.setState t .idle
  if killTimer then endIoTimer r else r

/-- `end_data_call` -/
def endDataCall := endCall

/-- `end_voice_call` -/
def endVoiceCall := endCall

/-- `new_data_call` -/
def newDataCall (config : RepeaterConfig) (allocated : Bool) (t : Fin 2) (r : Repeater) :
    Repeater :=
  let r := if (r.ts t).state = .voiceCall then endVoiceCall t false r
    else newIoTimer config allocated r
  r.setState t .dataCall

/-- `new_voice_call` -/
def newVoiceCall (config : RepeaterConfig) (allocated : Bool) (t : Fin 2) (r : Repeater) :
    Repeater :=
  let r := if (r.ts t).state = .dataCall then endDataCall t false r
    else newIoTimer config allocated r
  r.setState t .voiceCall

/-- The four assignments with which an idle slot takes up a call. -/
def takeUp (t : Fin 2) (state : SlotState) (parsed : DmrParsedPacket) (r : Repeater) : Repeater :=
  r.setSlot t { r.ts t with
    state := state, srcId := parsed.srcId, dstId := parsed.dstId, streamId := parsed.streamId }

/-- A slot that takes up a call was in no other one, so it gets a timer. -/
theorem newVoiceCall_takeUp (config : RepeaterConfig) (allocated : Bool) (t : Fin 2)
    (parsed : DmrParsedPacket) (r : Repeater) :
    newVoiceCall config allocated t (takeUp t .voiceCall parsed r) =
      (newIoTimer config allocated (takeUp t .voiceCall parsed r)).setState t .voiceCall := by
  simp [newVoiceCall, takeUp]

theorem newDataCall_takeUp (config : RepeaterConfig) (allocated : Bool) (t : Fin 2)
    (parsed : DmrParsedPacket) (r : Repeater) :
    newDataCall config allocated t (takeUp t .dataCall parsed r) =
      (newIoTimer config allocated (takeUp t .dataCall parsed r)).setState t .dataCall := by
  simp [newDataCall, takeUp]

/-- The switch at the head of `push_proto`; `none` when the packet is ignored. -/
def pushSlot (config : RepeaterConfig) (allocated : Bool) (t : Fin 2) (parsed : DmrParsedPacket)
    (r : Repeater) : Option Repeater :=
  match (r.ts t).state with
  | .idle =>
    if parsed.dataType = DMR_DATA_TYPE_VOICE_LC ∨ parsed.dataType = DMR_DATA_TYPE_VOICE_SYNC ∨
        parsed.dataType = DMR_DATA_TYPE_VOICE then
      some (newVoiceCall config allocated t (takeUp t .voiceCall parsed r))
    else if parsed.dataType = DMR_DATA_TYPE_CSBK ∨ parsed.dataType = DMR_DATA_TYPE_MBC_HEADER ∨
        parsed.dataType = DMR_DATA_TYPE_DATA_HEADER then
      some (newDataCall config allocated t (takeUp t .dataCall parsed r))
    else some r
  | .dataCall =>
    if parsed.streamId ≠ (r.ts t).streamId then none
    else if parsed.dataType = DMR_DATA_TYPE_VOICE_PI ∨ parsed.dataType = DMR_DATA_TYPE_VOICE_LC ∨
        parsed.dataType = DMR_DATA_TYPE_TERMINATOR_WITH_LC then
      some (endDataCall t true r)
    else some r
  | .voiceCall =>
    if parsed.streamId ≠ (r.ts t).streamId then none
    else if parsed.dataType = DMR_DATA_TYPE_TERMINATOR_WITH_LC then some (endVoiceCall t true r)
    else some r

/-! ## Relaying -/

/-- What the surroundings decide while a packet is pushed: whether there is memory for
a new timer and for each copy, and what the script does for each destination. -/
structure PushEnv where
  timerAllocated : Bool
  cloned : Nat → Bool
  script : Nat → List LuaValue → Except LuaValue LuaValue

/-- What `push_proto` leaves behind: its return value (`none` when an uncaught error
ends the process), the copies offered to `route` and those handed to a destination,
each with the position of the destination. -/
structure Relayed where
  ret : Option Int
  stack : Stack
  offered : List (Nat × DmrParsedPacket)
  sent : List (Nat × DmrParsedPacket)

/-- The loop over the destinations. The results of the sends are only logged, and a
protocol of another type is sent nothing. -/
def relay (conv : Conv) (env : PushEnv) (src : Nat) (srcProto : Proto)
    (parsed : DmrParsedPacket) : List (Proto × Nat) → Stack → Relayed
  | [], L => ⟨some 0, L, [], []⟩
  | (dst, i) :: rest, L =>
    if i = src then relay conv env src srcProto parsed rest L
    else if env.cloned i then
      match route conv L ⟨srcProto, dst, parsed, env.script i⟩ with
      | none => ⟨none, L, [(i, parsed)], []⟩
      | some outcome =>
        let out := relay conv env src srcProto parsed rest outcome.stack
        let sends := outcome.policy ≠ .reject ∧
          (dst.type = DMR_PROTOCOL_HOMEBREW ∨ dst.type = DMR_PROTOCOL_MMDVM)
        { out with
          offered := (i, parsed) :: out.offered
          sent := if sends then (i, outcome.parsed) :: out.sent else out.sent }
    else ⟨some (-1), L, [], []⟩

/-- The repeater and the Lua stack it shares between calls of `route`. -/
structure Bridge where
  repeater : Repeater
  stack : Stack

/-- `push_proto` for a packet of slot `t`: the slots after it, and what was relayed. -/
def pushProto (config : RepeaterConfig) (conv : Conv) (env : PushEnv)
    (src : Fin config.protos.length) (t : Fin 2) (parsed : DmrParsedPacket) (b : Bridge) :
    Repeater × Relayed :=
  match pushSlot config env.timerAllocated t parsed b.repeater with
  | none => (b.repeater, ⟨some 0, b.stack, [], []⟩)
  | some r =>
    (r, relay conv env src config.protos[src] parsed config.protos.zipIdx b.stack)

/-! ## What a push does to the slots -/

/-- The ways an accepted packet can leave its slot: as it was, taken up, or idle. -/
inductive SlotChange (parsed : DmrParsedPacket) (old : RepeaterSlot) : RepeaterSlot → Prop where
  | keeps : SlotChange parsed old old
  | opens {state : SlotState} (hold : old.state = .idle) (hstate : state ≠ .idle) :
    SlotChange parsed old { old with
      state := state, srcId := parsed.srcId, dstId := parsed.dstId, streamId := parsed.streamId }
  | ends (hold : old.state ≠ .idle) : SlotChange parsed old { old with state := .idle }

/-- What is known of the repeater after it accepted a packet of slot `t`. -/
structure Accepted (t : Fin 2) (parsed : DmrParsedPacket) (r r' : Repeater) : Prop where
  slot : SlotChange parsed (r.ts t) (r'.ts t)
  other : ∀ t', t' ≠ t → r'.ts t' = r.ts t'
  stream : (r.ts t).state ≠ .idle → parsed.streamId = (r.ts t).streamId
  wallclock : r'.io.wallclock = r.io.wallclock

theorem Accepted.refl {t : Fin 2} {parsed : DmrParsedPacket} {r : Repeater}
    (h : (r.ts t).state ≠ .idle → parsed.streamId = (r.ts t).streamId) :
    Accepted t parsed r r :=
  ⟨.keeps, fun _ _ => rfl, h, rfl⟩

/-- Accepting a packet notes no time. -/
theorem Accepted.lastFrameReceived {t : Fin 2} {parsed : DmrParsedPacket} {r r' : Repeater}
    (h : Accepted t parsed r r') (t' : Fin 2) :
    (r'.ts t').lastFrameReceived = (r.ts t').lastFrameReceived := by
  by_cases htt : t' = t
  · subst htt
    have hslot := h.slot
    generalize r'.ts t' = new at hslot ⊢
    cases hslot <;> rfl
  · rw [h.other t' htt]

theorem accepted_newVoiceCall {config : RepeaterConfig} {allocated : Bool} {t : Fin 2}
    {parsed : DmrParsedPacket} {r : Repeater} (hidle : (r.ts t).state = .idle) :
    Accepted t parsed r (newVoiceCall config allocated t (takeUp t .voiceCall parsed r)) where
  slot := by
    have hopen := @SlotChange.opens parsed _ .voiceCall hidle (by decide)
    simpa [newVoiceCall, takeUp, Repeater.setState] using hopen
  other t' ht := by simp [newVoiceCall, takeUp, Repeater.setState, ht]
  stream h := absurd hidle h
  wallclock := by simp [newVoiceCall, takeUp, Repeater.setState, Repeater.io_setSlot]

theorem accepted_newDataCall {config : RepeaterConfig} {allocated : Bool} {t : Fin 2}
    {parsed : DmrParsedPacket} {r : Repeater} (hidle : (r.ts t).state = .idle) :
    Accepted t parsed r (newDataCall config allocated t (takeUp t .dataCall parsed r)) where
  slot := by
    have hopen := @SlotChange.opens parsed _ .dataCall hidle (by decide)
    simpa [newDataCall, takeUp, Repeater.setState] using hopen
  other t' ht := by simp [newDataCall, takeUp, Repeater.setState, ht]
  stream h := absurd hidle h
  wallclock := by simp [newDataCall, takeUp, Repeater.setState, Repeater.io_setSlot]

theorem accepted_endCall {t : Fin 2} {parsed : DmrParsedPacket} {r : Repeater}
    (hlive : (r.ts t).state ≠ .idle) (hstream : parsed.streamId = (r.ts t).streamId) :
    Accepted t parsed r (endCall t true r) where
  slot := by
    have hend := @SlotChange.ends parsed _ hlive
    simpa [endCall, Repeater.setState] using hend
  other t' ht := by simp [endCall, Repeater.setState, ht]
  stream _ := hstream
  wallclock := by simp [endCall, Repeater.setState, Repeater.io_setSlot]

theorem pushSlot_spec {config : RepeaterConfig} {allocated : Bool} {t : Fin 2}
    {parsed : DmrParsedPacket} {r r' : Repeater}
    (h : pushSlot config allocated t parsed r = some r') : Accepted t parsed r r' := by
  unfold pushSlot at h
  split at h
  · next hidle =>
    split at h
    · cases h
      exact accepted_newVoiceCall hidle
    · split at h
      · cases h
        exact accepted_newDataCall hidle
      · cases h
        exact .refl fun hlive => absurd hidle hlive
  -- a data call and a voice call differ in nothing but the state
  all_goals
    next hstate =>
      split at h
      · cases h
      · next hstream =>
        have hlive : (r.ts t).state ≠ .idle := by
          rw [hstate]
          decide
        split at h
        · cases h
          exact accepted_endCall hlive (not_not.mp hstream)
        · cases h
          exact .refl fun _ => not_not.mp hstream

/-- Exactly the packets of another stream than the slot's call are ignored. -/
theorem pushSlot_eq_none_iff {config : RepeaterConfig} {allocated : Bool} {t : Fin 2}
    {parsed : DmrParsedPacket} {r : Repeater} :
    pushSlot config allocated t parsed r = none ↔
      (r.ts t).state ≠ .idle ∧ parsed.streamId ≠ (r.ts t).streamId := by
  unfold pushSlot
  cases hstate : (r.ts t).state with
  | idle =>
    simp only
    split
    · simp
    · split <;> simp
  | dataCall =>
    simp only
    split
    · next hne => simp [hne]
    · next heq =>
      split <;> simp_all
  | voiceCall =>
    simp only
    split
    · next hne => simp [hne]
    · next heq =>
      split <;> simp_all

theorem fst_pushProto {config : RepeaterConfig} {conv : Conv} {env : PushEnv}
    {src : Fin config.protos.length} {t : Fin 2} {parsed : DmrParsedPacket} {b : Bridge} :
    (pushProto config conv env src t parsed b).1 =
      (pushSlot config env.timerAllocated t parsed b.repeater).getD b.repeater := by
  unfold pushProto
  split
  · next hnone => rw [hnone, Option.getD_none]
  · next r hsome => rw [hsome, Option.getD_some]

/-- Every copy that is offered is a copy of the packet. -/
theorem relay_offered {conv : Conv} {env : PushEnv} {src : Nat} {srcProto : Proto}
    {parsed : DmrParsedPacket} {dsts : List (Proto × Nat)} {L : Stack} :
    ∀ p ∈ (relay conv env src srcProto parsed dsts L).offered, p.2 = parsed := by
  induction dsts generalizing L with
  | nil => simp [relay]
  | cons d rest ih =>
    obtain ⟨dst, i⟩ := d
    rw [relay]
    split
    · exact ih
    · split
      · split
        · simp
        · rw [List.forall_mem_cons]
          exact ⟨rfl, ih⟩
      · simp

/-! ## What a tick does to the slots -/

/-- A tick treats each slot by itself. -/
theorem slotTimer_ts (config : RepeaterConfig) (now : Fin 2 → Timeval) (r : Repeater) (t : Fin 2) :
    (slotTimer config now r).ts t = slotTimeout config r.io.wallclock (now t) (r.ts t) := by
  fin_cases t <;> simp [slotTimer, forLoop, Fin.last, Repeater.io_setSlot]

/-- A slot that is in a call after its turn was in that call before. -/
theorem slotTimeout_live {config : RepeaterConfig} {wallclock now : Timeval} {rts : RepeaterSlot}
    (h : (slotTimeout config wallclock now rts).state ≠ .idle) :
    slotTimeout config wallclock now rts = rts := by
  unfold slotTimeout at h ⊢
  split at h
  · next hidle => rw [if_pos hidle]
  · next hlive =>
    simp only at h
    split at h
    · exact absurd rfl h
    · next hms => simp only [if_neg hlive, if_neg hms]

@[simp]
theorem lastFrameReceived_slotTimeout (config : RepeaterConfig) (wallclock now : Timeval)
    (rts : RepeaterSlot) :
    (slotTimeout config wallclock now rts).lastFrameReceived = rts.lastFrameReceived := by
  unfold slotTimeout
  split
  · rfl
  · simp only
    split <;> rfl

end Dmrlib
