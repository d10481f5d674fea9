import Dmrlib.Lib.Run
import Dmrlib.Noisebridge.Script

/-!
# Routing decisions (`route` in `src/cmd/noisebridge/repeater.c`)

For every destination the bridge asks the script's `route` function what to do with
a packet. The script is arbitrary: in each call it is some function of the three
tables it is passed.

`route` looks at the type of the value on top of the stack but reads booleans and
tables at index 1. The two are the same value only on an empty stack, and neither
the error path nor the table path leaves the stack as it found it: after either,
later verdicts are read off a stale value (`route_stale`).

- `RouteCall`: a call of the script with the tables it gets and the value it returns, or its error.
- `route`: the function, on a stack.
- `Obeys`: the outcome is what the script said, and the stack has the height it had.
- `obeys_iff`: the calls, on a given stack, of which this is true.
- `throughout_obeys_iff`: in a run, all calls obey if and only if each result is `Plain`.
-/

namespace Dmrlib

open Lua Run

/-- `route_policy` -/
inductive RoutePolicy where
  | reject
  | permit
  | permitUnmodified
deriving DecidableEq

/-- One call of `route`: its arguments, and what the script's function is at the
time. -/
structure RouteCall where
  src : Proto
  dst : Proto
  parsed : DmrParsedPacket
  script : List LuaValue → Except LuaValue LuaValue

/-- What a call of `route` leaves behind. -/
structure RouteOutcome where
  policy : RoutePolicy
  parsed : DmrParsedPacket
  stack : Stack

/-- The switch on the type of the returned value: the policy, with the value of
`lua_toboolean(L, 1)` for a boolean. -/
def policyOf (L : Stack) : RoutePolicy :=
  match L.index (-1) with
  | some .nil => .permitUnmodified
  | some (.boolean _) => if toBoolean (L.index 1) then .permitUnmodified else .reject
  | some (.table _) => .permit
  | _ => .reject

/-- `route`. An error that the script raises is caught; one that `lua_modify_packet`
raises is not (`none`). -/
def route (conv : Conv) (L : Stack) (call : RouteCall) : Option RouteOutcome :=
  let L := L.push .other
  let L := luaPassProto L call.src
  let L := luaPassProto L call.dst
  let L := luaPassPacket L call.parsed
  match L.pcall 3 call.script with
  | (false, L) => some ⟨.reject, call.parsed, L.toStringTop conv⟩
  | (true, L) =>
    let policy := policyOf L
    if policy = .permit then
      (luaModifyPacket conv L call.parsed).map fun (L, parsed) => ⟨policy, parsed, L.pop 1⟩
    else some ⟨policy, call.parsed, L.pop 1⟩

/-! ## What the caller expects -/

/-- What the script returned, or raised, in a call. -/
def RouteCall.result (call : RouteCall) : Except LuaValue LuaValue :=
  call.script [protoTable call.src, protoTable call.dst, packetTable call.parsed]

/-- The verdict of a script result. -/
def verdict : Except LuaValue LuaValue → RoutePolicy
  | .ok .nil | .ok (.boolean true) => .permitUnmodified
  | .ok (.table _) => .permit
  | _ => .reject

/-- The seven integers in a table. -/
def tableFields (conv : Conv) (fields : String → LuaValue) : Option PacketFields := do
  let ts ← checkInteger conv (fields "ts")
  let flco ← checkInteger conv (fields "flco")
  let srcId ← checkInteger conv (fields "src_id")
  let dstId ← checkInteger conv (fields "dst_id")
  let repeaterId ← checkInteger conv (fields "repeater_id")
  let dataType ← checkInteger conv (fields "data_type")
  let colorCode ← checkInteger conv (fields "color_code")
  return ⟨ts, flco, srcId, dstId, repeaterId, dataType, colorCode⟩

/-- The call does what the script said, and nothing else: its policy is the verdict
of this call's result, a packet it permits takes its fields from this call's
table, and the stack is as deep as before. -/
def Obeys (conv : Conv) (L : Stack) (call : RouteCall) : Prop :=
  ∃ outcome, route conv L call = some outcome ∧
    outcome.policy = verdict call.result ∧
    (∀ fields, call.result = .ok (.table fields) →
      ∃ modify, tableFields conv fields = some modify ∧
        outcome.parsed = applyFields call.parsed modify) ∧
    outcome.stack.length = L.length

/-- The stack after a call. -/
def routeStep (conv : Conv) (L : Stack) (call : RouteCall) : Option Stack :=
  (route conv L call).map (·.stack)

/-- The script neither failed nor returned a table. -/
def Plain : Except LuaValue LuaValue → Prop
  | .error _ => False
  | .ok (.table _) => False
  | _ => True

/-! ## One call -/

theorem route_eq (conv : Conv) (L : Stack) (call : RouteCall) :
    route conv L call =
      match call.result with
      | .error e => some ⟨.reject, call.parsed, L.push (toText conv e)⟩
      | .ok v =>
        if policyOf (L.push v) = .permit then
          (luaModifyPacket conv (L.push v) call.parsed).map fun (L, parsed) =>
            ⟨.permit, parsed, L.pop 1⟩
        else some ⟨policyOf (L.push v), call.parsed, L⟩ := by
  unfold route luaPassProto luaPassPacket
  simp only [Stack.pcall_push3]
  unfold RouteCall.result
  -- an error leaves its text on the stack, a result itself
  cases call.script [protoTable call.src, protoTable call.dst, packetTable call.parsed] with
  | error e => simp
  | ok v =>
    simp only [Stack.pop_push]
    split
    · next h => rw [h]
    · rfl

/-- A caught error leaves its value on the stack. -/
theorem not_obeys_of_error {conv : Conv} {L : Stack} {call : RouteCall} {e : LuaValue}
    (h : call.result = .error e) : ¬ Obeys conv L call := by
  rintro ⟨outcome, hroute, -, -, hlen⟩
  rw [route_eq, h] at hroute
  cases hroute
  simp at hlen

/-- A table leaves seven of its fields on the stack. -/
theorem not_obeys_of_table {conv : Conv} {L : Stack} {call : RouteCall}
    {fields : String → LuaValue} (h : call.result = .ok (.table fields)) :
    ¬ Obeys conv L call := by
  rintro ⟨outcome, hroute, -, -, hlen⟩
  have hpolicy : policyOf (L.push (.table fields)) = .permit := by simp [policyOf]
  simp only [route_eq, h, hpolicy, if_true] at hroute
  obtain ⟨⟨L', parsed⟩, hmod, rfl⟩ := Option.map_eq_some_iff.mp hroute
  have hlen' := length_luaModifyPacket hmod
  simp only [Stack.length_push] at hlen'
  simp only [Stack.pop, List.length_take] at hlen
  omega

theorem policyOf_ne_permit {L : Stack} {v : LuaValue} (hv : ∀ fields, v ≠ .table fields) :
    policyOf (L.push v) ≠ .permit := by
  unfold policyOf
  rw [Stack.index_push_neg_one]
  cases v with
  | table fields => exact absurd rfl (hv fields)
  | boolean b =>
    change (if _ then _ else _) ≠ _
    split <;> simp
  | _ => simp

/-- With any other value it all depends on the policy. -/
theorem obeys_iff_policy {conv : Conv} {L : Stack} {call : RouteCall} {v : LuaValue}
    (h : call.result = .ok v) (hv : ∀ fields, v ≠ .table fields) :
    Obeys conv L call ↔ policyOf (L.push v) = verdict (.ok v) := by
  have hroute : route conv L call = some ⟨policyOf (L.push v), call.parsed, L⟩ := by
    simp only [route_eq, h, if_neg (policyOf_ne_permit hv)]
  constructor
  · rintro ⟨outcome, hsome, hpolicy, -, -⟩
    cases hroute.symm.trans hsome
    rw [← h]
    exact hpolicy
  · intro hpolicy
    refine ⟨_, hroute, hpolicy.trans (by rw [h]), fun fields htable => ?_, rfl⟩
    cases h.symm.trans htable
    exact absurd rfl (hv fields)

/-- **One call.** It does what the script said exactly when the script neither
failed nor returned a table, and a boolean agrees with the value at index 1. -/
theorem obeys_iff (conv : Conv) (L : Stack) (call : RouteCall) :
    Obeys conv L call ↔ Plain call.result ∧
      ∀ b, call.result = .ok (.boolean b) → toBoolean (some (L.headD (.boolean b))) = b := by
  cases hres : call.result with
  | error e => exact iff_of_false (not_obeys_of_error hres) fun h => h.1
  | ok v =>
    cases v with
    | table fields => exact iff_of_false (not_obeys_of_table hres) fun h => h.1
    | boolean b =>
      rw [obeys_iff_policy hres (by simp)]
      simp only [policyOf, Stack.index_push_neg_one, Stack.index_one_push]
      cases b <;> cases ht : toBoolean (some (L.headD _)) <;>
        simp [verdict, Plain, ht, -List.headD_eq_head?_getD]
    | _ =>
      rw [obeys_iff_policy hres (by simp)]
      simp [policyOf, verdict, Plain]

/-- A call that obeys leaves the stack as it was. -/
theorem routeStep_of_plain {conv : Conv} {L : Stack} {call : RouteCall}
    (h : Plain call.result) : routeStep conv L call = some L := by
  unfold routeStep
  cases hres : call.result with
  | error e => rw [hres] at h; exact h.elim
  | ok v =>
    have hv : ∀ fields, v ≠ .table fields := by
      rintro fields rfl
      rw [hres] at h
      exact h
    simp only [route_eq, hres, if_neg (policyOf_ne_permit hv), Option.map_some]

/-! ## Runs -/

/-- **Runs.** From the empty stack that `init_script` leaves, all calls of a run do
what the script said exactly when the script never fails and never returns a
table. -/
theorem throughout_obeys_iff (conv : Conv) (calls : List RouteCall) :
    Throughout (routeStep conv) (Obeys conv) [] calls ↔ ∀ call ∈ calls, Plain call.result := by
  refine throughout_iff (I := fun L => L = []) ?_ ?_ rfl calls
  · rintro L call rfl
    rw [obeys_iff]
    refine and_iff_left fun b _ => ?_
    cases b <;> rfl
  · rintro L call rfl hplain
    exact ⟨[], routeStep_of_plain hplain, rfl⟩

/-- A script that fails once and then rejects: the second packet is let through, on
the strength of the error message. -/
theorem route_stale :
    let conv : Conv := ⟨fun _ => none, fun _ => none, fun _ => "", fun _ => ""⟩
    let proto : Proto := ⟨"modem", 0⟩
    let parsed : DmrParsedPacket :=
      ⟨Vector.replicate 33 0, DMR_TS1, 0, 1, 2, 0, DMR_DATA_TYPE_VOICE, 1, 0, 0, 0, true⟩
    let fails : RouteCall := ⟨proto, proto, parsed, fun _ => .error (.string "error")⟩
    let rejects : RouteCall := ⟨proto, proto, parsed, fun _ => .ok (.boolean false)⟩
    ¬ Throughout (routeStep conv) (Obeys conv) [] [fails, rejects] ∧
      ((routeStep conv [] fails).bind fun L => (route conv L rejects).map (·.policy)) =
        some .permitUnmodified ∧
      verdict rejects.result = .reject := by
  intro conv proto parsed fails rejects
  have hfails : fails.result = .error (.string "error") := rfl
  have hrejects : rejects.result = .ok (.boolean false) := rfl
  refine ⟨fun h => not_obeys_of_error hfails h.1, ?_, by rw [hrejects]; rfl⟩
  have hstack : routeStep conv [] fails = some [.string "error"] := by
    simp only [routeStep, route_eq, hfails, Option.map_some]
    rfl
  rw [hstack, Option.bind_some, route_eq, hrejects]
  rfl

end Dmrlib
