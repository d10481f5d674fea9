import Dmrlib.Noisebridge.Route

/-!
# Packets that the script modifies (`script/route.lua`)

The bundled script returns the table of the packet with a colour code, a repeater id or the two
ids of the call replaced. `lua_modify_packet` fetches all seven fields, from the table at index
1, and leaves the source, the destination and the data type of the packet as they are.

- `routeLua`: the script.
- `PermittedAsReturned`: the packet that leaves has the fields of the table, and is otherwise what
  it was.
- `CompletedBy`: the fields that are stored are those of the table, and the packet has the others
  already.
- `ReplacedIds`: the ids with the replacements of the script.
- `permittedAsReturned_iff`: for any script, and what it comes to for this one.
-/

namespace Dmrlib

open Lua

/-! ## The script -/

/-- `==`, for values that are no tables. -/
def luaEq : LuaValue → LuaValue → Bool
  | .nil, .nil => true
  | .boolean a, .boolean b => a = b
  | .integer a, .integer b => a = b
  | .string a, .string b => a = b
  | _, _ => false

/-- `FLCO_PRIVATE` in `script/dmrlib.lua` -/
def luaFlcoPrivate : LuaValue := .integer 0x01

/-- `PROTOCOL_HOMEBREW` -/
def luaProtocolHomebrew : LuaValue := .integer 0x01

/-- `PROTOCOL_MMDVM` -/
def luaProtocolMmdvm : LuaValue := .integer 0x40

/-- An entry of the global `config`; protocols other than Homebrew have no repeater id. -/
structure ScriptProto where
  name : String
  repeaterId : LuaValue

/-- `protocol_config` -/
def protocolConfig (config : List ScriptProto) (name : LuaValue) : Option ScriptProto :=
  config.find? fun proto => luaEq (.string proto.name) name

/-- The end of `route` in `script/route.lua`, for frames from MMDVM to Homebrew. -/
def correctPacket (cfg : ScriptProto) (packet : String → LuaValue) : String → LuaValue :=
  let packet := Function.update packet "repeater_id" cfg.repeaterId
  let packet :=
    if luaEq (packet "src_id") (.integer 0) then Function.update packet "src_id" cfg.repeaterId
    else packet
  if luaEq (packet "dst_id") (.integer 0) then
    Function.update (Function.update packet "dst_id" (.integer 9990)) "flco" luaFlcoPrivate
  else packet

/-- `route` of `script/route.lua`, for the three tables that the bridge passes. -/
def routeLua (config : List ScriptProto) : List LuaValue → Except LuaValue LuaValue
  | [.table src, .table dst, .table packet] =>
    if luaEq (src "name") (dst "name") then .ok (.boolean false)
    else if luaEq (dst "type") luaProtocolMmdvm then
      if luaEq (packet "src_id") (.integer 0) then
        .ok (.table (Function.update packet "color_code" (.integer 1)))
      else .ok (.boolean true)
    else if luaEq (src "type") luaProtocolMmdvm ∧ luaEq (dst "type") luaProtocolHomebrew then
      match protocolConfig config (dst "name") with
      | none => .error (.string "attempt to index a nil value")
      | some cfg => .ok (.table (correctPacket cfg packet))
    else .ok (.boolean true)
  | _ => .ok (.boolean false)

/-! ## What `lua_modify_packet` does -/

/-- The values of the seven fields, in the order in which they are pushed. -/
def pushedFields (fields : String → LuaValue) : List LuaValue :=
  [fields "ts", fields "flco", fields "src_id", fields "dst_id", fields "repeater_id",
    fields "data_type", fields "color_code"]

/-- The fields are those of the table at the bottom of the stack. -/
theorem luaModifyPacket_of_table (conv : Conv) {L : Stack} {fields : String → LuaValue}
    (h : L.head? = some (.table fields)) (packet : DmrParsedPacket) :
    (luaModifyPacket conv L packet).map Prod.snd =
      (tableFields conv fields).map (applyFields packet) := by
  have hfetch : ∀ (vs : List LuaValue) (key : String),
      Stack.getField (L ++ vs) 1 key = some (L ++ (vs ++ [fields key])) := by
    intro vs key
    have hhead : (L ++ vs).head? = some (.table fields) := by
      rw [List.head?_append, h]
      rfl
    rw [Stack.getField_one hhead, List.append_assoc]
  have hfirst := hfetch [] "ts"
  rw [List.append_nil] at hfirst
  -- the indices count from the field pushed last
  have hindex : ∀ k : Fin 7, Stack.index (L ++ pushedFields fields) (-((k.val + 1 : Nat) : Int)) =
      (pushedFields fields)[6 - k.val]? := by
    intro k
    have hlength : (pushedFields fields).length = 7 := rfl
    have hplace := Stack.index_neg L (pushedFields fields) (Nat.succ_pos k.val)
      (by rw [hlength]; exact k.isLt)
    have hfromFirst : 7 - k.val.succ = 6 - k.val := by omega
    rwa [hlength, hfromFirst] at hplace
  have hts : Stack.index (L ++ pushedFields fields) (-7) = some (fields "ts") := hindex 6
  have hflco : Stack.index (L ++ pushedFields fields) (-6) = some (fields "flco") := hindex 5
  have hsrcId : Stack.index (L ++ pushedFields fields) (-5) = some (fields "src_id") := hindex 4
  have hdstId : Stack.index (L ++ pushedFields fields) (-4) = some (fields "dst_id") := hindex 3
  have hrepeaterId : Stack.index (L ++ pushedFields fields) (-3) = some (fields "repeater_id") :=
    hindex 2
  have hdataType : Stack.index (L ++ pushedFields fields) (-2) = some (fields "data_type") :=
    hindex 1
  have hcolorCode : Stack.index (L ++ pushedFields fields) (-1) = some (fields "color_code") :=
    hindex 0
  unfold pushedFields at *
  unfold luaModifyPacket tableFields
  simp only [hfirst, hfetch, Option.bind_eq_bind, Option.bind_some, List.nil_append,
    List.cons_append, hts, hflco, hsrcId, hdstId, hrepeaterId, hdataType, hcolorCode,
    Option.map_bind, Function.comp_def, Option.pure_def, Option.map_some]

/-- No table, no result. -/
theorem luaModifyPacket_eq_none {conv : Conv} {L : Stack}
    (h : ∀ fields, L.head? ≠ some (.table fields)) (packet : DmrParsedPacket) :
    luaModifyPacket conv L packet = none := by
  unfold luaModifyPacket
  rw [Stack.getField_one_eq_none h]
  rfl

/-- A packet that is permitted with modifications takes them from the table at index 1. -/
theorem route_of_table {conv : Conv} {L : Stack} {call : RouteCall} {fields : String → LuaValue}
    (hres : call.result = .ok (.table fields)) (outcome : RouteOutcome)
    (houtcome : route conv L call = some outcome) :
    outcome.policy = .permit ∧ ∃ t m, L.headD (.table fields) = .table t ∧
      tableFields conv t = some m ∧ outcome.parsed = applyFields call.parsed m := by
  have hpolicy : policyOf (L.push (.table fields)) = .permit := by simp [policyOf]
  simp only [route_eq, hres, hpolicy, if_true] at houtcome
  obtain ⟨⟨L', parsed⟩, hmodify, rfl⟩ := Option.map_eq_some_iff.mp houtcome
  refine ⟨rfl, ?_⟩
  have hhead := Stack.head?_push L (.table fields)
  cases htable : L.headD (.table fields) with
  | table t =>
    rw [htable] at hhead
    have hspec := luaModifyPacket_of_table conv hhead call.parsed
    rw [hmodify, Option.map_some] at hspec
    obtain ⟨m, hm, hparsed⟩ := Option.map_eq_some_iff.mp hspec.symm
    exact ⟨t, m, rfl, hm, hparsed.symm⟩
  | _ =>
    rw [htable] at hhead
    rw [luaModifyPacket_eq_none (by rw [hhead]; simp)] at hmodify
    cases hmodify

/-- … and is permitted if there are fields to take. -/
theorem exists_route_of_table {conv : Conv} {L : Stack} {call : RouteCall}
    {fields t : String → LuaValue} {m : PacketFields}
    (hres : call.result = .ok (.table fields)) (ht : L.headD (.table fields) = .table t)
    (hm : tableFields conv t = some m) :
    ∃ outcome, route conv L call = some outcome ∧ outcome.policy = .permit ∧
      outcome.parsed = applyFields call.parsed m := by
  have hpolicy : policyOf (L.push (.table fields)) = .permit := by simp [policyOf]
  have hhead := Stack.head?_push L (.table fields)
  rw [ht] at hhead
  have hspec := luaModifyPacket_of_table conv hhead call.parsed
  rw [hm, Option.map_some] at hspec
  obtain ⟨⟨L', parsed⟩, hmodify, hparsed⟩ := Option.map_eq_some_iff.mp hspec
  refine ⟨⟨.permit, parsed, L'.pop 1⟩, ?_, rfl, hparsed⟩
  simp only [route_eq, hres, hpolicy, if_true, hmodify, Option.map_some]

/-! ## What the script asks for -/

/-- The table has these seven integers. -/
structure HasFields (fields : String → LuaValue) (m : PacketFields) : Prop where
  ts : fields "ts" = .integer m.ts
  flco : fields "flco" = .integer m.flco
  srcId : fields "src_id" = .integer m.srcId
  dstId : fields "dst_id" = .integer m.dstId
  repeaterId : fields "repeater_id" = .integer m.repeaterId
  dataType : fields "data_type" = .integer m.dataType
  colorCode : fields "color_code" = .integer m.colorCode

theorem HasFields.tableFields_eq {fields : String → LuaValue} {m : PacketFields}
    (h : HasFields fields m) (conv : Conv) : tableFields conv fields = some m := by
  simp only [tableFields, h.ts, h.flco, h.srcId, h.dstId, h.repeaterId, h.dataType, h.colorCode,
    checkInteger, Option.bind_eq_bind, Option.bind_some, Option.pure_def]

/-- Each integer is in the range of its C type. -/
structure PacketFields.InRange (m : PacketFields) : Prop where
  ts : 0 ≤ m.ts ∧ m.ts < 2 ^ 32
  flco : 0 ≤ m.flco ∧ m.flco < 2 ^ 32
  srcId : 0 ≤ m.srcId ∧ m.srcId < 2 ^ 32
  dstId : 0 ≤ m.dstId ∧ m.dstId < 2 ^ 32
  repeaterId : 0 ≤ m.repeaterId ∧ m.repeaterId < 2 ^ 32
  dataType : 0 ≤ m.dataType ∧ m.dataType < 2 ^ 32
  colorCode : 0 ≤ m.colorCode ∧ m.colorCode < 2 ^ 8

/-- The packet carries these seven integers. -/
structure CarriesFields (parsed : DmrParsedPacket) (m : PacketFields) : Prop where
  ts : (parsed.ts.toNat : Int) = m.ts
  flco : (parsed.flco.toNat : Int) = m.flco
  srcId : (parsed.srcId.toNat : Int) = m.srcId
  dstId : (parsed.dstId.toNat : Int) = m.dstId
  repeaterId : (parsed.repeaterId.toNat : Int) = m.repeaterId
  dataType : (parsed.dataType.toNat : Int) = m.dataType
  colorCode : (parsed.colorCode.toNat : Int) = m.colorCode

/-- The packets do not differ in any other field. -/
structure SameOtherwise (parsed parsed' : DmrParsedPacket) : Prop where
  packet : parsed'.packet = parsed.packet
  sequence : parsed'.sequence = parsed.sequence
  streamId : parsed'.streamId = parsed.streamId
  voiceFrame : parsed'.voiceFrame = parsed.voiceFrame
  parsed : parsed'.parsed = parsed.parsed

/-- A packet that `route` permits is the one that the script returned. -/
def PermittedAsReturned (conv : Conv) (L : Stack) (call : RouteCall) (m : PacketFields) : Prop :=
  ∀ outcome, route conv L call = some outcome → outcome.policy = .permit →
    CarriesFields outcome.parsed m ∧ SameOtherwise call.parsed outcome.parsed

theorem toNat_eq_iff {n : Int} (h : 0 ≤ n ∧ n < 2 ^ 32) (u : UInt32) :
    (u.toNat : Int) = n ↔ u = UInt32.ofInt n := by
  obtain ⟨k, rfl⟩ := Int.eq_ofNat_of_zero_le h.1
  have hk : k < 2 ^ 32 := by omega
  have hof : UInt32.ofInt (k : Int) = UInt32.ofNat k := by
    rw [UInt32.ofInt]
    congr 1
    omega
  rw [hof, ← UInt32.toNat_inj, UInt32.toNat_ofNat_of_lt' hk]
  exact Int.ofNat_inj

theorem toNat_eq_iff_byte {n : Int} (h : 0 ≤ n ∧ n < 2 ^ 8) (u : UInt8) :
    (u.toNat : Int) = n ↔ u = UInt8.ofInt n := by
  obtain ⟨k, rfl⟩ := Int.eq_ofNat_of_zero_le h.1
  have hk : k < 2 ^ 8 := by omega
  have hof : UInt8.ofInt (k : Int) = UInt8.ofNat k := by
    rw [UInt8.ofInt]
    congr 1
    omega
  rw [hof, ← UInt8.toNat_inj, UInt8.toNat_ofNat_of_lt' hk]
  exact Int.ofNat_inj

/-- Taking four fields from `m'` makes a packet that carries `m`: it has the other three. -/
structure CompletedBy (parsed : DmrParsedPacket) (m m' : PacketFields) : Prop where
  ts : UInt32.ofInt m'.ts = UInt32.ofInt m.ts
  flco : UInt32.ofInt m'.flco = UInt32.ofInt m.flco
  srcId : parsed.srcId = UInt32.ofInt m.srcId
  dstId : parsed.dstId = UInt32.ofInt m.dstId
  repeaterId : UInt32.ofInt m'.repeaterId = UInt32.ofInt m.repeaterId
  dataType : parsed.dataType = UInt32.ofInt m.dataType
  colorCode : UInt8.ofInt m'.colorCode = UInt8.ofInt m.colorCode

theorem carriesFields_applyFields_iff {m : PacketFields} (h : m.InRange)
    (parsed : DmrParsedPacket) (m' : PacketFields) :
    CarriesFields (applyFields parsed m') m ↔ CompletedBy parsed m m' := by
  constructor
  · intro hc
    exact ⟨(toNat_eq_iff h.ts _).mp hc.ts, (toNat_eq_iff h.flco _).mp hc.flco,
      (toNat_eq_iff h.srcId _).mp hc.srcId, (toNat_eq_iff h.dstId _).mp hc.dstId,
      (toNat_eq_iff h.repeaterId _).mp hc.repeaterId, (toNat_eq_iff h.dataType _).mp hc.dataType,
      (toNat_eq_iff_byte h.colorCode _).mp hc.colorCode⟩
  · intro hc
    exact ⟨(toNat_eq_iff h.ts _).mpr hc.ts, (toNat_eq_iff h.flco _).mpr hc.flco,
      (toNat_eq_iff h.srcId _).mpr hc.srcId, (toNat_eq_iff h.dstId _).mpr hc.dstId,
      (toNat_eq_iff h.repeaterId _).mpr hc.repeaterId, (toNat_eq_iff h.dataType _).mpr hc.dataType,
      (toNat_eq_iff_byte h.colorCode _).mpr hc.colorCode⟩

/-! ## Calls of the bundled script -/

/-- The script is asked about a packet from the modem to the Homebrew protocol whose entry has
the repeater id `id`. -/
structure FromModem (config : List ScriptProto) (call : RouteCall) (id : Int) : Prop where
  script : call.script = routeLua config
  names : call.src.name ≠ call.dst.name
  src : (call.src.type.toNat : Int) = 0x40
  dst : (call.dst.type.toNat : Int) = 0x01
  cfg : protocolConfig config (.string call.dst.name) = some ⟨call.dst.name, .integer id⟩

/-- The fields of a packet. -/
def fieldsOf (parsed : DmrParsedPacket) : PacketFields :=
  ⟨parsed.ts.toNat, parsed.flco.toNat, parsed.srcId.toNat, parsed.dstId.toNat,
    parsed.repeaterId.toNat, parsed.dataType.toNat, parsed.colorCode.toNat⟩

/-- The corrections that the script makes. -/
def corrected (id : Int) (m : PacketFields) : PacketFields where
  ts := m.ts
  flco := if m.dstId = 0 then 1 else m.flco
  srcId := if m.srcId = 0 then id else m.srcId
  dstId := if m.dstId = 0 then 9990 else m.dstId
  repeaterId := id
  dataType := m.dataType
  colorCode := m.colorCode

section Updates

variable {fields : String → LuaValue} {m : PacketFields} (h : HasFields fields m) (n : Int)
include h

theorem HasFields.update_repeaterId :
    HasFields (Function.update fields "repeater_id" (.integer n)) { m with repeaterId := n } := by
  constructor <;>
    simp [Function.update, h.ts, h.flco, h.srcId, h.dstId, h.dataType, h.colorCode]

theorem HasFields.update_srcId :
    HasFields (Function.update fields "src_id" (.integer n)) { m with srcId := n } := by
  constructor <;>
    simp [Function.update, h.ts, h.flco, h.dstId, h.repeaterId, h.dataType, h.colorCode]

theorem HasFields.update_dstId :
    HasFields (Function.update fields "dst_id" (.integer n)) { m with dstId := n } := by
  constructor <;>
    simp [Function.update, h.ts, h.flco, h.srcId, h.repeaterId, h.dataType, h.colorCode]

theorem HasFields.update_flco :
    HasFields (Function.update fields "flco" (.integer n)) { m with flco := n } := by
  constructor <;>
    simp [Function.update, h.ts, h.srcId, h.dstId, h.repeaterId, h.dataType, h.colorCode]

/-- The script makes them. -/
theorem HasFields.correctPacket (name : String) :
    HasFields (correctPacket ⟨name, .integer n⟩ fields) (corrected n m) := by
  have heq : ∀ a : Int, luaEq (.integer a) (.integer 0) = decide (a = 0) := fun _ => rfl
  have hrepeater := h.update_repeaterId n
  unfold Dmrlib.correctPacket corrected
  simp only [hrepeater.srcId, heq, decide_eq_true_eq]
  by_cases hsrc : m.srcId = 0
  · simp only [if_pos hsrc, (hrepeater.update_srcId n).dstId, heq, decide_eq_true_eq]
    by_cases hdst : m.dstId = 0
    · simp only [if_pos hdst]
      exact ((hrepeater.update_srcId n).update_dstId 9990).update_flco 1
    · simp only [if_neg hdst]
      exact hrepeater.update_srcId n
  · simp only [if_neg hsrc, hrepeater.dstId, heq, decide_eq_true_eq]
    by_cases hdst : m.dstId = 0
    · simp only [if_pos hdst]
      exact (hrepeater.update_dstId 9990).update_flco 1
    · simp only [if_neg hdst]
      exact hrepeater

end Updates

/-- … and returns the table. -/
theorem FromModem.result_eq {config : List ScriptProto} {call : RouteCall} {id : Int}
    (h : FromModem config call id) : ∃ fields, call.result = .ok (.table fields) ∧
      HasFields fields (corrected id (fieldsOf call.parsed)) := by
  obtain ⟨packet, hpacket, hfields⟩ : ∃ packet, packetTable call.parsed = .table packet ∧
      HasFields packet (fieldsOf call.parsed) :=
    ⟨_, rfl, rfl, rfl, rfl, rfl, rfl, rfl, rfl⟩
  refine ⟨correctPacket ⟨call.dst.name, .integer id⟩ packet, ?_,
    hfields.correctPacket id call.dst.name⟩
  rw [RouteCall.result, h.script, hpacket]
  simp [routeLua, protoTable, luaEq, luaProtocolMmdvm, luaProtocolHomebrew, h.names, h.src, h.dst,
    h.cfg]

/-- The ids with which the packet should leave. -/
structure ReplacedIds (parsed : DmrParsedPacket) (id : Int) (parsed' : DmrParsedPacket) :
    Prop where
  srcId : parsed'.srcId = if parsed.srcId = 0 then UInt32.ofInt id else parsed.srcId
  dstId : parsed'.dstId = if parsed.dstId = 0 then 9990 else parsed.dstId

/-- They are those of the packet that came from the modem. -/
theorem FromModem.replacedIds_iff {conv : Conv} {L : Stack} {config : List ScriptProto}
    {call : RouteCall} {id : Int} {outcome : RouteOutcome} (h : FromModem config call id)
    (houtcome : route conv L call = some outcome) :
    ReplacedIds call.parsed id outcome.parsed ↔
      (call.parsed.srcId = 0 → UInt32.ofInt id = 0) ∧ call.parsed.dstId ≠ 0 := by
  obtain ⟨fields, hres, -⟩ := h.result_eq
  obtain ⟨-, t, m, -, -, hparsed⟩ := route_of_table hres outcome houtcome
  -- the two ids are never written back
  have hsrcId : outcome.parsed.srcId = call.parsed.srcId := by
    rw [hparsed]
    rfl
  have hdstId : outcome.parsed.dstId = call.parsed.dstId := by
    rw [hparsed]
    rfl
  constructor
  · rintro ⟨hsrc, hdst⟩
    rw [hsrcId] at hsrc
    rw [hdstId] at hdst
    refine ⟨fun hzero => ?_, fun hzero => ?_⟩
    · rw [if_pos hzero] at hsrc
      exact hsrc.symm.trans hzero
    · rw [if_pos hzero, hzero] at hdst
      exact absurd hdst (by decide)
  · rintro ⟨hsrc, hdst⟩
    refine ⟨?_, ?_⟩
    · rw [hsrcId]
      split
      · next hzero => rw [hzero, hsrc hzero]
      · rfl
    · rw [hdstId, if_neg hdst]

/-- **Modified packets.** A permitted packet carries the fields that the script returned exactly
when the source, destination and data type it had already are those, and the others are what
the table at index 1 says. So the ids that the bundled script replaces are not. -/
theorem permittedAsReturned_iff (conv : Conv) (L : Stack) (call : RouteCall) :
    (∀ fields m, call.result = .ok (.table fields) → HasFields fields m → m.InRange →
      (PermittedAsReturned conv L call m ↔
        ∀ t m', L.headD (.table fields) = .table t → tableFields conv t = some m' →
          CompletedBy call.parsed m m')) ∧
    ∀ config id outcome, FromModem config call id → route conv L call = some outcome →
      (ReplacedIds call.parsed id outcome.parsed ↔
        (call.parsed.srcId = 0 → UInt32.ofInt id = 0) ∧ call.parsed.dstId ≠ 0) := by
  refine ⟨fun fields m hres hfields hrange => ?_,
    fun config id outcome h houtcome => h.replacedIds_iff houtcome⟩
  constructor
  · intro hreturned t m' ht hm'
    obtain ⟨outcome, houtcome, hpolicy, hparsed⟩ := exists_route_of_table hres ht hm'
    have hcarries := (hreturned outcome houtcome hpolicy).1
    rwa [hparsed, carriesFields_applyFields_iff hrange] at hcarries
  · intro hcompleted outcome houtcome _
    obtain ⟨-, t, m', ht, hm', hparsed⟩ := route_of_table hres outcome houtcome
    rw [hparsed, carriesFields_applyFields_iff hrange]
    exact ⟨hcompleted t m' ht hm', rfl, rfl, rfl, rfl, rfl⟩

/-- A packet without a source, from the modem to a repeater with the id 2042214. -/
theorem not_replacedIds_noSource :
    let conv : Conv := ⟨fun _ => none, fun _ => none, fun _ => "", fun _ => ""⟩
    let call : RouteCall := ⟨⟨"modem", 0x40⟩, ⟨"homebrew", 0x01⟩,
      ⟨Vector.replicate 33 0, DMR_TS1, 0, 0, 9, 0, DMR_DATA_TYPE_VOICE, 1, 0, 0, 0, true⟩,
      routeLua [⟨"homebrew", .integer 2042214⟩]⟩
    FromModem [⟨"homebrew", .integer 2042214⟩] call 2042214 ∧
      ∃ outcome, route conv [] call = some outcome ∧ outcome.policy = .permit ∧
        ¬ ReplacedIds call.parsed 2042214 outcome.parsed := by
  intro conv call
  have hcall : FromModem [⟨"homebrew", .integer 2042214⟩] call 2042214 :=
    ⟨rfl, by decide, rfl, rfl, rfl⟩
  obtain ⟨fields, hres, hfields⟩ := hcall.result_eq
  obtain ⟨outcome, houtcome, hpolicy, -⟩ := exists_route_of_table (L := []) hres rfl
    (hfields.tableFields_eq conv)
  refine ⟨hcall, outcome, houtcome, hpolicy, fun hreplaced => ?_⟩
  have hids := (hcall.replacedIds_iff houtcome).mp hreplaced
  exact absurd (hids.1 rfl) (by decide)

end Dmrlib
