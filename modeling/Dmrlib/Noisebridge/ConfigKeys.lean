import Dmrlib.Lib.Assignments
import Dmrlib.Noisebridge.ConfigSafety

/-!
# The keys of a protocol's section

`CONFIG_STR`, `CONFIG_INT` and `CONFIG_FLOAT` are to refuse a key that has been assigned before.
They look at the member the key stands for, which has been assigned if it is not zero. But some
members are not zero when their section is opened, zero is a value like others, and four keys
are not checked at all: `one_assignment_iff`.

- `SectionKind`, `ConfigKey`: the three kinds of protocols, and the keys of each.
- `SectionKind.checks`, `SectionKind.busy`: the keys that are checked, and the values by which
  one of them counts as assigned.
- `SectionKind.preset`: the members that are not zero in a section that was just opened.
- `OneAssignment`: what the checks are for.
- `KeysFit`: the condition on the values, an instance of `Assignments.Fits`.
-/

namespace Dmrlib

open CString Run Assignments

/-- The sections that configure a protocol. -/
inductive SectionKind where
  | homebrew
  | mbe
  | mmdvm
deriving DecidableEq

/-- The keys of these sections. -/
inductive ConfigKey where
  | name
  | auth
  | call
  | repeaterId
  | colorCode
  | rxFreq
  | txFreq
  | txPower
  | height
  | latitude
  | longitude
  | port
  | bindPort
  | host
  | bindHost
  | quality
  | model
deriving DecidableEq

/-- How a key is written. -/
def ConfigKey.text : ConfigKey → CStr
  | name => bytes "name"
  | auth => bytes "auth"
  | call => bytes "call"
  | repeaterId => bytes "repeater_id"
  | colorCode => bytes "color_code"
  | rxFreq => bytes "rx_freq"
  | txFreq => bytes "tx_freq"
  | txPower => bytes "tx_power"
  | height => bytes "height"
  | latitude => bytes "latitude"
  | longitude => bytes "longitude"
  | port => bytes "port"
  | bindPort => bytes "bind_port"
  | host => bytes "host"
  | bindHost => bytes "bind_host"
  | quality => bytes "quality"
  | model => bytes "model"

/-- What a member holds. -/
inductive ConfigValue where
  | string (v : Option CStr)
  | number (n : Int)
  | float (f : CFloat)
  | address (ip : Ip6)
  | model (m : DmrMmdvmModel)
  | absent

/-- The member is not zero. -/
def ConfigValue.isSet : ConfigValue → Bool
  | string v => v.isSome
  | number n => n ≠ 0
  | float f => f &&& 0x7fffffff ≠ 0
  | address _ | model _ => true
  | absent => false

def Settings.kind : Settings → SectionKind
  | .homebrew _ => .homebrew
  | .mbe _ => .mbe
  | .mmdvm _ => .mmdvm

/-- The member that a key stands for. -/
def ProtoConfig.get (proto : ProtoConfig) (key : ConfigKey) : ConfigValue :=
  match key, proto.settings with
  | .name, _ => .string proto.name
  | .auth, .homebrew s => .string s.auth
  | .call, .homebrew s => .string s.call
  | .repeaterId, .homebrew s => .number s.repeaterId.toNat
  | .colorCode, .homebrew s => .number s.colorCode.toNat
  | .rxFreq, .homebrew s => .number s.rxFreq.toNat
  | .txFreq, .homebrew s => .number s.txFreq.toNat
  | .txPower, .homebrew s => .number s.txPower.toNat
  | .height, .homebrew s => .number s.height
  | .latitude, .homebrew s => .float s.latitude
  | .longitude, .homebrew s => .float s.longitude
  | .port, .homebrew s => .number s.peerPort.toNat
  | .bindPort, .homebrew s => .number s.bindPort.toNat
  | .host, .homebrew s => .address s.peerIp
  | .bindHost, .homebrew s => .address s.bindIp
  | .quality, .mbe quality => .number quality
  | .colorCode, .mmdvm s => .number s.colorCode.toNat
  | .rxFreq, .mmdvm s => .number s.rxFreq.toNat
  | .txFreq, .mmdvm s => .number s.txFreq.toNat
  | .port, .mmdvm s => .string s.port
  | .model, .mmdvm s => .model s.model
  | _, _ => .absent

/-- The value that a text stands for, as its member holds it; `none` where the section does not
have the key, or the text cannot be parsed. -/
def readValue (env : ConfigEnv) (kind : SectionKind) (key : ConfigKey) (v : CStr) :
    Option ConfigValue :=
  match key, kind with
  | .name, _ | .auth, .homebrew | .call, .homebrew => some (.string (some v))
  | .repeaterId, .homebrew | .rxFreq, .homebrew | .txFreq, .homebrew | .rxFreq, .mmdvm
  | .txFreq, .mmdvm => some (.number (UInt32.ofInt (atoi v)).toNat)
  | .colorCode, .homebrew | .txPower, .homebrew | .colorCode, .mmdvm =>
    some (.number (UInt8.ofInt (atoi v)).toNat)
  | .port, .homebrew | .bindPort, .homebrew => some (.number (UInt16.ofInt (atoi v)).toNat)
  | .height, .homebrew | .quality, .mbe => some (.number (atoi v))
  | .latitude, .homebrew | .longitude, .homebrew => some (.float (env.atof v))
  | .host, .homebrew | .bindHost, .homebrew => (env.ip6resolve v).toOption.map .address
  | .port, .mmdvm =>
    if v.head? = some 0x2f ∨ v = bytes "COM" then some (.string (some v))
    else (env.serialFind v).map fun port => .string (some port)
  | .model, .mmdvm =>
    if v = bytes "generic" then some (.model .g4klx)
    else if v = bytes "g4klx" then some (.model .g4klx)
    else if v = bytes "dvmega" then some (.model .dvmega)
    else none
  | _, _ => none

/-- The keys whose members are looked at. -/
def SectionKind.checks (kind : SectionKind) (key : ConfigKey) : Bool :=
  match kind, key with
  | .homebrew, .host | .homebrew, .bindHost | .mmdvm, .port | .mmdvm, .model => false
  | _, _ => true

/-- A key that is refused. -/
def SectionKind.busy (kind : SectionKind) (key : ConfigKey) (value : ConfigValue) : Bool :=
  kind.checks key && value.isSet

/-- A line that assigns a value to a key of a section. -/
structure Assignment (env : ConfigEnv) (kind : SectionKind) where
  line : List UInt8
  key : ConfigKey
  text : CStr
  value : ConfigValue
  body : ¬ Ignored (cleanLine line) ∧ cleanLine line ≠ bytes "\x7d"
  splits : split (cleanLine line) 0x3d = some (key.text, text)
  reads : readValue env kind key text = some value

/-! ## One line

A key that is accepted puts its value into its member and leaves all others alone.
-/

/-- The chain of keys of a section. -/
def protoAssign (env : ConfigEnv) (proto : ProtoConfig) (k v : CStr) : Except Int ProtoConfig :=
  match proto.settings with
  | .homebrew s => protoKey proto k v ((homebrewSetting env s k v).map .homebrew)
  | .mbe quality => protoKey proto k v ((mbeSetting quality k v).map .mbe)
  | .mmdvm s => protoKey proto k v ((mmdvmSetting env s k v).map .mmdvm)

/-- The assignment is refused because of what the member holds, or made. -/
def Assigns (proto : ProtoConfig) (key : ConfigKey) (value : ConfigValue)
    (r : Except Int ProtoConfig) : Prop :=
  if proto.settings.kind.busy key (proto.get key) then r = .error (-1)
  else ∃ proto', r = .ok proto' ∧ proto'.settings.kind = proto.settings.kind ∧
    proto'.get = Function.update proto.get key value

/-- What the three macros share. -/
theorem assigns_of_checked {proto proto' : ProtoConfig} {key : ConfigKey} {value : ConfigValue}
    {r : Except Int ProtoConfig} {set : Prop} [Decidable set]
    (hr : r = if set then .error (-1) else .ok proto')
    (hchecks : proto.settings.kind.checks key = true)
    (hset : (proto.get key).isSet = true ↔ set)
    (hkind : proto'.settings.kind = proto.settings.kind)
    (hget : proto'.get = Function.update proto.get key value) : Assigns proto key value r := by
  unfold Assigns SectionKind.busy
  rw [hchecks, Bool.true_and, hr]
  by_cases h : set
  · rw [if_pos (hset.mpr h), if_pos h]
  · rw [if_neg (hset.not.mpr h), if_neg h]
    exact ⟨proto', rfl, hkind, hget⟩

theorem assigns_of_unchecked {proto proto' : ProtoConfig} {key : ConfigKey} {value : ConfigValue}
    {r : Except Int ProtoConfig} (hr : r = .ok proto')
    (hchecks : proto.settings.kind.checks key = false)
    (hkind : proto'.settings.kind = proto.settings.kind)
    (hget : proto'.get = Function.update proto.get key value) : Assigns proto key value r := by
  unfold Assigns SectionKind.busy
  rw [hchecks, Bool.false_and, if_neg Bool.false_ne_true]
  exact ⟨proto', hr, hkind, hget⟩

theorem map_ite_ok {ε α β : Type} (e : ε) (a : α) (f : α → β) (c : Prop) [Decidable c] :
    (if c then Except.error e else .ok a).map f = if c then .error e else .ok (f a) := by
  split <;> rfl

theorem isSet_uint32 (x : UInt32) : (ConfigValue.number x.toNat).isSet = true ↔ x ≠ 0 := by
  simp [ConfigValue.isSet, ← UInt32.toNat_inj]

theorem isSet_uint16 (x : UInt16) : (ConfigValue.number x.toNat).isSet = true ↔ x ≠ 0 := by
  simp [ConfigValue.isSet, ← UInt16.toNat_inj]

theorem isSet_uint8 (x : UInt8) : (ConfigValue.number x.toNat).isSet = true ↔ x ≠ 0 := by
  simp [ConfigValue.isSet, ← UInt8.toNat_inj]

theorem isSet_int (n : Int) : (ConfigValue.number n).isSet = true ↔ n ≠ 0 := decide_eq_true_iff

theorem isSet_float (f : CFloat) :
    (ConfigValue.float f).isSet = true ↔ f &&& 0x7fffffff ≠ 0 := decide_eq_true_iff

/-- The keys of a homebrew section. -/
theorem assigns_homebrew {env : ConfigEnv} {proto : ProtoConfig} {s : HomebrewSettings}
    (hs : proto.settings = .homebrew s) {key : ConfigKey} {v : CStr} {w : ConfigValue}
    (h : readValue env .homebrew key v = some w) :
    Assigns proto key w (protoAssign env proto key.text v) := by
  obtain ⟨type, name, settings⟩ := proto
  cases hs
  have hmap {α : Type} (r : Except Int α) (f : α → HomebrewSettings) :
      (((r.map f).map Settings.homebrew).map fun settings => ProtoConfig.mk type name settings) =
        r.map fun a => ⟨type, name, .homebrew (f a)⟩ := by
    cases r <;> rfl
  -- one case for each C type, as `CONFIG_STR`, `CONFIG_INT` and `CONFIG_FLOAT` do the checks
  cases key with
  | name =>
    cases h
    refine assigns_of_checked (map_ite_ok _ _ _ _) rfl Iff.rfl rfl ?_
    funext key
    cases key <;> rfl
  | auth | call =>
    cases h
    refine assigns_of_checked ((hmap _ _).trans (map_ite_ok _ _ _ _)) rfl Iff.rfl rfl ?_
    funext key
    cases key <;> rfl
  | repeaterId | rxFreq | txFreq =>
    cases h
    refine assigns_of_checked ((hmap _ _).trans (map_ite_ok _ _ _ _)) rfl (isSet_uint32 _) rfl ?_
    funext key
    cases key <;> rfl
  | colorCode | txPower =>
    cases h
    refine assigns_of_checked ((hmap _ _).trans (map_ite_ok _ _ _ _)) rfl (isSet_uint8 _) rfl ?_
    funext key
    cases key <;> rfl
  | height =>
    cases h
    refine assigns_of_checked ((hmap _ _).trans (map_ite_ok _ _ _ _)) rfl (isSet_int _) rfl ?_
    funext key
    cases key <;> rfl
  | latitude | longitude =>
    cases h
    refine assigns_of_checked ((hmap _ _).trans (map_ite_ok _ _ _ _)) rfl (isSet_float _) rfl ?_
    funext key
    cases key <;> rfl
  | port | bindPort =>
    cases h
    refine assigns_of_checked ((hmap _ _).trans (map_ite_ok _ _ _ _)) rfl (isSet_uint16 _) rfl ?_
    funext key
    cases key <;> rfl
  -- the addresses are stored without a look at what was there
  | host | bindHost =>
    obtain ⟨ip, hip, rfl⟩ := Option.map_eq_some_iff.mp h
    cases hresolve : env.ip6resolve v with
    | error ret =>
      rw [hresolve] at hip
      cases hip
    | ok ip' =>
      rw [hresolve] at hip
      cases hip
      refine assigns_of_unchecked ((hmap _ _).trans (congrArg (Except.map _) hresolve)) rfl rfl ?_
      funext key
      cases key <;> rfl
  | quality | model => cases h

/-- The keys of an mbe section. -/
theorem assigns_mbe {env : ConfigEnv} {proto : ProtoConfig} {quality : Int}
    (hs : proto.settings = .mbe quality) {key : ConfigKey} {v : CStr} {w : ConfigValue}
    (h : readValue env .mbe key v = some w) :
    Assigns proto key w (protoAssign env proto key.text v) := by
  obtain ⟨type, name, settings⟩ := proto
  cases hs
  have hmap (r : Except Int Int) :
      ((r.map Settings.mbe).map fun settings => ProtoConfig.mk type name settings) =
        r.map fun a => ⟨type, name, .mbe a⟩ := by
    cases r <;> rfl
  cases key with
  | name =>
    cases h
    refine assigns_of_checked (map_ite_ok _ _ _ _) rfl Iff.rfl rfl ?_
    funext key
    cases key <;> rfl
  | quality =>
    cases h
    refine assigns_of_checked ((hmap _).trans (map_ite_ok _ _ _ _)) rfl (isSet_int _) rfl ?_
    funext key
    cases key <;> rfl
  | _ => cases h

/-- The keys of an mmdvm section. -/
theorem assigns_mmdvm {env : ConfigEnv} {proto : ProtoConfig} {s : MmdvmSettings}
    (hs : proto.settings = .mmdvm s) {key : ConfigKey} {v : CStr} {w : ConfigValue}
    (h : readValue env .mmdvm key v = some w) :
    Assigns proto key w (protoAssign env proto key.text v) := by
  obtain ⟨type, name, settings⟩ := proto
  cases hs
  have hmap {α : Type} (r : Except Int α) (f : α → MmdvmSettings) :
      (((r.map f).map Settings.mmdvm).map fun settings => ProtoConfig.mk type name settings) =
        r.map fun a => ⟨type, name, .mmdvm (f a)⟩ := by
    cases r <;> rfl
  have hok {s' : MmdvmSettings} (hs' : mmdvmSetting env s key.text v = .ok s') :
      (((mmdvmSetting env s key.text v).map Settings.mmdvm).map fun settings =>
        ProtoConfig.mk type name settings) = .ok ⟨type, name, .mmdvm s'⟩ := by
    rw [hs']
    rfl
  cases key with
  | name =>
    cases h
    refine assigns_of_checked (map_ite_ok _ _ _ _) rfl Iff.rfl rfl ?_
    funext key
    cases key <;> rfl
  | colorCode =>
    cases h
    refine assigns_of_checked ((hmap _ _).trans (map_ite_ok _ _ _ _)) rfl (isSet_uint8 _) rfl ?_
    funext key
    cases key <;> rfl
  | rxFreq | txFreq =>
    cases h
    refine assigns_of_checked ((hmap _ _).trans (map_ite_ok _ _ _ _)) rfl (isSet_uint32 _) rfl ?_
    funext key
    cases key <;> rfl
  -- the port is a path, or a number that is looked up; neither is checked
  | port =>
    obtain ⟨port, rfl, hport⟩ : ∃ port, w = .string (some port) ∧
        mmdvmSetting env s (bytes "port") v = .ok { s with port := some port } := by
      change (if v.head? = some 0x2f ∨ v = bytes "COM" then _ else _) = _ at h
      change ∃ port, w = _ ∧ (if v.head? = some 0x2f ∨ v = bytes "COM" then _ else _) = _
      split at h
      · next hpath =>
        cases h
        exact ⟨v, rfl, if_pos hpath⟩
      · next hpath =>
        obtain ⟨port, hport, rfl⟩ := Option.map_eq_some_iff.mp h
        exact ⟨port, rfl, (if_neg hpath).trans (by rw [hport])⟩
    refine assigns_of_unchecked (hok hport) rfl rfl ?_
    funext key
    cases key <;> rfl
  -- nor is the model
  | model =>
    obtain ⟨model, rfl, hmodel⟩ : ∃ model, w = .model model ∧
        mmdvmSetting env s (bytes "model") v = .ok { s with model } := by
      change (if v = bytes "generic" then some _ else if v = bytes "g4klx" then some _
        else if v = bytes "dvmega" then some _ else none) = _ at h
      change ∃ model, w = _ ∧ (if v = bytes "generic" then _ else if v = bytes "g4klx" then _
        else if v = bytes "dvmega" then _ else _) = _
      split_ifs at h ⊢
      · cases h
        exact ⟨_, rfl, rfl⟩
      · cases h
        exact ⟨_, rfl, rfl⟩
      · cases h
        exact ⟨_, rfl, rfl⟩
    refine assigns_of_unchecked (hok hmodel) rfl rfl ?_
    funext key
    cases key <;> rfl
  | _ => cases h

theorem assigns_protoAssign {env : ConfigEnv} {proto : ProtoConfig} {key : ConfigKey} {v : CStr}
    {w : ConfigValue} (h : readValue env proto.settings.kind key v = some w) :
    Assigns proto key w (protoAssign env proto key.text v) := by
  cases hs : proto.settings with
  | homebrew s =>
    rw [hs] at h
    exact assigns_homebrew hs h
  | mbe quality =>
    rw [hs] at h
    exact assigns_mbe hs h
  | mmdvm s =>
    rw [hs] at h
    exact assigns_mmdvm hs h

/-- The section of a protocol is read into it. -/
structure Reading (config : Config) (proto : ProtoConfig) : Prop where
  last : config.proto.getLast? = some proto
  parseSection : config.parseSection = proto.settings.parseSection

theorem Reading.setProto {config : Config} {proto proto' : ProtoConfig}
    (h : Reading config proto) (hkind : proto'.settings.kind = proto.settings.kind) :
    Reading (config.setProto proto') proto' where
  last := List.getLast?_concat
  parseSection := by
    refine h.parseSection.trans ?_
    cases hs : proto.settings <;> cases hs' : proto'.settings <;> rw [hs, hs'] at hkind <;>
      first | rfl | cases hkind

theorem parseLine_assignment {env : ConfigEnv} {config : Config} {proto : ProtoConfig}
    (h : Reading config proto) {kind : SectionKind} (a : Assignment env kind) :
    parseLine env config (cleanLine a.line) =
      some ((protoAssign env proto a.key.text a.text).map config.setProto) := by
  have hread (close : ConfigResult) (assign : CStr → CStr → ConfigResult) :
      readSection config (cleanLine a.line) close assign = assign a.key.text a.text := by
    rw [readSection, if_neg a.body.1, if_neg a.body.2, a.splits]
  obtain ⟨type, name, settings⟩ := proto
  unfold parseLine
  rw [h.parseSection]
  cases settings with
  | homebrew s =>
    refine (readConfigHomebrew_last h.last _).trans ?_
    rw [hread]
    rfl
  | mbe quality =>
    refine (readConfigMbe_last h.last _).trans ?_
    rw [hread]
    rfl
  | mmdvm s =>
    refine (readConfigMmdvm_last h.last _).trans ?_
    rw [hread]
    rfl

/-! ## The lines of a section

The members are fields in the sense of `Dmrlib.Lib.Assignments`, and a line assigns one of
them.
-/

/-- The members of the protocol that a section is read into, as its lines assign them. -/
abbrev sectionFields {env : ConfigEnv} {kind : SectionKind} (fields : ConfigKey → ConfigValue)
    (as : List (Assignment env kind)) : Option (ConfigKey → ConfigValue) :=
  after (assign Assignment.key Assignment.value kind.busy) fields as

/-- Lines are refused as soon as one of them finds its member busy. -/
theorem parseLines_assignments {env : ConfigEnv} {config : Config} {proto : ProtoConfig}
    (h : Reading config proto) {kind : SectionKind} (hkind : proto.settings.kind = kind)
    (as : List (Assignment env kind)) :
    match sectionFields proto.get as with
    | none => parseLines env config (as.map (·.line)) = some (.error (-1))
    | some fields => ∃ config' proto',
        parseLines env config (as.map (·.line)) = some (.ok config') ∧
          Reading config' proto' ∧ proto'.get = fields := by
  induction as generalizing config proto with
  | nil => exact ⟨config, proto, rfl, h, rfl⟩
  | cons a as ih =>
    have hassigns : Assigns proto a.key a.value (protoAssign env proto a.key.text a.text) :=
      assigns_protoAssign (by rw [hkind]; exact a.reads)
    have hline := parseLine_assignment h a
    rw [List.map_cons, parseLines, hline, sectionFields, after, assign]
    unfold Assigns at hassigns
    rw [hkind] at hassigns
    by_cases hbusy : kind.busy a.key (proto.get a.key) = true
    · rw [if_pos hbusy] at hassigns ⊢
      rw [hassigns]
      rfl
    · rw [if_neg hbusy] at hassigns ⊢
      obtain ⟨proto', hok, hkind', hget⟩ := hassigns
      rw [hok, Option.bind_some, ← hget]
      exact ih (h.setProto (hkind'.trans hkind.symm)) hkind'

theorem leaves_iff {env : ConfigEnv} {config : Config} {proto : ProtoConfig}
    (h : Reading config proto) {kind : SectionKind} (hkind : proto.settings.kind = kind)
    (as : List (Assignment env kind)) (Q : (ConfigKey → ConfigValue) → Prop) :
    (∃ config' proto', parseLines env config (as.map (·.line)) = some (.ok config') ∧
      config'.proto.getLast? = some proto' ∧ Q proto'.get) ↔
        ∃ fields, sectionFields proto.get as = some fields ∧ Q fields := by
  have hlines := parseLines_assignments h hkind as
  cases hrun : sectionFields proto.get as with
  | none =>
    rw [hrun] at hlines
    refine iff_of_false ?_ fun ⟨fields, hfields, _⟩ => nomatch hfields
    rintro ⟨config', proto', hok, -⟩
    cases hlines.symm.trans hok
  | some fields =>
    rw [hrun] at hlines
    obtain ⟨config', proto', hok, hreading, rfl⟩ := hlines
    constructor
    · rintro ⟨config'', proto'', hok', hlast, hQ⟩
      cases hok.symm.trans hok'
      cases hreading.last.symm.trans hlast
      exact ⟨_, rfl, hQ⟩
    · rintro ⟨fields, ⟨⟩, hQ⟩
      exact ⟨config', proto', hok, hreading.last, hQ⟩

theorem refused_iff {env : ConfigEnv} {config : Config} {proto : ProtoConfig}
    (h : Reading config proto) {kind : SectionKind} (hkind : proto.settings.kind = kind)
    (as : List (Assignment env kind)) :
    parseLines env config (as.map (·.line)) = some (.error (-1)) ↔
      sectionFields proto.get as = none := by
  have hlines := parseLines_assignments h hkind as
  cases hrun : sectionFields proto.get as with
  | none =>
    rw [hrun] at hlines
    exact iff_of_true hlines rfl
  | some fields =>
    rw [hrun] at hlines
    obtain ⟨config', -, hok, -⟩ := hlines
    exact iff_of_false (fun herror => nomatch hok.symm.trans herror) (Option.some_ne_none fields)

theorem accepted_iff {env : ConfigEnv} {config : Config} {proto : ProtoConfig}
    (h : Reading config proto) {kind : SectionKind} (hkind : proto.settings.kind = kind)
    (as : List (Assignment env kind)) :
    (∃ config', parseLines env config (as.map (·.line)) = some (.ok config')) ↔
      (sectionFields proto.get as).isSome := by
  have hlines := parseLines_assignments h hkind as
  cases hrun : sectionFields proto.get as with
  | none =>
    rw [hrun] at hlines
    refine iff_of_false ?_ Bool.false_ne_true
    rintro ⟨config', hok⟩
    cases hlines.symm.trans hok
  | some fields =>
    rw [hrun] at hlines
    obtain ⟨config', -, hok, -⟩ := hlines
    exact iff_of_true ⟨config', hok⟩ rfl

/-- The protocol of a section before its lines are read. -/
def SectionKind.newProto : SectionKind → ProtoConfig
  | homebrew => newHomebrew
  | mbe => newMbe
  | mmdvm => newMmdvm

/-- The configuration after the line that opens a section (`openSection_kind`). -/
def Config.inSection (config : Config) (kind : SectionKind) : Config :=
  { config with
    proto := config.proto ++ [kind.newProto]
    parseSection := kind.newProto.settings.parseSection }

def SectionKind.text : SectionKind → CStr
  | homebrew => bytes "homebrew"
  | mbe => bytes "mbe"
  | mmdvm => bytes "mmdvm"

theorem openSection_kind {env : ConfigEnv} {config : Config} {kind : SectionKind}
    (hopens : OpensProto env kind.text) (hroom : config.proto.length < NOISEBRIDGE_MAX_PROTOS) :
    openSection env config kind.text = some (.ok (config.inSection kind)) := by
  have hadd (proto : ProtoConfig) (p : ParseSection) : config.addProto proto p =
      some (.ok { config with proto := config.proto ++ [proto], parseSection := p }) :=
    if_pos hroom
  cases kind with
  | homebrew => exact hadd _ _
  | mmdvm => exact hadd _ _
  | mbe =>
    obtain h | h | ⟨-, hlib, haudio⟩ := hopens
    · exact absurd h (by decide)
    · exact absurd h (by decide)
    · change (if env.withMbelib = false then _ else if env.haveLibportaudio = false then _
        else config.addProto _ _) = _
      rw [hlib, haudio]
      exact hadd _ _

theorem Config.reading_inSection (config : Config) (kind : SectionKind) :
    Reading (config.inSection kind) kind.newProto := ⟨List.getLast?_concat, rfl⟩

/-- The members that are not zero when their section is opened. -/
def SectionKind.preset : SectionKind → ConfigKey → Bool
  | homebrew, .port | mbe, .quality | mmdvm, .colorCode => true
  | _, _ => false

theorem busy_newProto (kind : SectionKind) (key : ConfigKey) :
    kind.busy key (kind.newProto.get key) = kind.preset key := by
  cases kind <;> cases key <;> rfl

/-- The first line of each key of a section is accepted, and the protocol has its value then;
the next line of a key that has been assigned is refused. -/
def OneAssignment (env : ConfigEnv) (config : Config) {kind : SectionKind}
    (as : List (Assignment env kind)) : Prop :=
  ∀ pre a post, as = pre ++ a :: post → (pre.map (·.key)).Nodup →
    if a.key ∈ pre.map (·.key) then
      (∃ config', parseLines env config (pre.map (·.line)) = some (.ok config')) ∧
        parseLines env config ((pre ++ [a]).map (·.line)) = some (.error (-1))
    else
      ∃ config' proto, parseLines env config ((pre ++ [a]).map (·.line)) = some (.ok config') ∧
        config'.proto.getLast? = some proto ∧ ∀ b ∈ pre ++ [a], proto.get b.key = b.value

theorem oneAssignment_iff_oneEach {env : ConfigEnv} {config : Config} {proto : ProtoConfig}
    (h : Reading config proto) {kind : SectionKind} (hkind : proto.settings.kind = kind)
    (as : List (Assignment env kind)) :
    OneAssignment env config as ↔
      OneEach Assignment.key Assignment.value kind.busy proto.get as := by
  refine forall₄_congr fun pre a post _ => forall_congr' fun _ => ?_
  split_ifs with hmem
  · exact and_congr (accepted_iff h hkind pre) (refused_iff h hkind (pre ++ [a]))
  · exact leaves_iff h hkind (pre ++ [a]) fun fields => ∀ b ∈ pre ++ [a], fields b.key = b.value

/-- No key is assigned that has a value before its first line, and where a key is repeated, its
first line has left a value that is seen. -/
def KeysFit {env : ConfigEnv} {kind : SectionKind} (as : List (Assignment env kind)) : Prop :=
  ∀ pre a post, as = pre ++ a :: post → (pre.map (·.key)).Nodup →
    if a.key ∈ pre.map (·.key) then ∀ b ∈ pre, b.key = a.key → kind.busy b.key b.value = true
    else kind.preset a.key = false

/-- **One assignment per key.** In a section that has been opened, the first line of each key
counts and the next one is refused exactly when, as far as they are read, the lines assign no key
that has a value from the start, and repeat only keys that are looked at and whose value is not
stored as zero. -/
theorem one_assignment_iff (env : ConfigEnv) (config : Config) (kind : SectionKind)
    (as : List (Assignment env kind)) :
    OneAssignment env (config.inSection kind) as ↔ KeysFit as := by
  have hkind : kind.newProto.settings.kind = kind := by cases kind <;> rfl
  rw [oneAssignment_iff_oneEach (config.reading_inSection kind) hkind, oneEach_iff]
  refine forall₄_congr fun pre a post _ => forall_congr' fun _ => ?_
  rw [busy_newProto]

/-- A homebrew section with the usual port. -/
theorem not_one_assignment :
    let line : Assignment (envOf []) .homebrew :=
      { line := bytes "port = 62031\n"
        key := .port
        text := bytes "62031"
        value := .number 62031
        body := by decide
        splits := by decide
        reads := by rfl }
    ¬ OneAssignment (envOf []) (Config.initial.inSection .homebrew) [line] := by
  intro line h
  obtain ⟨config', -, hok, -⟩ := h [] line [] rfl (by decide)
  cases hok

end Dmrlib
