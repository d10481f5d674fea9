import Dmrlib.Noisebridge.Config

/-!
# Whether the configuration parser can be trusted with its input

Two kinds of lines make the parser use memory that is not there: a line of nothing but
braces between sections, of which `read_config` trims a name that `strtok_r` has not found,
and a line that opens the section of a seventeenth protocol. `parsesSafely_iff` says that
there are no others.

`SectionEffect` is what a line does inside a section. What carries the proof is the kind of
each protocol: a section parser finds a protocol of its own kind at the end of the array,
and keeps it of that kind.

- `Config.Inv`: the invariant of the parser.
- `SectionEffect`, `TopEffect`: what a line does to the configuration, in a section and between
  sections.
- `Harmless`: a line that does not reach for memory that is not there.
- `isSome_parseLines_iff`: the lines come through if each that is reached is harmless.
- `parsesSafely_iff`: the files that are parsed safely.
-/

namespace Dmrlib

open CString Run

/-! ## Kinds of protocols

A section parser looks at the last protocol, and takes it for one of its own kind.
-/

/-- The parser of the sections that such settings come from. -/
def Settings.parseSection : Settings → ParseSection
  | .homebrew _ => .readConfigHomebrew
  | .mbe _ => .readConfigMbe
  | .mmdvm _ => .readConfigMmdvm

/-- The kinds of the protocols, in the order of their sections. -/
def Config.kinds (config : Config) : List ParseSection :=
  config.proto.map fun proto => proto.settings.parseSection

/-- There is room for the protocols, and the section of one is read into the last of them. -/
structure Config.Inv (config : Config) : Prop where
  bound : config.proto.length ≤ NOISEBRIDGE_MAX_PROTOS
  opened : ∀ s : Settings, s.parseSection = config.parseSection →
    config.kinds.getLast? = some config.parseSection

theorem Config.inv_initial : Config.initial.Inv where
  bound := Nat.zero_le _
  opened s hs := by cases s <;> cases hs

theorem Config.Inv.congr {config config' : Config} (hinv : config.Inv)
    (hkinds : config'.kinds = config.kinds)
    (hsection : config'.parseSection = config.parseSection ∨
      config'.parseSection = .readConfig) : config'.Inv where
  bound := by
    have hlen := congrArg List.length hkinds
    simp only [kinds, List.length_map] at hlen
    rw [hlen]
    exact hinv.bound
  opened s hs := by
    obtain hsame | htop := hsection
    · rw [hsame] at hs ⊢
      rw [hkinds]
      exact hinv.opened s hs
    · rw [htop] at hs
      cases s <;> cases hs

/-- The protocol that a section is read into. -/
theorem Config.Inv.last {config : Config} (hinv : config.Inv) {s : Settings}
    (hs : s.parseSection = config.parseSection) :
    ∃ proto, config.proto.getLast? = some proto ∧
      proto.settings.parseSection = config.parseSection := by
  have hlast := hinv.opened s hs
  rw [kinds, List.getLast?_map, Option.map_eq_some_iff] at hlast
  exact hlast

theorem Config.kinds_setProto {config : Config} {old proto : ProtoConfig}
    (hlast : config.proto.getLast? = some old)
    (hkind : proto.settings.parseSection = old.settings.parseSection) :
    (config.setProto proto).kinds = config.kinds := by
  obtain ⟨front, hfront⟩ := List.getLast?_eq_some_iff.mp hlast
  simp [kinds, setProto, hfront, hkind]

/-! ## What a line does inside a section

It is ignored, or ends the section, or assigns a key of it.
-/

/-- The timeout that a line of a section sets. -/
def lineTimeout (parseSection : ParseSection) (line : CStr) : Option UInt16 :=
  if parseSection = .readConfigRepeater then
    match split line 0x3d with
    | some (k, v) => if k = bytes "timeout" then some (UInt16.ofInt (atoi v)) else none
    | none => none
  else none

/-- A line is ignored, or closes the section, or assigns a value. -/
inductive SectionEffect (config : Config) (line : CStr) : Config → Prop where
  | ignored (h : Ignored line) : SectionEffect config line config
  | closed {config' : Config} (h : ¬ Ignored line) (hline : line = bytes "\x7d")
    (hsection : config'.parseSection = .readConfig) (hkinds : config'.kinds = config.kinds)
    (htimeout : config'.timeout = config.timeout) : SectionEffect config line config'
  | assigned {config' : Config} (h : ¬ Ignored line) (hline : line ≠ bytes "\x7d")
    (hsection : config'.parseSection = config.parseSection)
    (hkinds : config'.kinds = config.kinds)
    (htimeout : config'.timeout =
      (lineTimeout config.parseSection line).getD config.timeout) :
    SectionEffect config line config'

/-- A section has the effect of a line if its two branches do. -/
theorem sectionEffect_readSection {config config' : Config} {line : CStr} {close : ConfigResult}
    {assign : CStr → CStr → ConfigResult}
    (h : readSection config line close assign = .ok config')
    (hclose : ∀ c, close = .ok c →
      c.parseSection = .readConfig ∧ c.kinds = config.kinds ∧ c.timeout = config.timeout)
    (hassign : ∀ k v c, split line 0x3d = some (k, v) → assign k v = .ok c →
      c.parseSection = config.parseSection ∧ c.kinds = config.kinds ∧
        c.timeout = (lineTimeout config.parseSection line).getD config.timeout) :
    SectionEffect config line config' := by
  unfold readSection at h
  split at h
  · next hignored =>
    cases h
    exact .ignored hignored
  next hignored =>
    split at h
    · next hline =>
      obtain ⟨hsection, hkinds, htimeout⟩ := hclose _ h
      exact .closed hignored hline hsection hkinds htimeout
    next hline =>
      split at h
      · cases h
      · next k v hsplit =>
        obtain ⟨hsection, hkinds, htimeout⟩ := hassign k v _ hsplit h
        exact .assigned hignored hline hsection hkinds htimeout

theorem lineTimeout_other {parseSection : ParseSection} (h : parseSection ≠ .readConfigRepeater)
    (line : CStr) : lineTimeout parseSection line = none := if_neg h

theorem map_eq_ok {ε α β : Type} {f : α → β} {x : Except ε α} {b : β}
    (h : x.map f = .ok b) : ∃ a, x = .ok a ∧ b = f a := by
  cases x with
  | error e => cases h
  | ok a =>
    cases h
    exact ⟨a, rfl, rfl⟩

/-- No key turns a protocol into one of another kind. -/
theorem protoKey_settings {proto proto' : ProtoConfig} {k v : CStr} {rest : Except Int Settings}
    (hrest : ∀ s, rest = .ok s → s.parseSection = proto.settings.parseSection)
    (h : protoKey proto k v rest = .ok proto') :
    proto'.settings.parseSection = proto.settings.parseSection := by
  unfold protoKey at h
  split at h
  · obtain ⟨name, -, rfl⟩ := map_eq_ok h
    rfl
  · obtain ⟨s, hs, rfl⟩ := map_eq_ok h
    exact hrest s hs

/-- The section of a protocol: its last entry is rewritten, and nothing else. -/
theorem sectionEffect_proto {config config' : Config} {line : CStr} {proto : ProtoConfig}
    {close : ConfigResult} {rest : CStr → CStr → Except Int Settings}
    (hlast : config.proto.getLast? = some proto)
    (hkind : config.parseSection ≠ .readConfigRepeater)
    (hclose : close = .ok config.leave ∨ ∃ ret, close = .error ret)
    (hrest : ∀ k v s, rest k v = .ok s → s.parseSection = proto.settings.parseSection)
    (h : readSection config line close
      (fun k v => (protoKey proto k v (rest k v)).map config.setProto) = .ok config') :
    SectionEffect config line config' := by
  refine sectionEffect_readSection h (fun c hc => ?_) fun k v c _ hc => ?_
  · obtain hleave | ⟨ret, herror⟩ := hclose
    · rw [hleave] at hc
      cases hc
      exact ⟨rfl, rfl, rfl⟩
    · rw [herror] at hc
      cases hc
  · obtain ⟨proto', hproto, rfl⟩ := map_eq_ok hc
    rw [lineTimeout_other hkind]
    exact ⟨rfl, Config.kinds_setProto hlast (protoKey_settings (hrest k v) hproto), rfl⟩

theorem sectionEffect_repeater {config config' : Config} {line : CStr}
    (hsection : config.parseSection = .readConfigRepeater)
    (h : readConfigRepeater config line = .ok config') : SectionEffect config line config' := by
  refine sectionEffect_readSection h (fun c hc => ?_) fun k v c hsplit hc => ?_
  · cases hc
    exact ⟨rfl, rfl, rfl⟩
  have htimeout : lineTimeout config.parseSection line =
      if k = bytes "timeout" then some (UInt16.ofInt (atoi v)) else none := by
    rw [lineTimeout, if_pos hsection, hsplit]
  split at hc
  · next hscript =>
    split at hc
    · cases hc
    · cases hc
      have hne : ¬ k = bytes "timeout" := by
        rw [hscript]
        decide
      rw [htimeout, if_neg hne]
      exact ⟨rfl, rfl, rfl⟩
  · split at hc
    · next hkey =>
      cases hc
      rw [htimeout, if_pos hkey]
      exact ⟨rfl, rfl, rfl⟩
    · cases hc

theorem sectionEffect_dmrid {config config' : Config} {line : CStr}
    (hsection : config.parseSection ≠ .readConfigRepeater)
    (h : readConfigDmrid config line = .ok config') : SectionEffect config line config' := by
  refine sectionEffect_readSection h (fun c hc => ?_) fun k v c _ hc => ?_
  · cases hc
    exact ⟨rfl, rfl, rfl⟩
  · rw [lineTimeout_other hsection]
    simp only at hc
    split at hc
    · cases hc
    · cases hc
      exact ⟨rfl, rfl, rfl⟩

theorem sectionEffect_httpd {env : ConfigEnv} {config config' : Config} {line : CStr}
    (hsection : config.parseSection ≠ .readConfigRepeater)
    (h : readConfigHttpd env config line = .ok config') : SectionEffect config line config' := by
  refine sectionEffect_readSection h (fun c hc => ?_) fun k v c _ hc => ?_
  · cases hc
    exact ⟨rfl, rfl, rfl⟩
  · rw [lineTimeout_other hsection]
    -- the three keys write to the members of `httpd`
    split at hc
    · split at hc <;> cases hc
      exact ⟨rfl, rfl, rfl⟩
    split at hc
    · cases hc
      exact ⟨rfl, rfl, rfl⟩
    split at hc
    · split at hc <;> cases hc
      exact ⟨rfl, rfl, rfl⟩
    · cases hc

theorem readConfigHomebrew_last {env : ConfigEnv} {config : Config} {type : UInt32}
    {name : Option CStr} {s : HomebrewSettings}
    (hlast : config.proto.getLast? = some ⟨type, name, .homebrew s⟩) (line : CStr) :
    readConfigHomebrew env config line =
      some (readSection config line (if s.peerIp = ip6any then .error (-1) else .ok config.leave)
        fun k v => (protoKey ⟨type, name, .homebrew s⟩ k v
          ((homebrewSetting env s k v).map .homebrew)).map config.setProto) := by
  rw [readConfigHomebrew, hlast]

theorem readConfigMbe_last {config : Config} {type : UInt32} {name : Option CStr} {quality : Int}
    (hlast : config.proto.getLast? = some ⟨type, name, .mbe quality⟩) (line : CStr) :
    readConfigMbe config line =
      some (readSection config line (.ok config.leave) fun k v =>
        (protoKey ⟨type, name, .mbe quality⟩ k v
          ((mbeSetting quality k v).map .mbe)).map config.setProto) := by
  rw [readConfigMbe, hlast]

theorem readConfigMmdvm_last {env : ConfigEnv} {config : Config} {type : UInt32}
    {name : Option CStr} {s : MmdvmSettings}
    (hlast : config.proto.getLast? = some ⟨type, name, .mmdvm s⟩) (line : CStr) :
    readConfigMmdvm env config line =
      some (readSection config line (.ok config.leave) fun k v =>
        (protoKey ⟨type, name, .mmdvm s⟩ k v
          ((mmdvmSetting env s k v).map .mmdvm)).map config.setProto) := by
  rw [readConfigMmdvm, hlast]

/-- **A section.** A line of a section is read or refused, with the effect of the line. -/
theorem Config.Inv.sectionEffect {env : ConfigEnv} {config : Config} (hinv : config.Inv)
    (hsection : config.parseSection ≠ .readConfig) (line : CStr) :
    ∃ r, parseLine env config line = some r ∧ (Ignored line → r = .ok config) ∧
      ∀ config', r = .ok config' → SectionEffect config line config' := by
  unfold parseLine
  -- the last protocol is of the kind of the section, so the section has its settings
  have hlast : ∀ s : Settings, s.parseSection = config.parseSection →
      ∃ proto, config.proto.getLast? = some proto ∧
        proto.settings.parseSection = config.parseSection := fun s hs => hinv.last hs
  have hne : ∀ p, config.parseSection = p → p ≠ .readConfigRepeater →
      config.parseSection ≠ .readConfigRepeater := fun p hp hpne => hp ▸ hpne
  cases hp : config.parseSection with
  | readConfig => exact absurd hp hsection
  | readConfigRepeater =>
    exact ⟨_, rfl, fun h => if_pos h, fun config' h => sectionEffect_repeater hp h⟩
  | readConfigDmrid =>
    exact ⟨_, rfl, fun h => if_pos h,
      fun config' h => sectionEffect_dmrid (hne _ hp (by decide)) h⟩
  | readConfigHttpd =>
    exact ⟨_, rfl, fun h => if_pos h,
      fun config' h => sectionEffect_httpd (hne _ hp (by decide)) h⟩
  -- the other two kinds of settings contradict this
  | readConfigHomebrew =>
    obtain ⟨⟨type, name, settings⟩, hget, hkind⟩ := hlast newHomebrew.settings (hp ▸ rfl)
    rw [hp] at hkind
    cases settings <;> cases hkind
    next s =>
      refine ⟨_, readConfigHomebrew_last hget line, fun h => if_pos h, fun config' h => ?_⟩
      refine sectionEffect_proto hget (hne _ hp (by decide)) ?_ (fun k v settings hs => ?_) h
      · split
        · exact .inr ⟨_, rfl⟩
        · exact .inl rfl
      · obtain ⟨s', -, rfl⟩ := map_eq_ok hs
        rfl
  | readConfigMbe =>
    obtain ⟨⟨type, name, settings⟩, hget, hkind⟩ := hlast newMbe.settings (hp ▸ rfl)
    rw [hp] at hkind
    cases settings <;> cases hkind
    next quality =>
      refine ⟨_, readConfigMbe_last hget line, fun h => if_pos h, fun config' h => ?_⟩
      refine sectionEffect_proto hget (hne _ hp (by decide)) (.inl rfl)
        (fun k v settings hs => ?_) h
      obtain ⟨quality', -, rfl⟩ := map_eq_ok hs
      rfl
  | readConfigMmdvm =>
    obtain ⟨⟨type, name, settings⟩, hget, hkind⟩ := hlast newMmdvm.settings (hp ▸ rfl)
    rw [hp] at hkind
    cases settings <;> cases hkind
    next s =>
      refine ⟨_, readConfigMmdvm_last hget line, fun h => if_pos h, fun config' h => ?_⟩
      refine sectionEffect_proto hget (hne _ hp (by decide)) (.inl rfl)
        (fun k v settings hs => ?_) h
      obtain ⟨s', -, rfl⟩ := map_eq_ok hs
      rfl

/-! ## What a line does between sections

It is ignored, or opens a section, or assigns a key; all but the first set the defaults.
-/

/-- The name of the section that a line opens, before the checks. -/
def sectionName (line : CStr) : Option CStr := (strtokR line 0x7b).1.map trim

/-- The sections that a protocol is made for. -/
def OpensProto (env : ConfigEnv) (name : CStr) : Prop :=
  name = bytes "homebrew" ∨ name = bytes "mmdvm" ∨
    name = bytes "mbe" ∧ env.withMbelib = true ∧ env.haveLibportaudio = true

/-- Between sections, a line that opens one has a name, and there is room for its protocol. -/
def Harmless (env : ConfigEnv) (config : Config) (line : CStr) : Prop :=
  config.parseSection = .readConfig → ¬ Ignored line → line.getLast? = some 0x7b →
    ∃ name, sectionName line = some name ∧
      (OpensProto env name → config.proto.length < NOISEBRIDGE_MAX_PROTOS)

/-- Sections that no protocol is made for need no room. -/
theorem not_opensProto {env : ConfigEnv} {name : CStr} (hhomebrew : name ≠ bytes "homebrew")
    (hmmdvm : name ≠ bytes "mmdvm")
    (hmbe : name = bytes "mbe" → env.withMbelib = false ∨ env.haveLibportaudio = false) :
    ¬ OpensProto env name := by
  rintro (h | h | ⟨h, hlib, haudio⟩)
  · exact hhomebrew h
  · exact hmmdvm h
  · obtain hno | hno := hmbe h
    · exact absurd (hno.symm.trans hlib) (by decide)
    · exact absurd (hno.symm.trans haudio) (by decide)

/-- What the line that opens a section leaves behind. -/
structure Opened (config : Config) (name : CStr) (config' : Config) : Prop where
  inv : config'.Inv
  section_ne : config'.parseSection ≠ .readConfig
  timeout : config'.timeout = config.timeout
  repeater : config'.parseSection = .readConfigRepeater ↔ name = bytes "repeater"

theorem opened_plain {config config' : Config} {name : CStr} (hinv : config.Inv)
    (hproto : config'.proto = config.proto) (htimeout : config'.timeout = config.timeout)
    {p : ParseSection} (hp : config'.parseSection = p)
    (hplain : p = .readConfigRepeater ∨ p = .readConfigDmrid ∨ p = .readConfigHttpd)
    (hrepeater : p = .readConfigRepeater ↔ name = bytes "repeater") :
    Opened config name config' := by
  refine ⟨⟨by rw [hproto]; exact hinv.bound, fun s hs => ?_⟩, ?_, htimeout, by rw [hp, hrepeater]⟩
  · rw [hp] at hs
    obtain rfl | rfl | rfl := hplain <;> cases s <;> cases hs
  · rw [hp]
    obtain rfl | rfl | rfl := hplain <;> decide

theorem opened_addProto {config config' : Config} {name : CStr} {proto : ProtoConfig}
    {p : ParseSection} (hkind : proto.settings.parseSection = p)
    (hname : name ≠ bytes "repeater") (h : config.addProto proto p = some (.ok config')) :
    Opened config name config' := by
  unfold Config.addProto at h
  split at h
  · next hroom =>
    cases h
    have hne : p ≠ .readConfigRepeater ∧ p ≠ .readConfig := by
      rw [← hkind]
      cases proto.settings <;> simp [Settings.parseSection]
    refine ⟨⟨?_, fun s hs => ?_⟩, hne.2, rfl, iff_of_false hne.1 hname⟩
    · simpa using hroom
    · simp [Config.kinds, hkind]
  · cases h

theorem isSome_addProto_iff (config : Config) (proto : ProtoConfig) (p : ParseSection) :
    (config.addProto proto p).isSome ↔ config.proto.length < NOISEBRIDGE_MAX_PROTOS := by
  unfold Config.addProto
  split
  · next hroom => exact iff_of_true rfl hroom
  · next hfull => exact iff_of_false (by simp) hfull

/-- Opening a section needs room for its protocol, if it has one. -/
theorem isSome_openSection_iff (env : ConfigEnv) (config : Config) (name : CStr) :
    (openSection env config name).isSome ↔
      (OpensProto env name → config.proto.length < NOISEBRIDGE_MAX_PROTOS) := by
  have hother : ∀ r : ConfigResult, ¬ OpensProto env name →
      ((some r).isSome = true ↔
        (OpensProto env name → config.proto.length < NOISEBRIDGE_MAX_PROTOS)) :=
    fun r hno => iff_of_true rfl fun hopens => absurd hopens hno
  have hroom : OpensProto env name → ((OpensProto env name →
      config.proto.length < NOISEBRIDGE_MAX_PROTOS) ↔
        config.proto.length < NOISEBRIDGE_MAX_PROTOS) :=
    fun hopens => ⟨fun h => h hopens, fun h _ => h⟩
  unfold openSection
  -- one case for each name, in the order of `read_config`
  split_ifs with hempty hrepeater hdmrid hhttpd henabled hhomebrew hmbe hlib haudio hmmdvm
  · exact hother _ (not_opensProto (by rintro rfl; cases hempty) (by rintro rfl; cases hempty)
      (by rintro rfl; cases hempty))
  · exact hother _ (not_opensProto (by rw [hrepeater]; decide) (by rw [hrepeater]; decide)
      (fun h => absurd (hrepeater.symm.trans h) (by decide)))
  · exact hother _ (not_opensProto (by rw [hdmrid]; decide) (by rw [hdmrid]; decide)
      (fun h => absurd (hdmrid.symm.trans h) (by decide)))
  · exact hother _ (not_opensProto (by rw [hhttpd]; decide) (by rw [hhttpd]; decide)
      (fun h => absurd (hhttpd.symm.trans h) (by decide)))
  · exact hother _ (not_opensProto (by rw [hhttpd]; decide) (by rw [hhttpd]; decide)
      (fun h => absurd (hhttpd.symm.trans h) (by decide)))
  · rw [isSome_addProto_iff, hroom (.inl hhomebrew)]
  · exact hother _ (not_opensProto hhomebrew (by rw [hmbe]; decide) fun _ => .inl hlib)
  · exact hother _ (not_opensProto hhomebrew (by rw [hmbe]; decide) fun _ => .inr haudio)
  · rw [isSome_addProto_iff, hroom (.inr (.inr ⟨hmbe, by simpa using hlib, by simpa using haudio⟩))]
  · rw [isSome_addProto_iff, hroom (.inr (.inl hmmdvm))]
  · exact hother _ (not_opensProto hhomebrew hmmdvm fun h => absurd h hmbe)

theorem opened_openSection {env : ConfigEnv} {config config' : Config} {name : CStr}
    (hinv : config.Inv) (h : openSection env config name = some (.ok config')) :
    Opened config name config' := by
  unfold openSection at h
  split_ifs at h with hempty hrepeater hdmrid hhttpd henabled hhomebrew hmbe hlib haudio hmmdvm
  · cases h
  · cases h
    exact opened_plain hinv rfl rfl rfl (.inl rfl) (iff_of_true rfl hrepeater)
  · cases h
    exact opened_plain (p := .readConfigDmrid) hinv rfl rfl rfl (.inr (.inl rfl))
      (iff_of_false (by decide) hrepeater)
  · cases h
  · cases h
    exact opened_plain (p := .readConfigHttpd) hinv rfl rfl rfl (.inr (.inr rfl))
      (iff_of_false (by decide) hrepeater)
  · exact opened_addProto rfl hrepeater h
  · cases h
  · cases h
  · exact opened_addProto rfl hrepeater h
  · exact opened_addProto rfl hrepeater h
  · cases h

/-- What a line between sections can do: nothing, open one, or read a top-level key. -/
inductive TopEffect (env : ConfigEnv) (config : Config) (line : CStr) : Config → Prop where
  | ignored (h : Ignored line) : TopEffect env config line config
  | opened {config' : Config} {name : CStr} (h : ¬ Ignored line)
    (hbrace : line.getLast? = some 0x7b) (hname : sectionName line = some name)
    (hopened : Opened config.defaults name config') : TopEffect env config line config'
  | key {dmrIds : List (DmrId × CStr)} (h : ¬ Ignored line)
    (hbrace : line.getLast? ≠ some 0x7b) :
    TopEffect env config line { config.defaults with dmrIds }

theorem Config.Inv.defaults {config : Config} (hinv : config.Inv) : config.defaults.Inv :=
  hinv.congr rfl (.inl rfl)

theorem topEffect_readConfig {env : ConfigEnv} {config config' : Config} {line : CStr}
    (hinv : config.Inv) (h : readConfig env config line = some (.ok config')) :
    TopEffect env config line config' := by
  unfold readConfig at h
  split_ifs at h with hignored hbrace
  · cases h
    exact .ignored hignored
  · split at h
    · cases h
    next k hk =>
      have hname : sectionName line = some (trim k) := by rw [sectionName, hk]; rfl
      exact .opened hignored hbrace hname (opened_openSection hinv.defaults h)
  · rw [Option.some.injEq, topLevelKey] at h
    split at h
    · cases h
    split_ifs at h
    split at h
    · cases h
    · cases h
      exact .key hignored hbrace

/-- Between sections, a line is read or refused exactly when it is harmless. -/
theorem isSome_readConfig_iff (env : ConfigEnv) {config : Config}
    (hsection : config.parseSection = .readConfig) (line : CStr) :
    (readConfig env config line).isSome ↔ Harmless env config line := by
  unfold readConfig Harmless
  split_ifs with hignored hbrace
  · exact iff_of_true rfl fun _ hnot => absurd hignored hnot
  · have hprem : ∀ q : Prop, (config.parseSection = .readConfig → ¬ Ignored line →
        line.getLast? = some 0x7b → q) ↔ q :=
      fun q => ⟨fun h => h hsection hignored hbrace, fun h _ _ _ => h⟩
    rw [hprem, sectionName]
    cases (strtokR line 0x7b).1 with
    | none => simp
    | some k =>
      simp only [Option.map_some, Option.some.injEq, exists_eq_left']
      exact isSome_openSection_iff env config.defaults (trim k)
  · exact iff_of_true rfl fun _ _ h => absurd h hbrace

/-! ## Whole files

The lines are read until one of them is refused or cannot be read.
-/

/-- The configuration after a line that is read. -/
def parseStep (env : ConfigEnv) (config : Config) (line : CStr) : Option Config :=
  match parseLine env config line with
  | some (.ok config') => some config'
  | _ => none

theorem parseStep_eq_some {env : ConfigEnv} {config config' : Config} {line : CStr} :
    parseStep env config line = some config' ↔
      parseLine env config line = some (.ok config') := by
  unfold parseStep
  split
  · next c h => rw [h, Option.some.injEq, Option.some.injEq, Except.ok.injEq]
  · next h => exact iff_of_false (by simp) (h config')

/-- Every line is read or refused exactly when it is harmless. -/
theorem Config.Inv.isSome_parseLine_iff {config : Config} (hinv : config.Inv) (env : ConfigEnv)
    (line : CStr) : (parseLine env config line).isSome ↔ Harmless env config line := by
  by_cases hsection : config.parseSection = .readConfig
  · rw [parseLine, hsection]
    exact isSome_readConfig_iff env hsection line
  · obtain ⟨r, hr, -, -⟩ := hinv.sectionEffect hsection line
    refine iff_of_true (by rw [hr]; rfl) fun h => absurd h hsection

theorem Config.Inv.step {env : ConfigEnv} {config config' : Config} {line : CStr}
    (hinv : config.Inv) (h : parseStep env config line = some config') : config'.Inv := by
  rw [parseStep_eq_some] at h
  by_cases hsection : config.parseSection = .readConfig
  · rw [parseLine, hsection] at h
    cases topEffect_readConfig hinv h with
    | ignored => exact hinv
    | opened _ _ _ hopened => exact hopened.inv
    | key => exact hinv.congr rfl (.inl rfl)
  · obtain ⟨r, hr, -, heffect⟩ := hinv.sectionEffect hsection line
    rw [h, Option.some.injEq] at hr
    cases heffect config' hr.symm with
    | ignored => exact hinv
    | closed _ _ htop hkinds => exact hinv.congr hkinds (.inr htop)
    | assigned _ _ hsame hkinds => exact hinv.congr hkinds (.inl hsame)

theorem isSome_parseLines_iff (env : ConfigEnv) {config : Config} (hinv : config.Inv)
    (lines : List (List UInt8)) :
    (parseLines env config lines).isSome ↔
      Throughout (parseStep env) (Harmless env) config (lines.map cleanLine) := by
  induction lines generalizing config with
  | nil => exact iff_of_true rfl trivial
  | cons line lines ih =>
    rw [List.map_cons, Throughout, ← hinv.isSome_parseLine_iff env, parseLines]
    cases hline : parseLine env config (cleanLine line) with
    | none => simp
    | some r =>
      cases r with
      | error ret =>
        refine iff_of_true rfl ⟨rfl, fun config' hstep => ?_⟩
        rw [parseStep_eq_some, hline] at hstep
        cases hstep
      | ok config' =>
        have hstep : parseStep env config (cleanLine line) = some config' :=
          parseStep_eq_some.mpr hline
        rw [hstep]
        refine (ih (hinv.step hstep)).trans ⟨fun h => ⟨rfl, fun c hc => ?_⟩, fun h => h.2 _ rfl⟩
        cases hc
        exact h

theorem Config.Inv.parseLines {env : ConfigEnv} {config config' : Config} (hinv : config.Inv)
    {lines : List (List UInt8)} (h : Dmrlib.parseLines env config lines = some (.ok config')) :
    config'.Inv := by
  induction lines generalizing config with
  | nil =>
    cases h
    exact hinv
  | cons line lines ih =>
    rw [Dmrlib.parseLines] at h
    split at h
    · cases h
    · cases h
    · next c hline => exact ih (hinv.step (parseStep_eq_some.mpr hline)) h

/-- What is accepted as a configuration has been read line by line. -/
theorem initConfig_eq_ok {env : ConfigEnv} {filename : CStr} {config : Config}
    (h : initConfig env filename = some (.ok config)) :
    ∃ lines, env.file filename = some lines ∧
      parseLines env .initial lines = some (.ok config) := by
  unfold initConfig at h
  split at h
  · cases h
  next lines hfile =>
    split at h
    · cases h
    · cases h
    next c hparse =>
      split_ifs at h
      all_goals cases h
      exact ⟨lines, hfile, hparse⟩

/-- `init_config` ends with success or an error, and on success there are no more protocols
than there is room for. -/
def ParsesSafely (env : ConfigEnv) (filename : CStr) : Prop :=
  ∃ r, initConfig env filename = some r ∧
    ∀ config, r = .ok config → config.proto.length ≤ NOISEBRIDGE_MAX_PROTOS

/-- **Totality.** Whatever the file holds, it is parsed safely if and only if every line that
is reached is harmless. -/
theorem parsesSafely_iff (env : ConfigEnv) (filename : CStr) :
    ParsesSafely env filename ↔ ∀ lines, env.file filename = some lines →
      Throughout (parseStep env) (Harmless env) .initial (lines.map cleanLine) := by
  have hbound : ∀ config, initConfig env filename = some (.ok config) →
      config.proto.length ≤ NOISEBRIDGE_MAX_PROTOS := by
    intro config h
    obtain ⟨lines, -, hparse⟩ := initConfig_eq_ok h
    exact (Config.inv_initial.parseLines hparse).bound
  -- the bound holds whenever there is a result, so only the result is in question
  have hsafe : ParsesSafely env filename ↔ (initConfig env filename).isSome := by
    rw [Option.isSome_iff_exists]
    constructor
    · rintro ⟨r, hr, -⟩
      exact ⟨r, hr⟩
    · rintro ⟨r, hr⟩
      exact ⟨r, hr, fun config hok => hbound config (hok ▸ hr)⟩
  rw [hsafe]
  unfold initConfig
  cases hfile : env.file filename with
  | none => exact iff_of_true rfl fun lines h => nomatch h
  | some lines =>
    have hlines : (∀ lines', some lines = some lines' → Throughout (parseStep env) (Harmless env)
        .initial (lines'.map cleanLine)) ↔
          Throughout (parseStep env) (Harmless env) .initial (lines.map cleanLine) :=
      ⟨fun h => h lines rfl, fun h lines' hl => Option.some.inj hl ▸ h⟩
    rw [hlines, ← isSome_parseLines_iff env Config.inv_initial]
    simp only
    cases parseLines env .initial lines with
    | none => rfl
    | some r =>
      cases r with
      | error ret => rfl
      | ok config =>
        simp only
        split_ifs <;> rfl

/-- A line with a brace and no name. -/
theorem not_parsesSafely_brace :
    ¬ ParsesSafely (envOf [bytes "\x7b"]) (bytes "noisebridge.conf") := by
  rintro ⟨r, hr, -⟩
  have hnone : initConfig (envOf [bytes "\x7b"]) (bytes "noisebridge.conf") = none := by rfl
  rw [hnone] at hr
  cases hr

end Dmrlib
