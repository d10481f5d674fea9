import Dmrlib.Protocol.HomebrewKey

/-!
# The layout of the configuration

The configuration of a repeater is one datagram of 306 bytes: `RPTC`, and 14 fields that
follow one another without separators. Every field is printed into a place of its own width,
and cut where it does not fit. The buffer was cleared when it was allocated, and has room for
all of them and for the end of the last string.

- `ConfigField`: the 14 fields with the width of each.
- `ConfigField.text`, `ConfigField.cut`: what is printed, and what stands in the datagram.
- `configDatagram_layout`: each field stands at its place, and depends on its own member of the
  configuration only.
-/

namespace Dmrlib

/-- The fields, in their order. -/
inductive ConfigField where
  | call
  | repeaterId
  | rxFreq
  | txFreq
  | txPower
  | colorCode
  | latitude
  | longitude
  | altitude
  | location
  | description
  | url
  | softwareId
  | packageId
deriving DecidableEq

namespace ConfigField

/-- Where a field begins. -/
def start : ConfigField → Nat
  | call => 4
  | repeaterId => 12
  | rxFreq => 20
  | txFreq => 29
  | txPower => 38
  | colorCode => 40
  | latitude => 42
  | longitude => 50
  | altitude => 59
  | location => 62
  | description => 82
  | url => 102
  | softwareId => 226
  | packageId => 266

/-- How many bytes it has. -/
def width : ConfigField → Nat
  | call | repeaterId | latitude => 8
  | rxFreq | txFreq | longitude => 9
  | txPower | colorCode => 2
  | altitude => 3
  | location | description => 20
  | url => 124
  | softwareId | packageId => 40

/-- The bytes of a field. -/
def cut (f : ConfigField) (datagram : List UInt8) : List UInt8 :=
  (datagram.take (f.start + f.width)).drop f.start

/-- The text that is printed for a field. -/
def text (c : Common) (config : DmrHomebrewConfig) (f : ConfigField) : List UInt8 :=
  ((configFields c config).getD f.ctorIdx (0, [])).2

/-- Two configurations have the same value for a field. -/
def Same (config config' : DmrHomebrewConfig) : ConfigField → Prop
  | call => config.call = config'.call
  | repeaterId => config.repeaterId = config'.repeaterId
  | rxFreq => config.rxFreq = config'.rxFreq
  | txFreq => config.txFreq = config'.txFreq
  | txPower => config.txPower = config'.txPower
  | colorCode => config.colorCode = config'.colorCode
  | latitude => config.latitude = config'.latitude
  | longitude => config.longitude = config'.longitude
  | altitude => config.altitude = config'.altitude
  | location => config.location = config'.location
  | description => config.description = config'.description
  | url => config.url = config'.url
  | softwareId => config.softwareId = config'.softwareId
  | packageId => config.packageId = config'.packageId

/-- A text depends on the value of its field only. -/
theorem text_congr (c : Common) {config config' : DmrHomebrewConfig} {f : ConfigField}
    (h : f.Same config config') : f.text c config = f.text c config' := by
  cases f with
  | call => exact congrArg (fun v => formatLeft 8 (v.getD c.formatNull)) h
  | repeaterId => exact congrArg (fun v : DmrId => formatNat 16 8 v.toNat) h
  | rxFreq | txFreq => exact congrArg (fun v : UInt16 => formatNat 10 9 v.toNat) h
  | txPower => exact congrArg (fun v : UInt8 => formatNat 10 2 (min v.toNat 99)) h
  | colorCode => exact congrArg (fun v : DmrColorCode => formatNat 10 2 v.toNat) h
  | latitude => exact congrArg (c.formatDouble 8) h
  | longitude => exact congrArg (c.formatDouble 9) h
  | altitude => exact congrArg (fun v : UInt16 => formatNat 10 3 (min v.toNat 999)) h
  | location => exact congrArg (fun v => formatLeft 20 (v.getD (CString.bytes "Earth"))) h
  | description => exact congrArg (fun v => formatLeft 20 (v.getD (CString.bytes "dmrlib"))) h
  | url =>
    exact congrArg
      (fun v => formatLeft 124 (v.getD (CString.bytes "https://github.com/pd0mz/dmrlib"))) h
  | softwareId => exact congrArg (fun v => formatLeft 40 (v.getD c.softwareId)) h
  | packageId => exact congrArg (fun v => formatLeft 40 (v.getD c.packageId)) h

/-- The parts of the datagram. -/
def parts (c : Common) (config : DmrHomebrewConfig) : List (List UInt8) :=
  RPTC :: (configFields c config).map fun field => fixedField field.1 field.2

theorem flatten_parts (c : Common) (config : DmrHomebrewConfig) :
    (parts c config).flatten = configDatagram c config := by
  rw [parts, List.flatten_cons, ← List.flatMap_def, configDatagram]

theorem lengths_parts (c : Common) (config : DmrHomebrewConfig) :
    (parts c config).map List.length = [4, 8, 8, 9, 9, 2, 2, 8, 9, 3, 20, 20, 124, 40, 40] := by
  simp only [parts, configFields, List.map_cons, List.map_nil, length_fixedField]
  rfl

theorem length_configDatagram (c : Common) (config : DmrHomebrewConfig) :
    (configDatagram c config).length = 306 := by
  rw [← flatten_parts, List.length_flatten, lengths_parts]
  rfl

/-- The bytes of a field are its text, cut to the width of the field. -/
theorem cut_configDatagram (c : Common) (config : DmrHomebrewConfig) (f : ConfigField) :
    f.cut (configDatagram c config) = fixedField f.width (f.text c config) := by
  have hindex : f.ctorIdx + 1 < (parts c config).length := by
    show f.ctorIdx + 1 < 15
    cases f <;> decide
  have hstart : (([4, 8, 8, 9, 9, 2, 2, 8, 9, 3, 20, 20, 124, 40, 40] : List Nat).take
      (f.ctorIdx + 1)).sum = f.start := by
    cases f <;> rfl
  have hend : (([4, 8, 8, 9, 9, 2, 2, 8, 9, 3, 20, 20, 124, 40, 40] : List Nat).take
      (f.ctorIdx + 1 + 1)).sum = f.start + f.width := by
    cases f <;> rfl
  have hpart := List.drop_take_succ_flatten_eq_getElem (parts c config) (f.ctorIdx + 1) hindex
  rw [lengths_parts, hstart, hend, flatten_parts] at hpart
  rw [cut, hpart]
  cases f <;> rfl

end ConfigField

/-- **The layout.** Of any two configurations that are sent, whatever the clients are and
whatever memory and socket do: the datagram has 306 bytes, `RPTC` and the 14 fields; the
bytes of a field are its text, cut to the field; and they are the same where the values of
that field are, whatever the others are. -/
theorem configDatagram_layout {c : Common} {env env' : HomebrewEnv}
    {homebrew homebrew' : DmrHomebrew} {r r' : HomebrewResult}
    (h : homebrewSendConfig c env homebrew = some r)
    (h' : homebrewSendConfig c env' homebrew' = some r') {datagram datagram' : List UInt8}
    (hd : datagram ∈ r.sent) (hd' : datagram' ∈ r'.sent) :
    datagram.length = 306 ∧ datagram.take 4 = RPTC ∧
      (∀ f : ConfigField, f.cut datagram = fixedField f.width (f.text c homebrew.config)) ∧
      ∀ f : ConfigField, f.Same homebrew.config homebrew'.config →
        f.cut datagram = f.cut datagram' := by
  rw [sent_homebrewSendConfig h datagram hd, sent_homebrewSendConfig h' datagram' hd']
  refine ⟨ConfigField.length_configDatagram c _, rfl, ConfigField.cut_configDatagram c _, ?_⟩
  intro f hsame
  rw [ConfigField.cut_configDatagram, ConfigField.cut_configDatagram,
    ConfigField.text_congr c hsame]

/-- A call sign that is too long leaves the fields behind it where they are. -/
theorem configDatagram_layout_pw :
    let long : DmrHomebrew :=
      .new { DmrHomebrew.pw.config with call := some (CString.bytes "PD0MZ/REPEATER") }
    ConfigField.url.cut (configDatagram .pw DmrHomebrew.pw.config) =
      ConfigField.url.cut (configDatagram .pw long.config) := by
  intro long
  let sending : HomebrewEnv := .sending (fun _ => ⟨0, 0⟩) true
  have hsending (homebrew : DmrHomebrew) :=
    homebrewSendConfig_sending .pw (show sending.allocated = true from rfl) rfl homebrew
  exact (configDatagram_layout (hsending .pw) (hsending long) (List.mem_singleton_self _)
    (List.mem_singleton_self _)).2.2.2 .url rfl

end Dmrlib
