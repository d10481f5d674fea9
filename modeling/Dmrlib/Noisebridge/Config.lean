import Dmrlib.Lib.Run
import Dmrlib.Noisebridge.Http
import Dmrlib.Noisebridge.Repeater
import Dmrlib.Protocol.MmdvmSend

/-!
# The configuration file (`src/cmd/noisebridge/config.c`)

The parser takes the file line by line. `config->section` points at the function for the
section it is in: `readConfig` between sections, where a line ends in `{` or assigns a
top-level key, and one function for each kind of section, which hands back at a line `}`.

A result is `some (.ok config)`, or `some (.error ret)` for a line that is refused, or `none`
where the code would use a null pointer or `config->proto` outside of its bounds. Memory is
taken for granted. What the parser asks of the network, the serial ports, other files and
missing libraries is given by a `ConfigEnv`.

- `Config`, `ProtoConfig`: what is being configured, and the protocol of a section.
- `Config.parseSection`: the section that a line is read in.
- `readConfig`, `readConfigRepeater` and the other parsers: one for each kind of section.
- `parseLine`, `parseLines`, `initConfig`: a line, the lines of a file, and a file.
- `dmrIdAdd`, `readDmrids`: the ids that the configuration names, and those of a file.
-/

namespace Dmrlib

open CString Run

/-- `ip6_t` -/
abbrev Ip6 := Vector UInt8 16

/-- `ip6any` -/
def ip6any : Ip6 := Vector.replicate 16 0

/-- `NOISEBRIDGE_MAX_PROTOS` -/
abbrev NOISEBRIDGE_MAX_PROTOS : Nat := 16

abbrev DMR_PROTOCOL_MBE : UInt32 := 0xf0

/-! ## Strings -/

/-- `rtrim` -/
def rtrim (str : CStr) : CStr := str.rdropWhile isspace

/-- `ltrim` -/
def ltrim (str : CStr) : CStr := str.dropWhile isspace

/-- `trim` -/
def trim (str : CStr) : CStr := ltrim (rtrim str)

/-- `split`, for a separator of one character: the key and the value, if both are there. -/
def split (line : CStr) (sep : UInt8) : Option (CStr × CStr) :=
  match strtokR line sep with
  | (none, _) => none
  | (some k, v) => if (trim v).length > 0 then some (trim k, trim v) else none

/-- An empty line or a comment. -/
def Ignored (line : CStr) : Prop := line = [] ∨ line.head? = some 0x23 ∨ line.head? = some 0x3b

instance (line : CStr) : Decidable (Ignored line) := by
  unfold Ignored
  infer_instance

/-! ## What is configured -/

/-- A `float`, by its bits. -/
abbrev CFloat := UInt32

/-- `proto->settings.homebrew` -/
structure HomebrewSettings where
  peerIp : Ip6
  peerPort : UInt16
  bindIp : Ip6
  bindPort : UInt16
  auth : Option CStr
  call : Option CStr
  repeaterId : DmrId
  colorCode : DmrColorCode
  rxFreq : UInt32
  txFreq : UInt32
  txPower : UInt8
  height : Int
  latitude : CFloat
  longitude : CFloat

/-- `proto->settings.mmdvm` -/
structure MmdvmSettings where
  port : Option CStr
  baud : Int
  model : DmrMmdvmModel
  colorCode : DmrColorCode
  rxFreq : UInt32
  txFreq : UInt32

/-- `proto->settings`, a union; of `settings.mbe` only the quality is used. -/
inductive Settings where
  | homebrew (settings : HomebrewSettings)
  | mbe (quality : Int)
  | mmdvm (settings : MmdvmSettings)

/-- `proto_t`, as the parser fills it. -/
structure ProtoConfig where
  type : UInt32
  name : Option CStr
  settings : Settings

/-- `parse_section_t`: the functions that `config->section` points at. -/
inductive ParseSection where
  | readConfig
  | readConfigRepeater
  | readConfigDmrid
  | readConfigHttpd
  | readConfigHomebrew
  | readConfigMbe
  | readConfigMmdvm
deriving DecidableEq

/-- `config->httpd` -/
structure HttpdConfig where
  enabled : Bool
  bind : Ip6
  port : UInt16
  root : CStr

/-- `config_t`, with the map of DMR ids that the parser fills; `proto` are the entries up to
`config->protos`. -/
structure Config where
  proto : List ProtoConfig
  parseSection : ParseSection
  httpd : HttpdConfig
  script : Option CStr
  timeout : UInt16
  dmrIds : List (DmrId × CStr)

/-- What the parser learns from outside. -/
structure ConfigEnv where
  paths : PathFunctions
  /-- `scan_ip6`; `none` is 0 -/
  scanIp6 : CStr → Option Ip6
  /-- `ip6resolve`, or its return value where that is not 0 -/
  ip6resolve : CStr → Except Int Ip6
  /-- `serial_find` -/
  serialFind : CStr → Option CStr
  atof : CStr → CFloat
  /-- the lines of a file that can be opened, as `getline` returns them -/
  file : CStr → Option (List (List UInt8))
  withMbelib : Bool
  haveLibportaudio : Bool

/-- A machine with a file and nothing else. -/
def envOf (lines : List CStr) : ConfigEnv where
  paths := lexicalPaths []
  scanIp6 _ := none
  ip6resolve _ := .error (-1)
  serialFind _ := none
  atof _ := 0
  file _ := some lines
  withMbelib := false
  haveLibportaudio := false

/-- A line or a file, read or refused. -/
abbrev ConfigResult := Except Int Config

/-! ## DMR ids -/

/-- `dmr_id_add`, which keeps the first name of an id. -/
def dmrIdAdd (ids : List (DmrId × CStr)) (id : DmrId) (name : CStr) : List (DmrId × CStr) :=
  if ids.any fun e => e.1 = id then ids else ids ++ [(id, name)]

/-- A round of the loop in `read_dmrids`; the text is cut to fit `buf`. -/
def readDmrid (ids : List (DmrId × CStr)) (line : CStr) : List (DmrId × CStr) :=
  match split line 0x2c with
  | none => ids
  | some (k, v) =>
    let id := UInt32.ofInt (atoi k)
    if id = 0 then ids
    else
      match split v 0x2c with
      | none => ids
      | some (call, v) =>
        let text :=
          match split v 0x2c with
          | some (name, _) =>
            if name.length > 0 then call ++ bytes " (" ++ name ++ bytes ")" else call
          | none => call
        dmrIdAdd ids id (text.take 62)

/-- `read_dmrids`; `none` is a file that cannot be opened. -/
def readDmrids (env : ConfigEnv) (filename : CStr) (ids : List (DmrId × CStr)) :
    Option (List (DmrId × CStr)) :=
  (env.file filename).map fun lines => (lines.map untilNul).foldl readDmrid ids

/-! ## Sections -/

/-- `CONFIG_STR` -/
def configStr (old : Option CStr) (v : CStr) : Except Int (Option CStr) :=
  if old.isSome then .error (-1) else .ok (some v)

/-- `CONFIG_INT`, for a member of type `α` -/
def configInt {α : Type} [DecidableEq α] [OfNat α 0] (ofInt : Int → α) (old : α) (v : CStr) :
    Except Int α :=
  if old ≠ 0 then .error (-1) else .ok (ofInt (atoi v))

/-- `CONFIG_FLOAT`; neither zero of a `float` differs from 0. -/
def configFloat (env : ConfigEnv) (old : CFloat) (v : CStr) : Except Int CFloat :=
  if old &&& 0x7fffffff ≠ 0 then .error (-1) else .ok (env.atof v)

/-- What the section parsers share: `close` is done at the end of the section, a line with just
the brace of code `0x7d`, and `assign` with a key and its value. -/
def readSection (config : Config) (line : CStr) (close : ConfigResult)
    (assign : CStr → CStr → ConfigResult) : ConfigResult :=
  if Ignored line then .ok config
  else if line = bytes "\x7d" then close
  else
    match split line 0x3d with
    | none => .error (-1)
    | some (k, v) => assign k v

/-- `config->section = read_config` -/
def Config.leave (config : Config) : Config := { config with parseSection := .readConfig }

/-- `read_config_repeater` -/
def readConfigRepeater (config : Config) (line : CStr) : ConfigResult :=
  readSection config line (.ok config.leave) fun k v =>
    if k = bytes "script" then
      if config.script.isSome then .error (-1) else .ok { config with script := some v }
    else if k = bytes "timeout" then .ok { config with timeout := UInt16.ofInt (atoi v) }
    else .error (-1)

/-- `read_config_dmrid` -/
def readConfigDmrid (config : Config) (line : CStr) : ConfigResult :=
  readSection config line (.ok config.leave) fun k v =>
    let id := UInt32.ofInt (atoi k)
    if id = 0 then .error (-1) else .ok { config with dmrIds := dmrIdAdd config.dmrIds id v }

/-- `read_config_httpd` -/
def readConfigHttpd (env : ConfigEnv) (config : Config) (line : CStr) : ConfigResult :=
  let httpd := config.httpd
  readSection config line
    (.ok { config.leave with
      httpd := { httpd with port := if httpd.port = 0 then 8042 else httpd.port } })
    fun k v =>
      if k = bytes "bind" then
        match env.scanIp6 v with
        | none => .error (-1)
        | some ip => .ok { config with httpd := { httpd with bind := ip } }
      else if k = bytes "port" then
        .ok { config with httpd := { httpd with port := UInt16.ofInt (atoi v) } }
      else if k = bytes "root" then
        match readConfigHttpdRoot env.paths v with
        | none => .error (-1)
        | some root => .ok { config with httpd := { httpd with root } }
      else .error (-1)

/-- The keys of a homebrew section, without the name. -/
def homebrewSetting (env : ConfigEnv) (s : HomebrewSettings) (k v : CStr) :
    Except Int HomebrewSettings :=
  if k = bytes "auth" then (configStr s.auth v).map fun auth => { s with auth }
  else if k = bytes "call" then (configStr s.call v).map fun call => { s with call }
  else if k = bytes "repeater_id" then
    (configInt UInt32.ofInt s.repeaterId v).map fun repeaterId => { s with repeaterId }
  else if k = bytes "color_code" then
    (configInt UInt8.ofInt s.colorCode v).map fun colorCode => { s with colorCode }
  else if k = bytes "rx_freq" then
    (configInt UInt32.ofInt s.rxFreq v).map fun rxFreq => { s with rxFreq }
  else if k = bytes "tx_freq" then
    (configInt UInt32.ofInt s.txFreq v).map fun txFreq => { s with txFreq }
  else if k = bytes "tx_power" then
    (configInt UInt8.ofInt s.txPower v).map fun txPower => { s with txPower }
  else if k = bytes "height" then (configInt id s.height v).map fun height => { s with height }
  else if k = bytes "latitude" then
    (configFloat env s.latitude v).map fun latitude => { s with latitude }
  else if k = bytes "longitude" then
    (configFloat env s.longitude v).map fun longitude => { s with longitude }
  else if k = bytes "port" then
    (configInt UInt16.ofInt s.peerPort v).map fun peerPort => { s with peerPort }
  else if k = bytes "bind_port" then
    (configInt UInt16.ofInt s.bindPort v).map fun bindPort => { s with bindPort }
  else if k = bytes "host" then (env.ip6resolve v).map fun peerIp => { s with peerIp }
  else if k = bytes "bind_host" then (env.ip6resolve v).map fun bindIp => { s with bindIp }
  else .error (-1)

/-- The keys of an mbe section, without the name. -/
def mbeSetting (quality : Int) (k v : CStr) : Except Int Int :=
  if k = bytes "quality" then configInt id quality v else .error (-1)

/-- The keys of an mmdvm section, without the name. -/
def mmdvmSetting (env : ConfigEnv) (s : MmdvmSettings) (k v : CStr) : Except Int MmdvmSettings :=
  if k = bytes "color_code" then
    (configInt UInt8.ofInt s.colorCode v).map fun colorCode => { s with colorCode }
  else if k = bytes "rx_freq" then
    (configInt UInt32.ofInt s.rxFreq v).map fun rxFreq => { s with rxFreq }
  else if k = bytes "tx_freq" then
    (configInt UInt32.ofInt s.txFreq v).map fun txFreq => { s with txFreq }
  else if k = bytes "port" then
    if v.head? = some 0x2f ∨ v = bytes "COM" then .ok { s with port := some v }
    else
      match env.serialFind v with
      | none => .error (-1)
      | some port => .ok { s with port := some port }
  else if k = bytes "model" then
    if v = bytes "generic" then .ok { s with model := .g4klx }
    else if v = bytes "g4klx" then .ok { s with model := .g4klx }
    else if v = bytes "dvmega" then .ok { s with model := .dvmega }
    else .error (-1)
  else .error (-1)

/-- The chain of keys of a protocol, which begins with the name; `rest` are the others. -/
def protoKey (proto : ProtoConfig) (k v : CStr) (rest : Except Int Settings) :
    Except Int ProtoConfig :=
  if k = bytes "name" then (configStr proto.name v).map fun name => { proto with name }
  else rest.map fun settings => { proto with settings }

/-- `*proto = proto`, for `proto = config->proto[config->protos - 1]` -/
def Config.setProto (config : Config) (proto : ProtoConfig) : Config :=
  { config with proto := config.proto.dropLast ++ [proto] }

/-- `read_config_homebrew`; `none` where there is no protocol, or one of another type. -/
def readConfigHomebrew (env : ConfigEnv) (config : Config) (line : CStr) : Option ConfigResult :=
  match config.proto.getLast? with
  | some ⟨type, name, .homebrew s⟩ =>
    readSection config line (if s.peerIp = ip6any then .error (-1) else .ok config.leave)
      fun k v => (protoKey ⟨type, name, .homebrew s⟩ k v
        ((homebrewSetting env s k v).map .homebrew)).map config.setProto
  | _ => none

/-- `read_config_mbe` -/
def readConfigMbe (config : Config) (line : CStr) : Option ConfigResult :=
  match config.proto.getLast? with
  | some ⟨type, name, .mbe quality⟩ =>
    readSection config line (.ok config.leave)
      fun k v => (protoKey ⟨type, name, .mbe quality⟩ k v
        ((mbeSetting quality k v).map .mbe)).map config.setProto
  | _ => none

/-- `read_config_mmdvm` -/
def readConfigMmdvm (env : ConfigEnv) (config : Config) (line : CStr) : Option ConfigResult :=
  match config.proto.getLast? with
  | some ⟨type, name, .mmdvm s⟩ =>
    readSection config line (.ok config.leave)
      fun k v => (protoKey ⟨type, name, .mmdvm s⟩ k v
        ((mmdvmSetting env s k v).map .mmdvm)).map config.setProto
  | _ => none

/-! ## Between sections -/

/-- The store of a new protocol at `config->proto[config->protos++]`. -/
def Config.addProto (config : Config) (proto : ProtoConfig) (parseSection : ParseSection) :
    Option ConfigResult :=
  if config.proto.length < NOISEBRIDGE_MAX_PROTOS then
    some (.ok { config with proto := config.proto ++ [proto], parseSection })
  else none

/-- A homebrew protocol before its section is read. -/
def newHomebrew : ProtoConfig :=
  ⟨DMR_PROTOCOL_HOMEBREW, none,
    .homebrew ⟨ip6any, 62030, ip6any, 0, none, none, 0, 0, 0, 0, 0, 0, 0, 0⟩⟩

/-- An mbe protocol before its section is read. -/
def newMbe : ProtoConfig := ⟨DMR_PROTOCOL_MBE, none, .mbe 3⟩

/-- An mmdvm protocol before its section is read; `DMR_MMDVM_BAUD` is 115200. -/
def newMmdvm : ProtoConfig := ⟨DMR_PROTOCOL_MMDVM, none, .mmdvm ⟨none, 115200, .g4klx, 1, 0, 0⟩⟩

/-- The branch of `read_config` for a line that opens the section `k`. -/
def openSection (env : ConfigEnv) (config : Config) (k : CStr) : Option ConfigResult :=
  if k.length = 0 then some (.error (-1))
  else if k = bytes "repeater" then some (.ok { config with parseSection := .readConfigRepeater })
  else if k = bytes "dmrid" then some (.ok { config with parseSection := .readConfigDmrid })
  else if k = bytes "httpd" then
    if config.httpd.enabled then some (.error (-1))
    else
      some (.ok { config with
        parseSection := .readConfigHttpd
        httpd := { config.httpd with enabled := true } })
  else if k = bytes "homebrew" then config.addProto newHomebrew .readConfigHomebrew
  else if k = bytes "mbe" then
    if env.withMbelib = false then some (.error (-1))
    else if env.haveLibportaudio = false then some (.error (-1))
    else config.addProto newMbe .readConfigMbe
  else if k = bytes "mmdvm" then config.addProto newMmdvm .readConfigMmdvm
  else some (.error (-1))

/-- The branch of `read_config` for a key and its value. -/
def topLevelKey (env : ConfigEnv) (config : Config) (line : CStr) : ConfigResult :=
  match split line 0x3d with
  | none => .error (-1)
  | some (k, v) =>
    if k.length = 0 ∨ v.length = 0 then .error (-1)
    else if k = bytes "dmrids" then
      match readDmrids env v config.dmrIds with
      | none => .error (-1)
      | some dmrIds => .ok { config with dmrIds }
    else .error (-1)

/-- `config->repeater.timeout = 180` -/
def Config.defaults (config : Config) : Config := { config with timeout := 180 }

/-- `read_config`. The name of a section is trimmed before it is looked at, also where
`strtok_r` has found none. -/
def readConfig (env : ConfigEnv) (config : Config) (line : CStr) : Option ConfigResult :=
  if Ignored line then some (.ok config)
  else if line.getLast? = some 0x7b then
    match (strtokR line 0x7b).1 with
    | none => none
    | some k => openSection env config.defaults (trim k)
  else some (topLevelKey env config.defaults line)

/-! ## The file -/

/-- `config->section(line, filename, lineno)` -/
def parseLine (env : ConfigEnv) (config : Config) (line : CStr) : Option ConfigResult :=
  match config.parseSection with
  | .readConfig => readConfig env config line
  | .readConfigRepeater => readConfigRepeater config line
  | .readConfigDmrid => readConfigDmrid config line
  | .readConfigHttpd => readConfigHttpd env config line
  | .readConfigHomebrew => readConfigHomebrew env config line
  | .readConfigMbe => readConfigMbe config line
  | .readConfigMmdvm => readConfigMmdvm env config line

/-- `trim(line)`, for a line from `getline`. -/
def cleanLine (line : List UInt8) : CStr := trim (untilNul line)

/-- The loop over the lines. -/
def parseLines (env : ConfigEnv) : Config → List (List UInt8) → Option ConfigResult
  | config, [] => some (.ok config)
  | config, line :: lines =>
    match parseLine env config (cleanLine line) with
    | none => none
    | some (.error ret) => some (.error ret)
    | some (.ok config) => parseLines env config lines

/-- The configuration before anything is read. -/
def Config.initial : Config where
  proto := []
  parseSection := .readConfig
  httpd :=
    { enabled := false
      bind := #v[0, 0, 0, 0, 0, 0, 0, 0, 0, 0, 0xff, 0xff, 127, 0, 0, 1]
      port := 8042
      root := bytes "html" }
  script := none
  timeout := 0
  dmrIds := []

/-- `init_config`, when nothing has been configured before. -/
def initConfig (env : ConfigEnv) (filename : CStr) : Option ConfigResult :=
  match env.file filename with
  | none => some (.error (-1))
  | some lines =>
    match parseLines env .initial lines with
    | none => none
    | some (.error ret) => some (.error ret)
    | some (.ok config) =>
      if config.script.isNone then some (.error (-1))
      else if config.proto.length = 0 then some (.error (-1))
      else some (.ok config)

end Dmrlib
