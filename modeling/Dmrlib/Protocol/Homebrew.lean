import Dmrlib.Packet
import Dmrlib.Raw
import Dmrlib.Io

/-!
# The Homebrew client (`src/dmr/protocol/homebrew.c`, `homebrew_io.c`)

A repeater logs in to a master in four steps, each driven by what the master answers:
it sends `RPTL`, gets a nonce, sends the nonce hashed together with a shared secret
(`RPTK`), gets an acknowledgement, sends its configuration (`RPTC`), and gets another
acknowledgement. From then on it pings the master every five seconds.

`none` is a call the program does not survive, or that never comes back from sending.

- `DmrHomebrew`: a client with the state of its login, its nonce and its configuration.
- `HomebrewEnv`: what a call gets of memory, of the clock and of the socket.
- `dmrHomebrewAuth`, `dmrHomebrewClose`, `dmrHomebrewSend`, `dmrHomebrewRead`: the calls.
- `readAck`, `readMaster`: the answers of a master.
- `HomebrewResult`: what a call returns, with the datagrams it has sent.
-/

namespace Dmrlib

/-! ## What comes from elsewhere -/

/-- What the client takes from the common library, from the C library and from the
build. -/
structure Common where
  bhex : UInt8 → UInt8
  sha256 : List UInt8 → Vector UInt8 32
  uint24 : Vector UInt8 3 → UInt32
  uint32 : Vector UInt8 4 → UInt32
  /-- `%0*.04f`, for the bits of a `double` -/
  formatDouble : (width : Nat) → UInt64 → List UInt8
  /-- `%s`, for `NULL` -/
  formatNull : List UInt8
  /-- `DMRLIB_SOFTWARE_ID` -/
  softwareId : CStr
  /-- `DMRLIB_PACKAGE_ID` -/
  packageId : CStr

/-- An attempt of `socket_send`. -/
inductive SocketSend where
  | sent
  | failed (errno : Errno)
deriving DecidableEq

/-- What a call of the client finds around it. -/
structure HomebrewEnv where
  /-- Whether there is memory for the copy of a secret. -/
  duplicated : Bool
  /-- Whether there is memory to receive a datagram. -/
  received : Bool
  /-- Whether there is memory for a datagram to send, or for a packet. -/
  allocated : Bool
  /-- Whether there is memory for a buffer to grow. -/
  grown : Bool
  /-- The outcomes of the attempts to send. -/
  sends : List SocketSend
  /-- Successive readings of the clock. -/
  clock : Nat → Timeval
  /-- Whether the caller of the reader asks for the packet. -/
  parsedOut : Bool

/-! ## The client -/

/-- `dmr_homebrew_state` -/
inductive DmrHomebrewState where
  | authNone
  | authInit
  | authConfig
  | authDone
  | authFailed
deriving DecidableEq

/-- The `config` of a `dmr_homebrew`. -/
structure DmrHomebrewConfig where
  call : Option CStr
  repeaterId : DmrId
  rxFreq : UInt16
  txFreq : UInt16
  txPower : UInt8
  colorCode : DmrColorCode
  latitude : UInt64
  longitude : UInt64
  altitude : UInt16
  location : Option CStr
  description : Option CStr
  url : Option CStr
  softwareId : Option CStr
  packageId : Option CStr

/-- `dmr_homebrew`, without its addresses and queues. -/
structure DmrHomebrew where
  config : DmrHomebrewConfig
  state : DmrHomebrewState
  secret : Option CStr
  nonce : Vector UInt8 8
  lastPing : Timeval
  lastPong : Timeval

/-- The client that `dmr_homebrew_new` sets up, configured. -/
def DmrHomebrew.new (config : DmrHomebrewConfig) : DmrHomebrew where
  config := config
  state := .authNone
  secret := none
  nonce := Vector.replicate 8 0
  lastPing := ⟨0, 0⟩
  lastPong := ⟨0, 0⟩

/-- The outcome of a call: its return value, the client, the datagrams that were sent,
and what was stored to `parsed_out`, if anything was. -/
structure HomebrewResult where
  ret : Int
  homebrew : DmrHomebrew
  sent : List (List UInt8)
  parsed : Option (Option DmrParsedPacket)

/-! ## Sending -/

abbrev RPTL : CStr := [0x52, 0x50, 0x54, 0x4c]
abbrev RPTK : CStr := [0x52, 0x50, 0x54, 0x4b]
abbrev RPTC : CStr := [0x52, 0x50, 0x54, 0x43]
abbrev MSTPING : CStr := [0x4d, 0x53, 0x54, 0x50, 0x49, 0x4e, 0x47]

/-- `dmr_homebrew_send_raw`: the return value, and what was sent. -/
def dmrHomebrewSendRaw (raw : DmrRaw) : List SocketSend → Option (Int × List (List UInt8))
  | [] => none
  | .sent :: _ => some (0, [raw.content])
  | .failed errno :: sends =>
    if errno = .EINVAL ∨ errno = .EAGAIN then dmrHomebrewSendRaw raw sends else some (-1, [])

/-- However often sending is tried, nothing but the content of the buffer is sent. -/
theorem sent_dmrHomebrewSendRaw {raw : DmrRaw} {sends : List SocketSend}
    {r : Int × List (List UInt8)} (h : dmrHomebrewSendRaw raw sends = some r) :
    ∀ datagram ∈ r.2, datagram = raw.content := by
  induction sends with
  | nil => cases h
  | cons attempt sends ih =>
    cases attempt with
    | sent =>
      cases h
      exact fun datagram hd => List.mem_singleton.mp hd
    | failed errno =>
      rw [dmrHomebrewSendRaw] at h
      split at h
      · exact ih h
      · cases h
        exact List.forall_mem_nil _

/-- `dmr_homebrew_auth` -/
def dmrHomebrewAuth (env : HomebrewEnv) (homebrew : DmrHomebrew) :
    (secret : Option CStr) → Option HomebrewResult
  | none => some ⟨-1, homebrew, [], none⟩
  | some secret =>
    if homebrew.config.repeaterId = 0 then some ⟨-1, homebrew, [], none⟩
    else if env.duplicated = false then some ⟨-1, { homebrew with secret := none }, [], none⟩
    else
      let homebrew := { homebrew with secret := some secret, state := .authNone }
      match dmrRawNew env.allocated 12 with
      | none => some ⟨-1, homebrew, [], none⟩
      | some raw => do
        let (_, raw) := dmrRawAdd env.grown raw RPTL
        let (_, raw) := dmrRawAddXuint32 env.grown raw homebrew.config.repeaterId
        let (ret, sent) ← dmrHomebrewSendRaw raw env.sends
        return ⟨ret, homebrew, sent, none⟩

/-- `dmr_homebrew_close` -/
def dmrHomebrewClose (env : HomebrewEnv) (homebrew : DmrHomebrew) : Option HomebrewResult :=
  if homebrew.state = .authNone then some ⟨0, homebrew, [], none⟩
  else
    match dmrRawNew env.allocated 12 with
    | none => some ⟨-1, homebrew, [], none⟩
    | some raw => do
      let (_, raw) := dmrRawAdd env.grown raw RPTC
      let (_, raw) := dmrRawAddXuint32 env.grown raw homebrew.config.repeaterId
      let (ret, sent) ← dmrHomebrewSendRaw raw env.sends
      return ⟨ret, homebrew, sent, none⟩

/-- The fields of the configuration, with their widths and their texts. -/
def configFields (c : Common) (config : DmrHomebrewConfig) : List (Nat × List UInt8) :=
  [(8, formatLeft 8 (config.call.getD c.formatNull)),
    (8, formatNat 16 8 config.repeaterId.toNat),
    (9, formatNat 10 9 config.rxFreq.toNat),
    (9, formatNat 10 9 config.txFreq.toNat),
    (2, formatNat 10 2 (min config.txPower.toNat 99)),
    (2, formatNat 10 2 config.colorCode.toNat),
    (8, c.formatDouble 8 config.latitude),
    (9, c.formatDouble 9 config.longitude),
    (3, formatNat 10 3 (min config.altitude.toNat 999)),
    (20, formatLeft 20 (config.location.getD (CString.bytes "Earth"))),
    (20, formatLeft 20 (config.description.getD (CString.bytes "dmrlib"))),
    (124, formatLeft 124 (config.url.getD (CString.bytes "https://github.com/pd0mz/dmrlib"))),
    (40, formatLeft 40 (config.softwareId.getD c.softwareId)),
    (40, formatLeft 40 (config.packageId.getD c.packageId))]

/-- `homebrew_send_config` -/
def homebrewSendConfig (c : Common) (env : HomebrewEnv) (homebrew : DmrHomebrew) :
    Option HomebrewResult :=
  match dmrRawNew env.allocated 302 with
  | none => some ⟨-1, homebrew, [], none⟩
  | some raw => do
    let (_, raw) := dmrRawAdd env.grown raw RPTC
    let raw := (configFields c homebrew.config).foldl
      (fun raw field => (dmrRawAddf env.grown raw field.1 field.2).2) raw
    let (ret, sent) ← dmrHomebrewSendRaw raw env.sends
    return ⟨ret, { homebrew with state := .authConfig }, sent, none⟩

/-- `homebrew_send_key`: the length of the datagram is increased by the length of the
digest once more after the digest has been added. -/
def homebrewSendKey (c : Common) (env : HomebrewEnv) (homebrew : DmrHomebrew) :
    Option HomebrewResult :=
  match dmrRawNew env.allocated 76 with
  | none => some ⟨-1, homebrew, [], none⟩
  | some raw => do
    -- the length of a secret that was never set cannot be taken
    let secret ← homebrew.secret
    let digest := c.sha256 (homebrew.nonce.toList ++ secret)
    let (_, raw) := dmrRawAdd env.grown raw RPTK
    let (_, raw) := dmrRawAddXuint32 env.grown raw homebrew.config.repeaterId
    let (_, raw) := dmrRawAddHex c.bhex env.grown raw digest.toList
    let raw : DmrRaw := ⟨raw.buf, raw.len + 32⟩
    let (ret, sent) ← dmrHomebrewSendRaw raw env.sends
    return ⟨ret, { homebrew with state := .authInit }, sent, none⟩

abbrev DMRD : CStr := [0x44, 0x4d, 0x52, 0x44]

/-- `slot_info` as `dmr_homebrew_send` computes it; a byte keeps the low bits of what is
or-ed to it. -/
def slotInfo (config : DmrHomebrewConfig) (parsed : DmrParsedPacket) : UInt8 :=
  let info : UInt8 := 0
  let info := if config.rxFreq ≠ config.txFreq then info ||| parsed.ts.toUInt8 else info
  let info := if parsed.flco = DMR_FLCO_PRIVATE then info ||| 0x02 else info
  if parsed.dataType = DMR_DATA_TYPE_INVALID ∨ parsed.dataType = DMR_DATA_TYPE_VOICE then
    info ||| parsed.voiceFrame <<< (4 : UInt8)
  else if parsed.dataType = DMR_DATA_TYPE_VOICE_SYNC then info ||| 0x04
  else info ||| (0x08 : UInt8) ||| (parsed.dataType <<< 4).toUInt8

/-- `dmr_homebrew_send` -/
def dmrHomebrewSend (env : HomebrewEnv) (homebrew : DmrHomebrew) (parsed : DmrParsedPacket) :
    Option HomebrewResult :=
  match dmrRawNew env.allocated 53 with
  | none => some ⟨-1, homebrew, [], none⟩
  | some raw => do
    let (_, raw) := dmrRawAdd env.grown raw DMRD
    let (_, raw) := dmrRawAddUint8 env.grown raw parsed.sequence
    let (_, raw) := dmrRawAddUint24 env.grown raw parsed.srcId
    let (_, raw) := dmrRawAddUint24 env.grown raw parsed.dstId
    let (_, raw) := dmrRawAddUint32 env.grown raw parsed.repeaterId
    let (_, raw) := dmrRawAddUint8 env.grown raw (slotInfo homebrew.config parsed)
    let (_, raw) := dmrRawAddUint32 env.grown raw parsed.streamId
    let (_, raw) := dmrRawAdd env.grown raw parsed.packet.toList
    let (ret, sent) ← dmrHomebrewSendRaw raw env.sends
    return ⟨ret, homebrew, sent, none⟩

/-! ## Receiving -/

/-- The switch on the kind of frame in `dmr_homebrew_parse_dmrd`. -/
def parseSlotInfo (parsed : DmrParsedPacket) (info : UInt8) : DmrParsedPacket :=
  let parsed := { parsed with
    ts := (info &&& 0x01).toUInt32
    flco := ((info &&& 0x02) >>> 1).toUInt32 }
  if (info >>> 2) &&& 0x03 = 0x00 then
    { parsed with dataType := DMR_DATA_TYPE_VOICE, voiceFrame := info >>> 4 }
  else if (info >>> 2) &&& 0x03 = 0x01 then { parsed with dataType := DMR_DATA_TYPE_VOICE_SYNC }
  else if (info >>> 2) &&& 0x03 = 0x02 then { parsed with dataType := (info >>> 4).toUInt32 }
  else parsed

/-- `dmr_homebrew_parse_dmrd`: the return value, and what is stored to `parsed_out`. -/
def dmrHomebrewParseDmrd (c : Common) (env : HomebrewEnv) (raw : DmrRaw) :
    Int × Option (Option DmrParsedPacket) :=
  if raw.len ≠ 53 then (-1, some none)
  else if env.allocated = false then (-1, none)
  else
    let byte := fun i => raw.buf.getD i 0
    let parsed := { DmrParsedPacket.zero with
      sequence := byte 4
      srcId := c.uint24 #v[byte 5, byte 6, byte 7]
      dstId := c.uint24 #v[byte 8, byte 9, byte 10]
      repeaterId := c.uint32 #v[byte 11, byte 12, byte 13, byte 14] }
    let parsed := parseSlotInfo parsed (byte 15)
    (0, some (some { parsed with
      streamId := c.uint32 #v[byte 16, byte 17, byte 18, byte 19]
      packet := Vector.ofFn fun i => byte (20 + i.val) }))

/-- `byte_cmp(buf + 3, word, n)` finds no difference. -/
def matchesAt3 (buf : List UInt8) (word : CStr) : Bool :=
  (buf.drop 3).take word.length = word

abbrev ACK : CStr := [0x41, 0x43, 0x4b]
abbrev NAK : CStr := [0x4e, 0x41, 0x4b]
abbrev PONG : CStr := [0x50, 0x4f, 0x4e, 0x47]

/-- An acknowledgement without a nonce. -/
def readAck (c : Common) (env : HomebrewEnv) (homebrew : DmrHomebrew) : Option HomebrewResult :=
  match homebrew.state with
  | .authInit => homebrewSendConfig c env homebrew
  | .authConfig =>
    some ⟨0, { homebrew with
      lastPing := env.clock 0
      lastPong := env.clock 1
      state := .authDone }, [], none⟩
  | _ => some ⟨0, homebrew, [], none⟩

/-- A message of the master: `MSTACK` with and without a nonce, `MSTNAK`. -/
def readMaster (c : Common) (env : HomebrewEnv) (homebrew : DmrHomebrew) (raw : DmrRaw) :
    Option HomebrewResult :=
  if raw.len = 14 then
    if matchesAt3 raw.buf ACK then readAck c env homebrew
    else if matchesAt3 raw.buf NAK then
      some ⟨-1, { homebrew with state := .authNone }, [], none⟩
    else some ⟨0, homebrew, [], none⟩
  else if raw.len = 22 ∧ matchesAt3 raw.buf ACK ∧ homebrew.state = .authNone then
    homebrewSendKey c env
      { homebrew with nonce := Vector.ofFn fun i => raw.buf.getD (14 + i.val) 0 }
  else some ⟨0, homebrew, [], none⟩

/-- `dmr_homebrew_read`. What is received, if anything is, is cut to the size of the
buffer. -/
def dmrHomebrewRead (c : Common) (env : HomebrewEnv) (homebrew : DmrHomebrew)
    (recv : Option (List UInt8)) : Option HomebrewResult :=
  match dmrRawNew env.received 53, recv with
  | none, _ => some ⟨-1, homebrew, [], none⟩
  | some _, none => some ⟨-1, homebrew, [], none⟩
  | some raw, some datagram =>
    let bytes := datagram.take raw.buf.length
    if bytes.length < 14 then some ⟨0, homebrew, [], none⟩
    else
      let raw : DmrRaw := ⟨raw.put bytes, bytes.length⟩
      match raw.buf.getD 0 0 with
      | 0x44 => -- 'D'
        if raw.len = 53 ∧ env.parsedOut then
          let (ret, parsed) := dmrHomebrewParseDmrd c env raw
          some ⟨ret, homebrew, [], parsed⟩
        else some ⟨0, homebrew, [], none⟩
      | 0x4d => readMaster c env homebrew raw -- 'M'
      | 0x52 => -- 'R'
        if raw.len = 15 ∧ matchesAt3 raw.buf PONG then
          some ⟨0, { homebrew with lastPong := env.clock 0 }, [], none⟩
        else some ⟨0, homebrew, [], none⟩
      | _ => some ⟨0, homebrew, [], none⟩

/-! ## The ping timer -/

/-- `homebrew_io_ping_timer` -/
def homebrewIoPingTimer (env : HomebrewEnv) (homebrew : DmrHomebrew) : Option HomebrewResult :=
  if homebrew.state ≠ .authDone then some ⟨0, homebrew, [], none⟩
  else if dmrTimeSince (env.clock 0) homebrew.lastPong > 10 then some ⟨-1, homebrew, [], none⟩
  else
    match dmrRawNew env.allocated 15 with
    | none => some ⟨-1, homebrew, [], none⟩
    | some raw => do
      let (_, raw) := dmrRawAdd env.grown raw MSTPING
      let (_, raw) := dmrRawAddXuint32 env.grown raw homebrew.config.repeaterId
      let (_, sent) ← dmrHomebrewSendRaw raw env.sends
      return ⟨0, { homebrew with lastPing := env.clock 1 }, sent, none⟩

end Dmrlib
