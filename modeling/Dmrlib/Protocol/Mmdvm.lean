import Dmrlib.Packet
import Dmrlib.Io
import Dmrlib.Lib.Framing

/-!
# The MMDVM modem (`src/dmr/protocol/mmdvm.c`)

A modem talks over a serial line in frames: `0xE0`, the length of the whole frame,
a command, and up to 252 bytes of arguments. `dmrMmdvmRead` collects what the line
delivers in `frame`, and hands on at most one frame a call.

The collection buffer has 255 bytes. `none` is a call the program does not survive:
a store outside the buffer or the ACK table, or a copy of negative length. Loads
outside the buffer are survived, and see what lies behind it (`ReadEnv.past`).

- `DmrMmdvm`: the modem with its buffer and the position in it.
- `WellFormed`, `mmdvmFormat`: frames, as an instance of `Framing.Format`.
- `dmrMmdvmParseFrame`: the parser of a frame in the buffer.
- `seekStart`, `collect`, `shiftFrame`: the three parts of the reader.
- `dmrMmdvmRead`: the reader.
-/

namespace Dmrlib

open Loop

/-! ## Frames -/

/-- `DMR_MMDVM_FRAME_START` -/
abbrev DMR_MMDVM_FRAME_START : UInt8 := 0xe0

/-! `dmr_mmdvm_command`, as far as the parser knows it -/

abbrev DMR_MMDVM_GET_VERSION : UInt8 := 0x00
abbrev DMR_MMDVM_GET_STATUS : UInt8 := 0x01
abbrev DMR_MMDVM_DMR_DATA1 : UInt8 := 0x18
abbrev DMR_MMDVM_DMR_DATA2 : UInt8 := 0x1a
abbrev DMR_MMDVM_ACK : UInt8 := 0x70
abbrev DMR_MMDVM_NAK : UInt8 := 0x7f

/-- `dmr_mmdvm_frame`: `DMR_MMDVM_FRAME_MAX` is 255. -/
abbrev DmrMmdvmFrame := Vector UInt8 255

/-- `frame[0]`, which every frame starts with. -/
abbrev frameStart (frame : DmrMmdvmFrame) : UInt8 := frame[0]

/-- `frame[1]`, which says how long the frame is. -/
abbrev frameLength (frame : DmrMmdvmFrame) : UInt8 := frame[1]

/-- `frame[2]`, a `dmr_mmdvm_command`, which says what the frame is. -/
abbrev frameCommand (frame : DmrMmdvmFrame) : UInt8 := frame[2]

/-- `frame[3]`, the first byte behind these. -/
abbrev frameData (frame : DmrMmdvmFrame) : UInt8 := frame[3]

/-- A frame as the modem sends it. -/
structure WellFormed (bytes : List UInt8) : Prop where
  start : bytes.head? = some DMR_MMDVM_FRAME_START
  length : bytes[1]?.map UInt8.toNat = some bytes.length
  min : 3 ≤ bytes.length

instance (bytes : List UInt8) : Decidable (WellFormed bytes) :=
  decidable_of_iff (bytes.head? = some DMR_MMDVM_FRAME_START ∧
      bytes[1]?.map UInt8.toNat = some bytes.length ∧ 3 ≤ bytes.length)
    ⟨fun ⟨h1, h2, h3⟩ => ⟨h1, h2, h3⟩, fun ⟨h1, h2, h3⟩ => ⟨h1, h2, h3⟩⟩

/-- The length byte that a frame, or the start of one, carries. -/
def lengthByte (bytes : List UInt8) : Nat := (bytes.getD 1 0).toNat

/-- MMDVM frames say their length in their second byte. -/
def mmdvmFormat : Framing.Format UInt8 where
  Frame := WellFormed
  header := 2
  length := lengthByte
  header_pos := Nat.zero_lt_two
  header_le f hf := by
    have := hf.min
    omega
  length_eq f t b hf hb hlen := by
    have hmin := hf.min
    obtain ⟨s, hs⟩ := hb
    have hfb : f[1]? = b[1]? := by
      have h1 : (f ++ t)[1]? = (b ++ s)[1]? := by rw [hs]
      rwa [List.getElem?_append_left (by omega), List.getElem?_append_left (by omega)] at h1
    have hlb := hf.length
    rw [hfb, List.getElem?_eq_getElem (by omega), Option.map_some, Option.some.injEq] at hlb
    rw [lengthByte, List.getD_eq_getElem _ _ (by omega), hlb]

/-- A frame fits the buffer. -/
theorem WellFormed.max {bytes : List UInt8} (h : WellFormed bytes) : bytes.length ≤ 255 := by
  have hlen := h.length
  cases hb : bytes[1]? with
  | none =>
    rw [hb] at hlen
    cases hlen
  | some b =>
    rw [hb, Option.map_some, Option.some.injEq] at hlen
    have := b.toNat_lt
    omega

/-! ## The serial line -/

/-- What the line has in store for a read: bytes, or nothing (the code is zero) or an
error, with the `errno` that the failure leaves behind, if any. -/
inductive SerialRead where
  | data (bytes : List UInt8)
  | fail (code : Nat) (errno : Option Errno)
deriving DecidableEq

/-- The outcome of a read: its return value, the bytes it stores, `errno`, and the
line after it. -/
structure SerialResult where
  ret : Int
  bytes : List UInt8
  errno : Option Errno
  port : List SerialRead

/-- `serial_read_nonblock`: it returns at most `len` bytes of what has come in at
once, and leaves the others for the next read. -/
def serialReadNonblock (len : Nat) (errno : Option Errno) : List SerialRead → SerialResult
  | [] => ⟨0, [], errno, []⟩
  | .data bytes :: port =>
    ⟨(bytes.take len).length, bytes.take len, errno,
      if len < bytes.length then .data (bytes.drop len) :: port else port⟩
  | .fail code e :: port => ⟨-code, [], e.or errno, port⟩

/-- The `do … while` around the read, with `retries` more rounds allowed. -/
def serialRetry (len : Nat) : (retries : Nat) → Option Errno → List SerialRead → SerialResult
  | 0, errno, port => serialReadNonblock len errno port
  | retries + 1, errno, port =>
    let r := serialReadNonblock len errno port
    if r.ret ≤ 0 ∧ (r.errno = some .EAGAIN ∨ r.errno = some .EINTR) then
      serialRetry len retries r.errno r.port
    else r

/-! ## The modem -/

/-- `dmr_mmdvm`, without what the reader does not touch. `DMR_MMDVM_SET_MAX` is 15. -/
structure DmrMmdvm where
  protocolVersion : Int
  description : Option (List UInt8)
  modes : UInt8
  status : UInt8
  bufferSize : Vector UInt8 4
  txOn : Bool
  ack : Vector Bool 15
  frame : DmrMmdvmFrame
  pos : Nat

/-- The modem that `dmr_mmdvm_new` sets up. -/
def DmrMmdvm.new : DmrMmdvm where
  protocolVersion := 0
  description := none
  modes := 0
  status := 0
  bufferSize := Vector.replicate 4 0
  txOn := false
  ack := Vector.replicate 15 false
  frame := Vector.replicate 255 0
  pos := 0

/-- What a call of the reader finds around it. -/
structure ReadEnv where
  /-- The memory behind the frame buffer, from index 255 on. -/
  past : Nat → UInt8
  /-- Whether there is memory for a description or a packet. -/
  allocated : Bool

/-- The 33 bytes of a DMR frame that make the packet. -/
def framePacket (frame : DmrMmdvmFrame) : DmrPacket := Vector.ofFn fun i => frame[4 + i.val]

/-- `dmr_mmdvm_parse_frame`: the return value, the modem, and the packet stored to
`parsed_out` if there is one. -/
def dmrMmdvmParseFrame (allocated : Bool) (mmdvm : DmrMmdvm) (frame : DmrMmdvmFrame) :
    Option (Int × DmrMmdvm × Option DmrParsedPacket) :=
  if frameStart frame ≠ DMR_MMDVM_FRAME_START then some (-1, mmdvm, none)
  else if frameCommand frame = DMR_MMDVM_GET_VERSION then
    let len := (frameLength frame).toNat
    -- the length of the copy is an `int` turned into a `size_t`
    if len < 4 ∨ (allocated = false ∧ len ≠ 4) then none
    else
      let description := (frame.toList.drop 4).take (len - 4) ++ [0]
      some (0, { mmdvm with
        protocolVersion := (frameData frame).toNat
        description := if allocated then some description else none }, none)
  else if frameCommand frame = DMR_MMDVM_GET_STATUS then
    some (0, { mmdvm with
      modes := frameData frame
      status := frame[4]
      txOn := frame[5] ≠ 0
      bufferSize := #v[frame[6], frame[7], frame[8], frame[9]] }, none)
  else if frameCommand frame = DMR_MMDVM_DMR_DATA1 ∨ frameCommand frame = DMR_MMDVM_DMR_DATA2 then
    match dmrPacketDecode allocated (framePacket frame) with
    | none => none
    | some none => some (-1, mmdvm, none)
    | some (some parsed) =>
      some (0, mmdvm,
        some { parsed with ts := if frameData frame = 0x1a then DMR_TS2 else DMR_TS1 })
  else if frameCommand frame = DMR_MMDVM_ACK then
    if h : (frameData mmdvm.frame).toNat < 15 then
      some (0, { mmdvm with ack := mmdvm.ack.set (frameData mmdvm.frame).toNat true }, none)
    else none
  else some (0, mmdvm, none)

/-! ## The reader -/

/-- A load at `frame[i]`, inside the buffer or behind it. -/
def byteAt (past : Nat → UInt8) (frame : DmrMmdvmFrame) (i : Nat) : UInt8 :=
  if h : i < 255 then frame[i] else past i

/-- A read into `frame + pos`. -/
def storeBytes (frame : DmrMmdvmFrame) (pos : Nat) (bytes : List UInt8) : Option DmrMmdvmFrame :=
  if pos + bytes.length ≤ 255 then
    some (Vector.ofFn fun i =>
      if pos ≤ i.val ∧ i.val < pos + bytes.length then bytes.getD (i.val - pos) 0 else frame[i])
  else none

/-- Shift the buffer until we have a FRAME_START byte. -/
def seekStart (past : Nat → UInt8) : (pos : Nat) → DmrMmdvmFrame → DmrMmdvmFrame × Nat
  | 0, frame => (frame, 0)
  | pos + 1, frame =>
    if frameStart frame ≠ DMR_MMDVM_FRAME_START then
      seekStart past pos (Vector.ofFn fun i => byteAt past frame (i.val + 1))
    else (frame, pos + 1)

/-- From `read_again` to the end of the search for a frame start: the return value
of the read, the modem and the line. -/
def readAgain (past : Nat → UInt8) (len : Nat) (mmdvm : DmrMmdvm) (port : List SerialRead) :
    Option (Int × DmrMmdvm × List SerialRead) :=
  let r := serialRetry len 16 none port
  if r.ret ≤ 0 then some (r.ret, mmdvm, r.port)
  else do
    let frame ← storeBytes mmdvm.frame mmdvm.pos r.bytes
    let (frame, pos) := seekStart past (mmdvm.pos + r.bytes.length) frame
    return (r.ret, { mmdvm with frame, pos }, r.port)

/-- The reads of a call: a second one, with the length the first was given, when the
first leaves fewer than three bytes. -/
def collect (past : Nat → UInt8) (mmdvm : DmrMmdvm) (port : List SerialRead) :
    Option (Int × DmrMmdvm × List SerialRead) := do
  -- a `size_t`
  let len := (2 ^ 64 + 255 - mmdvm.pos) % 2 ^ 64
  let (ret, mmdvm, port) ← readAgain past len mmdvm port
  if ret ≤ 0 ∨ 3 ≤ mmdvm.pos then return (ret, mmdvm, port)
  else readAgain past len mmdvm port

/-- Shift the buffer: the frame at the front makes room for as many bytes behind it,
and everything from there on is zeroed. -/
def shiftFrame (past : Nat → UInt8) (mmdvm : DmrMmdvm) : DmrMmdvm :=
  let len := (frameLength mmdvm.frame).toNat
  have hlen : len < 256 := (frameLength mmdvm.frame).toNat_lt
  let frame := forLoop len (fun i (frame : DmrMmdvmFrame) =>
    frame.set i (byteAt past frame (i.val + len))) mmdvm.frame
  { mmdvm with
    frame := Vector.ofFn fun i => if i.val < len then frame[i] else 0
    pos := if mmdvm.pos ≥ len then mmdvm.pos - len else 0 }

/-- The outcome of a call of the reader, with the frame that it handed to
`dmr_mmdvm_parse_frame`. -/
structure ReadResult where
  ret : Int
  mmdvm : DmrMmdvm
  port : List SerialRead
  parsed : Option DmrParsedPacket
  handed : Option (List UInt8)

/-- `dmr_mmdvm_read` -/
def dmrMmdvmRead (env : ReadEnv) (mmdvm : DmrMmdvm) (port : List SerialRead) :
    Option ReadResult := do
  let (ret, mmdvm, port) ← collect env.past mmdvm port
  if ret ≤ 0 then return ⟨ret, mmdvm, port, none, none⟩
  if mmdvm.pos < 3 then return ⟨0, mmdvm, port, none, none⟩
  if mmdvm.pos < (frameLength mmdvm.frame).toNat then return ⟨0, mmdvm, port, none, none⟩
  let handed := mmdvm.frame.toList.take (frameLength mmdvm.frame).toNat
  let (ret, mmdvm, parsed) ← dmrMmdvmParseFrame env.allocated mmdvm mmdvm.frame
  return ⟨ret, shiftFrame env.past mmdvm, port, parsed, some handed⟩

end Dmrlib
