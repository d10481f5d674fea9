import Dmrlib.PacketTypes
import Dmrlib.Lib.Lua

/-!
# Exchanging packets with the script (`src/cmd/noisebridge/script.c`)

The bridge passes protocols and packets to the Lua script as tables, and takes a
table back. `luaModifyPacket` reads that table at index 1 of the stack, pushes
seven of its fields and leaves them there.

- `protoTable`, `packetTable`: the tables that the script gets.
- `PacketFields`: the fields of a table that was returned.
- `luaModifyPacket`: the fields from the stack, and the stack with them on top.
- `applyFields`: the packet with those fields that are stored.
-/

namespace Dmrlib

open Lua

/-- `proto_t`, as far as the script sees it. -/
structure Proto where
  name : String
  type : UInt32
deriving DecidableEq

/-- The table `lua_pass_proto` builds. -/
def protoTable (proto : Proto) : LuaValue :=
  .table fun key =>
    if key = "name" then .string proto.name
    else if key = "type" then .integer proto.type.toNat
    else .nil

/-- `lua_pass_proto` -/
def luaPassProto (L : Stack) (proto : Proto) : Stack := L.push (protoTable proto)

/-- The table `lua_pass_packet` builds. -/
def packetTable (packet : DmrParsedPacket) : LuaValue :=
  .table fun key =>
    if key = "ts" then .integer packet.ts.toNat
    else if key = "flco" then .integer packet.flco.toNat
    else if key = "src_id" then .integer packet.srcId.toNat
    else if key = "dst_id" then .integer packet.dstId.toNat
    else if key = "repeater_id" then .integer packet.repeaterId.toNat
    else if key = "data_type" then .integer packet.dataType.toNat
    else if key = "color_code" then .integer packet.colorCode.toNat
    else .nil

/-- `lua_pass_packet` -/
def luaPassPacket (L : Stack) (packet : DmrParsedPacket) : Stack := L.push (packetTable packet)

/-- The values of the seven fields in a table, for a script that set them all to
integers. -/
structure PacketFields where
  ts : Int
  flco : Int
  srcId : Int
  dstId : Int
  repeaterId : Int
  dataType : Int
  colorCode : Int

/-- The four fields that `lua_modify_packet` copies into the packet: the `CHECK`s of
`src_id`, `dst_id` and `data_type` are commented out. The `CHECK` of a field that
did not change does nothing, so it is an assignment like the others. -/
def applyFields (packet : DmrParsedPacket) (modify : PacketFields) : DmrParsedPacket :=
  { packet with
    ts := UInt32.ofInt modify.ts
    flco := UInt32.ofInt modify.flco
    repeaterId := UInt32.ofInt modify.repeaterId
    colorCode := UInt8.ofInt modify.colorCode }

/-- `lua_modify_packet`: the stack and the packet; `none` when one of the
`luaL_check*` functions raises an error, which no one catches. -/
def luaModifyPacket (conv : Conv) (L : Stack) (packet : DmrParsedPacket) :
    Option (Stack × DmrParsedPacket) := do
  -- `lua_getfield` fails just when `luaL_checktype(L, 1, LUA_TTABLE)` has failed
  let L ← L.getField 1 "ts"
  let L ← L.getField 1 "flco"
  let L ← L.getField 1 "src_id"
  let L ← L.getField 1 "dst_id"
  let L ← L.getField 1 "repeater_id"
  let L ← L.getField 1 "data_type"
  let L ← L.getField 1 "color_code"
  let ts ← checkInteger conv (L.index (-7))
  let flco ← checkInteger conv (L.index (-6))
  let srcId ← checkInteger conv (L.index (-5))
  let dstId ← checkInteger conv (L.index (-4))
  let repeaterId ← checkInteger conv (L.index (-3))
  let dataType ← checkInteger conv (L.index (-2))
  let colorCode ← checkInteger conv (L.index (-1))
  return (L, applyFields packet ⟨ts, flco, srcId, dstId, repeaterId, dataType, colorCode⟩)

/-- The seven fields stay on the stack. -/
theorem length_luaModifyPacket {conv : Conv} {L L' : Stack} {packet packet' : DmrParsedPacket}
    (h : luaModifyPacket conv L packet = some (L', packet')) : L'.length = L.length + 7 := by
  simp only [luaModifyPacket, bind, Option.bind_eq_some_iff, pure, Option.some.injEq,
    Prod.mk.injEq] at h
  obtain ⟨L1, h1, L2, h2, L3, h3, L4, h4, L5, h5, L6, h6, L7, h7, _, _, _, _, _, _, _, _, _, _,
    _, _, _, _, rfl, -⟩ := h
  have e1 := Stack.length_getField h1
  have e2 := Stack.length_getField h2
  have e3 := Stack.length_getField h3
  have e4 := Stack.length_getField h4
  have e5 := Stack.length_getField h5
  have e6 := Stack.length_getField h6
  have e7 := Stack.length_getField h7
  omega

end Dmrlib
