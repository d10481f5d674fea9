import Dmrlib.Lib.Loop
import Dmrlib.Lib.Fields
import Dmrlib.Lib.LinearCode
import Dmrlib.Lib.LogField
import Dmrlib.Lib.BchBound
import Dmrlib.Lib.BitPolynomial
import Dmrlib.Lib.ShiftRegister
import Dmrlib.Lib.Trellis
import Dmrlib.Lib.Distance
import Dmrlib.Lib.Run
import Dmrlib.Lib.Assignments
import Dmrlib.Lib.NodeList
import Dmrlib.Lib.Heap
import Dmrlib.Lib.Block
import Dmrlib.Lib.Sweep
import Dmrlib.Lib.Framing
import Dmrlib.Lib.Lua
import Dmrlib.Lib.CString
import Dmrlib.Lib.Paths
import Dmrlib.Bits
import Dmrlib.Crc
import Dmrlib.Time
import Dmrlib.Io
import Dmrlib.Io.Registry
import Dmrlib.Io.Dispatch
import Dmrlib.Io.Invariant
import Dmrlib.Io.Program
import Dmrlib.Io.Timers
import Dmrlib.Io.EventLoop
import Dmrlib.Io.EventLoopRounds
import Dmrlib.Io.CloseHandlers
import Dmrlib.Raw
import Dmrlib.RawHex
import Dmrlib.RawMemory
import Dmrlib.RawInvariant
import Dmrlib.PacketTypes
import Dmrlib.Fec.Hamming
import Dmrlib.Fec.HammingIndices
import Dmrlib.Fec.Bptc19696
import Dmrlib.Fec.BptcErrors
import Dmrlib.Fec.BptcIndices
import Dmrlib.Fec.Golay208
import Dmrlib.Fec.GolayErrors
import Dmrlib.Fec.Qr167
import Dmrlib.Fec.Rs129
import Dmrlib.Fec.Gf256
import Dmrlib.Fec.RsDistance
import Dmrlib.Fec.Vbptc1611
import Dmrlib.Fec.VbptcCheck
import Dmrlib.Fec.VbptcRepair
import Dmrlib.Fec.VbptcTransport
import Dmrlib.Fec.VbptcCursor
import Dmrlib.Fec.Trellis
import Dmrlib.Packet
import Dmrlib.Payload.Sync
import Dmrlib.Payload.Emb
import Dmrlib.Payload.Lc
import Dmrlib.Payload.Burst
import Dmrlib.Payload.SyncErrors
import Dmrlib.Payload.EmbLc
import Dmrlib.Payload.EmbFragment
import Dmrlib.Payload.Data
import Dmrlib.Noisebridge.Script
import Dmrlib.Noisebridge.Route
import Dmrlib.Noisebridge.RouteLua
import Dmrlib.Noisebridge.Repeater
import Dmrlib.Noisebridge.Calls
import Dmrlib.Noisebridge.SlotTimers
import Dmrlib.Noisebridge.Http
import Dmrlib.Noisebridge.HttpUrl
import Dmrlib.Noisebridge.HttpRequests
import Dmrlib.Noisebridge.Config
import Dmrlib.Noisebridge.ConfigSafety
import Dmrlib.Noisebridge.ConfigOrder
import Dmrlib.Noisebridge.ConfigKeys
import Dmrlib.Noisebridge.Getline
import Dmrlib.Noisebridge.DmrIdFile
import Dmrlib.Protocol.Homebrew
import Dmrlib.Protocol.HomebrewLogin
import Dmrlib.Protocol.HomebrewDmrd
import Dmrlib.Protocol.HomebrewIo
import Dmrlib.Protocol.HomebrewClosing
import Dmrlib.Protocol.HomebrewStopping
import Dmrlib.Protocol.HomebrewKey
import Dmrlib.Protocol.HomebrewReply
import Dmrlib.Protocol.HomebrewConfig
import Dmrlib.Protocol.Mmdvm
import Dmrlib.Protocol.MmdvmStream
import Dmrlib.Protocol.MmdvmSend
import Dmrlib.Protocol.MmdvmBuffer
import Dmrlib.Protocol.MmdvmParse
import Dmrlib.Protocol.ParsedOut
import Dmrlib.Protocol.SendRaw
import Dmrlib.Protocol.MmdvmCommands
import Dmrlib.Noisebridge.Frequencies
import Dmrlib.Noisebridge.Bridge
import Dmrlib.Noisebridge.Dispatches
import Dmrlib.Noisebridge.Receiving
import Dmrlib.Noisebridge.Delivery
import Dmrlib.Noisebridge.Ownership
import Dmrlib.Lib.RedBlack
import Dmrlib.Tree
import Dmrlib.TreeShape
import Dmrlib.IdMap
import Dmrlib.Queue
import Dmrlib.PacketQueue
import Dmrlib.RawQueue
import Dmrlib.Noisebridge.HttpServer
