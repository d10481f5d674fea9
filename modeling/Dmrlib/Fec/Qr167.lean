import Mathlib

/-!
# The QR(16,7) code (`src/dmr/fec/qr_16_7.c`)

Seven bits of embedded signalling are protected by nine check bits. They stand at the
top of the first byte; the last bit of that byte is the first check bit, so whatever was
there before encoding is lost.

- `qr16_7EncoderMap`: the check bits of each of the 128 values.
- `dmrQr16_7Encode`, `dmrQr16_7Decode`: encoder and decoder.
- `dmrQr16_7Encode_spec`: the encoder keeps the upper seven bits, and the decoder finds them.
-/

namespace Dmrlib

/-- `qr_16_7_encoder_map`, eight words to a row. -/
def qr16_7EncoderMap : Vector (Vector UInt16 8) 16 := #v[
  #v[0x0000, 0x0273, 0x04e5, 0x0696, 0x09c9, 0x0bba, 0x0d2c, 0x0f5f],
  #v[0x11e2, 0x1391, 0x1507, 0x1774, 0x182b, 0x1a58, 0x1cce, 0x1ebd],
  #v[0x21b7, 0x23c4, 0x2552, 0x2721, 0x287e, 0x2a0d, 0x2c9b, 0x2ee8],
  #v[0x3055, 0x3226, 0x34b0, 0x36c3, 0x399c, 0x3bef, 0x3d79, 0x3f0a],
  #v[0x411e, 0x436d, 0x45fb, 0x4788, 0x48d7, 0x4aa4, 0x4c32, 0x4e41],
  #v[0x50fc, 0x528f, 0x5419, 0x566a, 0x5935, 0x5b46, 0x5dd0, 0x5fa3],
  #v[0x60a9, 0x62da, 0x644c, 0x663f, 0x6960, 0x6b13, 0x6d85, 0x6ff6],
  #v[0x714b, 0x7338, 0x75ae, 0x77dd, 0x7882, 0x7af1, 0x7c67, 0x7e14],
  #v[0x804f, 0x823c, 0x84aa, 0x86d9, 0x8986, 0x8bf5, 0x8d63, 0x8f10],
  #v[0x91ad, 0x93de, 0x9548, 0x973b, 0x9864, 0x9a17, 0x9c81, 0x9ef2],
  #v[0xa1f8, 0xa38b, 0xa51d, 0xa76e, 0xa831, 0xaa42, 0xacd4, 0xaea7],
  #v[0xb01a, 0xb269, 0xb4ff, 0xb68c, 0xb9d3, 0xbba0, 0xbd36, 0xbf45],
  #v[0xc151, 0xc322, 0xc5b4, 0xc7c7, 0xc898, 0xcaeb, 0xcc7d, 0xce0e],
  #v[0xd0b3, 0xd2c0, 0xd456, 0xd625, 0xd97a, 0xdb09, 0xdd9f, 0xdfec],
  #v[0xe0e6, 0xe295, 0xe403, 0xe670, 0xe92f, 0xeb5c, 0xedca, 0xefb9],
  #v[0xf104, 0xf377, 0xf5e1, 0xf792, 0xf8cd, 0xfabe, 0xfc28, 0xfe5b]]

/-- `qr_16_7_encoder_map[dv]` -/
def qr16_7Word (dv : Fin 128) : UInt16 :=
  qr16_7EncoderMap[dv.val / 8][dv.val % 8]

/-- `dv`: the upper seven bits of a byte. -/
def upperSeven (b : UInt8) : Fin 128 :=
  ⟨b.toNat / 2, by
    have := b.toNat_lt
    omega⟩

/-- `dmr_qr_16_7_encode` -/
def dmrQr16_7Encode (buf : Vector UInt8 2) : Vector UInt8 2 :=
  let qr := qr16_7Word (upperSeven (getElem buf 0 Nat.zero_lt_two))
  #v[(qr >>> 8).toUInt8, (qr &&& 0xff).toUInt8]

/-- `dmr_qr_16_7_decode` -/
def dmrQr16_7Decode (buf : Vector UInt8 2) : Bool :=
  let parity : UInt16 := (getElem buf 0 Nat.zero_lt_two &&& 0x01).toUInt16 <<< (8 : UInt16) |||
    (getElem buf 1 Nat.one_lt_two).toUInt16
  qr16_7Word (upperSeven (getElem buf 0 Nat.zero_lt_two)) &&& 0x1ff = parity

/-- Every word of the table is a code word for its own index. -/
theorem qr16_7Word_spec (dv : Fin 128) :
    upperSeven (qr16_7Word dv >>> 8).toUInt8 = dv ∧
      dmrQr16_7Decode #v[(qr16_7Word dv >>> 8).toUInt8, (qr16_7Word dv &&& 0xff).toUInt8] =
        true := by
  revert dv
  decide +kernel

/-- Encoding keeps the upper seven bits of the first byte, and yields a code word. -/
theorem dmrQr16_7Encode_spec (buf : Vector UInt8 2) :
    upperSeven (getElem (dmrQr16_7Encode buf) 0 Nat.zero_lt_two) =
        upperSeven (getElem buf 0 Nat.zero_lt_two) ∧
      dmrQr16_7Decode (dmrQr16_7Encode buf) = true :=
  qr16_7Word_spec (upperSeven buf[0])

end Dmrlib
