import Dmrlib.Protocol.HomebrewDmrd
import Dmrlib.Protocol.HomebrewLogin

/-!
# The reply to a nonce

A client answers the nonce of its master with `RPTK`, its number in eight hexadecimal
digits, and the 64 digits of a digest: 76 bytes. What it sends is 32 bytes longer, as the
length of the digest is added to the length of the buffer once more after the digits are
in it; and the number lacks its last digit.

- `IsKeyReply`: the datagram that the protocol asks for.
- `not_isKeyReply`: no call sends it.
-/

namespace Dmrlib

/-- The reply that the master expects. -/
structure IsKeyReply (c : Common) (homebrew : DmrHomebrew) (secret : CStr)
    (datagram : List UInt8) : Prop where
  length : datagram.length = 76
  command : datagram.take 4 = RPTK
  number : (datagram.drop 4).take 8 = formatNat 16 8 homebrew.config.repeaterId.toNat
  digest : datagram.drop 12 = hexBytes c.bhex (c.sha256 (homebrew.nonce.toList ++ secret)).toList

/-- Where 76 bytes are expected there are 32 more. -/
theorem length_keyDatagram (c : Common) (id : DmrId) (nonce secret : List UInt8) :
    (keyDatagram c id nonce secret).length = 108 := by
  rw [keyDatagram, List.length_append, List.length_append, List.length_append, numberField,
    length_fixedField, length_hexBytes, Vector.length_toList, List.length_replicate]
  rfl

/-- **The key.** No datagram that `homebrew_send_key` sends is the reply that the master
expects: for all numbers, nonces and secrets, and however often sending is tried. -/
theorem not_isKeyReply {c : Common} {env : HomebrewEnv} {homebrew : DmrHomebrew}
    {secret : CStr} {r : HomebrewResult} (hsecret : homebrew.secret = some secret)
    (h : homebrewSendKey c env homebrew = some r) {datagram : List UInt8}
    (hd : datagram ∈ r.sent) : ¬ IsKeyReply c homebrew secret datagram := by
  obtain ⟨secret', hsecret', hdatagram⟩ := sent_homebrewSendKey h datagram hd
  obtain rfl : secret = secret' := Option.some.inj (hsecret.symm.trans hsecret')
  intro hreply
  have hlength := hreply.length
  rw [hdatagram, length_keyDatagram] at hlength
  exact absurd hlength (by decide)

/-! ## One reply -/

/-- The digits, and the digest of the nonce 1 to 8 and the secret `pw`. -/
def Common.pw : Common where
  bhex d := if d < 10 then 0x30 + d else 0x57 + d
  sha256 _ := #v[0x0e, 0xfe, 0x04, 0xf7, 0xed, 0x75, 0xf7, 0xa1, 0xb7, 0x31, 0xda, 0x1d, 0x07, 0x50,
    0x0f, 0xc1, 0x77, 0x53, 0x19, 0x5b, 0x50, 0xbb, 0x54, 0x72, 0x73, 0x8b, 0x06, 0x23, 0x83, 0x65,
    0xb1, 0x04]
  uint24 b := (b.toList.headD 0).toUInt32
  uint32 b := (b.toList.headD 0).toUInt32
  formatDouble width _ := formatNat 10 (width - 5) 0 ++ [0x2e, 0x30, 0x30, 0x30, 0x30]
  formatNull := []
  softwareId := []
  packageId := []

/-- Repeater 2042001 with this nonce and this secret. -/
def DmrHomebrew.pw : DmrHomebrew :=
  { DmrHomebrew.new ⟨some [], 2042001, 0, 0, 0, 1, 0, 0, 0, none, none, none, none, none⟩ with
    secret := some [0x70, 0x77]
    nonce := #v[1, 2, 3, 4, 5, 6, 7, 8] }

/-- What it sends, when it can send. -/
theorem homebrewSendKey_pw :
    homebrewSendKey .pw (.sending (fun _ => ⟨0, 0⟩) true) .pw =
      some ⟨0, { DmrHomebrew.pw with state := .authInit },
        [keyDatagram .pw 2042001 [1, 2, 3, 4, 5, 6, 7, 8] [0x70, 0x77]], none⟩ :=
  homebrewSendKey_sending .pw rfl rfl .pw

theorem not_isKeyReply_pw :
    ¬ IsKeyReply .pw .pw [0x70, 0x77]
      (keyDatagram .pw 2042001 [1, 2, 3, 4, 5, 6, 7, 8] [0x70, 0x77]) :=
  not_isKeyReply rfl homebrewSendKey_pw (List.mem_singleton_self _)

/-- The 108 bytes: the number is `001f289` and a zero, and there are 32 zeros at the end. -/
theorem not_isKeyReply_bytes :
    let datagram := keyDatagram .pw 2042001 [1, 2, 3, 4, 5, 6, 7, 8] [0x70, 0x77]
    (∃ r ∈ homebrewSendKey .pw (.sending (fun _ => ⟨0, 0⟩) true) .pw, r.sent = [datagram]) ∧
      datagram.length = 108 ∧
      (datagram.drop 4).take 8 = [0x30, 0x30, 0x31, 0x66, 0x32, 0x38, 0x39, 0] ∧
      datagram.drop 76 = List.replicate 32 0 ∧ ¬ IsKeyReply .pw .pw [0x70, 0x77] datagram := by
  intro datagram
  have hlength : datagram.length = 108 := length_keyDatagram _ _ _ _
  refine ⟨⟨_, homebrewSendKey_pw, rfl⟩, hlength, by decide +kernel, by decide +kernel, ?_⟩
  intro hreply
  exact absurd (hlength.symm.trans hreply.length) (by decide)

end Dmrlib
