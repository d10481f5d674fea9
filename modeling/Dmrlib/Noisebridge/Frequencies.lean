import Dmrlib.Noisebridge.ConfigOrder
import Dmrlib.Protocol.HomebrewReply
import Dmrlib.Protocol.HomebrewConfig

/-!
# The frequencies of a homebrew repeater

The two frequencies are read as 32-bit numbers, in Hz, and handed to the client by
`init_proto_homebrew`, where they have 16 bits. The client sends them to its master, and
compares them to tell whether the repeater has two slots.

A frequency of 65536 Hz or more does not get through, and two frequencies that differ by a
multiple of 65536 Hz become one.

- `Frequency`: the two frequencies, with the key, the member and the field of each.
- `Configured`: the lines of a section give a key, and no number but this one.
- `ClientCall`, `clientStep`: what is called of a client once it is registered.
- `FrequenciesSurvive`: the datagrams of a call have the frequencies that were configured.
- `throughout_frequenciesSurvive_iff`: the frequencies for which every run of calls has this.
-/

namespace Dmrlib

open CString Run

/-! ## What is configured

The lines of a section, and the settings that the parser has when it comes to its end.
-/

/-- The two frequencies. -/
inductive Frequency where
  | rx
  | tx
deriving DecidableEq

namespace Frequency

/-- The key of a homebrew section. -/
def key : Frequency → CStr
  | rx => bytes "rx_freq"
  | tx => bytes "tx_freq"

def setting (s : HomebrewSettings) : Frequency → UInt32
  | rx => s.rxFreq
  | tx => s.txFreq

def client (config : DmrHomebrewConfig) : Frequency → UInt16
  | rx => config.rxFreq
  | tx => config.txFreq

/-- Where it is in the datagram of the configuration. -/
def field : Frequency → ConfigField
  | rx => .rxFreq
  | tx => .txFreq

end Frequency

/-- The value that a line of a section gives a key. -/
def assigned (key : CStr) (line : List UInt8) : Option CStr :=
  if Ignored (cleanLine line) then none
  else
    match split (cleanLine line) 0x3d with
    | some (k, v) => if k = key then some v else none
    | none => none

/-- The lines give a key, and no number but this one. -/
structure Configured (lines : List (List UInt8)) (key : CStr) (n : UInt32) : Prop where
  given : lines.filterMap (assigned key) ≠ []
  value : ∀ v ∈ lines.filterMap (assigned key), atoi v = n.toNat

/-- A number is configured by its digits. -/
theorem configured_of_decimal {lines : List (List UInt8)} {key : CStr} {n : UInt32}
    (hn : n.toNat < 2 ^ 31) (h : lines.filterMap (assigned key) = [decimal n.toNat]) :
    Configured lines key n := by
  constructor
  · rw [h]
    exact List.cons_ne_nil _ _
  · rw [h, List.forall_mem_singleton]
    exact atoi_decimal hn

/-- What a number of the settings becomes. -/
theorem configInt_eq_ok {α : Type} [DecidableEq α] [OfNat α 0] {ofInt : Int → α} {old new : α}
    {v : CStr} (h : configInt ofInt old v = .ok new) : new = ofInt (atoi v) := by
  unfold configInt at h
  split at h
  · cases h
  · cases h
    rfl

/-- Only its own key changes a frequency. -/
theorem homebrewSetting_frequency {env : ConfigEnv} {s s' : HomebrewSettings} {k v : CStr}
    (h : homebrewSetting env s k v = .ok s') (f : Frequency) :
    k = f.key ∧ f.setting s' = UInt32.ofInt (atoi v) ∨
      k ≠ f.key ∧ f.setting s' = f.setting s := by
  unfold homebrewSetting at h
  -- the keys that come before the frequencies
  iterate 4
    obtain ⟨rfl, h⟩ | ⟨-, h⟩ := ite_eq_iff.mp h
    · obtain ⟨_, -, rfl⟩ := map_eq_ok h
      cases f <;> exact .inr ⟨by decide, rfl⟩
  obtain ⟨rfl, h⟩ | ⟨-, h⟩ := ite_eq_iff.mp h
  · obtain ⟨_, hint, rfl⟩ := map_eq_ok h
    obtain rfl := configInt_eq_ok hint
    cases f with
    | rx => exact .inl ⟨rfl, rfl⟩
    | tx => exact .inr ⟨by decide, rfl⟩
  obtain ⟨rfl, h⟩ | ⟨-, h⟩ := ite_eq_iff.mp h
  · obtain ⟨_, hint, rfl⟩ := map_eq_ok h
    obtain rfl := configInt_eq_ok hint
    cases f with
    | rx => exact .inr ⟨by decide, rfl⟩
    | tx => exact .inl ⟨rfl, rfl⟩
  -- and those that come after them
  iterate 8
    obtain ⟨rfl, h⟩ | ⟨-, h⟩ := ite_eq_iff.mp h
    · obtain ⟨_, -, rfl⟩ := map_eq_ok h
      cases f <;> exact .inr ⟨by decide, rfl⟩
  cases h

/-- The protocol of the section that is read, with its settings. -/
def InSection (config : Config) (s : HomebrewSettings) : Prop :=
  config.parseSection = .readConfigHomebrew ∧
    ∃ type name, config.proto.getLast? = some ⟨type, name, .homebrew s⟩

/-- A line inside the section. -/
theorem InSection.step {env : ConfigEnv} {config config' : Config} {s : HomebrewSettings}
    (hsection : InSection config s) {line : List UInt8} (hbody : cleanLine line ≠ bytes "\x7d")
    (h : parseStep env config (cleanLine line) = some config') :
    ∃ s', InSection config' s' ∧ ∀ f : Frequency,
      (∃ v, assigned f.key line = some v ∧ f.setting s' = UInt32.ofInt (atoi v)) ∨
        assigned f.key line = none ∧ f.setting s' = f.setting s := by
  obtain ⟨hparser, type, name, hlast⟩ := hsection
  rw [parseStep_eq_some, parseLine, hparser] at h
  rw [readConfigHomebrew_last hlast, Option.some.injEq, readSection] at h
  -- a line that is ignored, one without a value, and one that assigns
  split at h
  · next hignored =>
    cases h
    exact ⟨s, ⟨hparser, type, name, hlast⟩, fun f => .inr ⟨if_pos hignored, rfl⟩⟩
  next hignored =>
    split at h
    · cases h
    next k v hsplit =>
      obtain ⟨proto', hproto, rfl⟩ := map_eq_ok h
      have hassigned : ∀ key, assigned key line = if k = key then some v else none := by
        intro key
        rw [assigned, if_neg hignored, hsplit]
      have hset : ∀ proto, (config.setProto proto).proto.getLast? = some proto := fun proto =>
        List.getLast?_concat
      unfold protoKey at hproto
      -- the name is assigned by `PROTO_KEY`, all other keys by the section's own chain
      split at hproto
      · next hname =>
        obtain ⟨name', -, rfl⟩ := map_eq_ok hproto
        refine ⟨s, ⟨hparser, type, name', hset _⟩, fun f => .inr ⟨?_, rfl⟩⟩
        rw [hassigned, hname]
        cases f <;> exact if_neg (by decide)
      · obtain ⟨settings, hsettings, rfl⟩ := map_eq_ok hproto
        obtain ⟨s', hs', rfl⟩ := map_eq_ok hsettings
        refine ⟨s', ⟨hparser, type, name, hset _⟩, fun f => ?_⟩
        rw [hassigned]
        obtain ⟨hkey, hnew⟩ | ⟨hkey, hsame⟩ := homebrewSetting_frequency hs' f
        · exact .inl ⟨v, if_pos hkey, hnew⟩
        · exact .inr ⟨if_neg hkey, hsame⟩

/-- A number that a frequency is configured to is the one that is read. -/
theorem ofInt_of_value {n : UInt32} {v : CStr} (h : atoi v = n.toNat) :
    UInt32.ofInt (atoi v) = n := by
  have hfits : ((n.toNat : Int) % 2 ^ 32).toNat = n.toNat := by
    have := n.toNat_lt
    omega
  rw [h, UInt32.ofInt, hfits]
  exact UInt32.ofNat_toNat

/-- **The parser.** After the lines of a section the settings have the numbers that the lines
give. -/
theorem InSection.frequency {env : ConfigEnv} {config config' : Config} {s : HomebrewSettings}
    (hsection : InSection config s) {lines : List (List UInt8)}
    (hbody : ∀ line ∈ lines, cleanLine line ≠ bytes "\x7d")
    (hread : parseLines env config lines = some (.ok config')) :
    ∃ s', InSection config' s' ∧ ∀ (f : Frequency) (n : UInt32),
      (∀ v ∈ lines.filterMap (assigned f.key), atoi v = n.toNat) →
        (lines.filterMap (assigned f.key) ≠ [] ∨ f.setting s = n) → f.setting s' = n := by
  rw [parseLines_eq_ok_iff] at hread
  -- along the lines; what was assigned before is what the later lines find
  induction lines generalizing config s with
  | nil =>
    cases hread
    refine ⟨s, hsection, fun f n _ hgiven => ?_⟩
    obtain hne | hn := hgiven
    · exact absurd rfl hne
    · exact hn
  | cons line lines ih =>
    rw [List.map_cons, after] at hread
    obtain ⟨config₁, hstep, hread⟩ := Option.bind_eq_some_iff.mp hread
    rw [List.forall_mem_cons] at hbody
    obtain ⟨s₁, hsection₁, hline⟩ := hsection.step hbody.1 hstep
    obtain ⟨s', hsection', hrest⟩ := ih hsection₁ hbody.2 hread
    refine ⟨s', hsection', fun f n hvalue hgiven => ?_⟩
    obtain ⟨v, hv, hnew⟩ | ⟨hnone, hsame⟩ := hline f
    · rw [List.filterMap_cons_some hv, List.forall_mem_cons] at hvalue
      exact hrest f n hvalue.2 (.inr (hnew.trans (ofInt_of_value hvalue.1)))
    · rw [List.filterMap_cons_none hnone] at hvalue hgiven
      exact hrest f n hvalue (hgiven.imp_right hsame.trans)

/-! ## The client

`init_proto_homebrew` hands the settings over, to fields of their own types.
-/

/-- A `float` as a `double`, by their bits. -/
def floatToDouble (f : CFloat) : UInt64 :=
  let sign := (f >>> 31).toUInt64 <<< 63
  let exponent := ((f >>> 23) &&& 0xff).toNat
  let mantissa := (f &&& 0x7fffff).toNat
  let magnitude : Nat :=
    -- infinities and NaNs, numbers with a leading 1, zeros, and numbers without a leading 1
    if exponent = 0xff then 0x7ff * 2 ^ 52 + mantissa * 2 ^ 29
    else if 0 < exponent then (exponent + 896) * 2 ^ 52 + mantissa * 2 ^ 29
    else if mantissa = 0 then 0
    else
      let k := Nat.log2 mantissa
      (k + 874) * 2 ^ 52 + (mantissa - 2 ^ k) * 2 ^ (52 - k)
  sign ||| UInt64.ofNat magnitude

-- 1, -2.5, 2 ^ (-149)
example : [0x3f800000, 0xc0200000, 1].map floatToDouble =
    [0x3ff0000000000000, 0xc004000000000000, 0x36a0000000000000] := by decide +kernel

/-- `homebrew->config`, as `init_proto_homebrew` fills it. What is not assigned there was
cleared. -/
def homebrewConfig (s : HomebrewSettings) : DmrHomebrewConfig where
  call := s.call
  repeaterId := s.repeaterId
  rxFreq := s.rxFreq.toUInt16
  txFreq := s.txFreq.toUInt16
  txPower := s.txPower
  colorCode := 0
  latitude := floatToDouble s.latitude
  longitude := floatToDouble s.longitude
  altitude := UInt16.ofInt s.height
  location := none
  description := none
  url := none
  softwareId := none
  packageId := none

/-- `init_proto_homebrew`, up to the registration of the client: what `dmr_homebrew_auth` does
if it succeeds, or the error. `created` tells whether `dmr_homebrew_new` finds memory and a
socket, `copied` whether there is memory for the call sign. -/
def initProtoHomebrew (created copied : Bool) (env : HomebrewEnv) (s : HomebrewSettings) :
    Option (Except Int HomebrewResult) :=
  if created = false ∨ s.peerIp = ip6any then some (.error (-1))
  else if copied = false ∨ s.call.isNone then some (.error (-1))
  else
    (dmrHomebrewAuth env (.new (homebrewConfig s)) s.auth).map fun r =>
      if r.ret ≠ 0 then .error r.ret else .ok r

/-- What the bridge calls a client for. -/
inductive ClientCall where
  | auth (secret : Option CStr)
  | read (recv : Option (List UInt8))
  | tick
  | close
  | send (parsed : DmrParsedPacket)

def ClientCall.run (c : Common) (env : HomebrewEnv) (homebrew : DmrHomebrew) :
    ClientCall → Option HomebrewResult
  | .auth secret => dmrHomebrewAuth env homebrew secret
  | .read recv => dmrHomebrewRead c env homebrew recv
  | .tick => homebrewIoPingTimer env homebrew
  | .close => dmrHomebrewClose env homebrew
  | .send parsed => dmrHomebrewSend env homebrew parsed

/-- The client after a call. -/
def clientStep (c : Common) (homebrew : DmrHomebrew) (e : ClientCall × HomebrewEnv) :
    Option DmrHomebrew :=
  (e.1.run c e.2 homebrew).map HomebrewResult.homebrew

/-- The configuration that a call sends has the frequencies in its fields; and a frame that is
sent for a packet has its time slot, if the frequencies differ. -/
structure FrequenciesSurvive (c : Common) (freq : Frequency → UInt32) (homebrew : DmrHomebrew)
    (e : ClientCall × HomebrewEnv) : Prop where
  fields : ∀ recv r, e.1 = .read recv → e.1.run c e.2 homebrew = some r →
    ∀ datagram ∈ r.sent, datagram.take 4 = RPTC →
      ∀ f : Frequency, f.field.cut datagram = formatNat 10 9 (freq f).toNat
  slot : ∀ parsed r, e.1 = .send parsed → e.1.run c e.2 homebrew = some r →
    ∀ datagram ∈ r.sent, datagram.getD 15 0 &&& 1 =
      if freq .rx ≠ freq .tx then parsed.ts.toUInt8 &&& 1 else 0

/-! ## What a client sends

Of all datagrams, only the configuration has the frequencies.
-/

section Client

variable {c : Common} {env : HomebrewEnv} {homebrew : DmrHomebrew} {r : HomebrewResult}

/-- What a client that reads does: it keeps the configuration, and if it sends one, it is its
own. -/
theorem dmrHomebrewRead_config {recv : Option (List UInt8)}
    (h : dmrHomebrewRead c env homebrew recv = some r) :
    r.homebrew.config = homebrew.config ∧
      ∀ datagram ∈ r.sent, datagram.take 4 = RPTC →
        datagram = configDatagram c homebrew.config := by
  have hreads := dmrHomebrewRead_reads c env homebrew recv
  generalize dmrHomebrewRead c env homebrew recv = x at h hreads
  cases hreads with
  | master zeros _ _ =>
    obtain ⟨nonce, hanswers⟩ := readMaster_answers h
    refine ⟨hanswers.config, fun datagram hd hword => ?_⟩
    obtain hconfig | ⟨secret, -, rfl⟩ := hanswers.sent datagram hd
    · exact hconfig
    · -- a key is no configuration
      have hkey : RPTK = RPTC := hword
      exact absurd hkey (by decide)
  | _ =>
    cases h
    exact ⟨rfl, List.forall_mem_nil _⟩

theorem config_dmrHomebrewAuth {secret : Option CStr}
    (h : dmrHomebrewAuth env homebrew secret = some r) :
    r.homebrew.config = homebrew.config := by
  unfold dmrHomebrewAuth at h
  split at h
  · cases h
    rfl
  split at h
  · cases h
    rfl
  split at h
  · cases h
    rfl
  simp only at h
  split at h
  · cases h
    rfl
  · obtain ⟨s, -, hs⟩ := Option.bind_eq_some_iff.mp h
    cases hs
    rfl

theorem config_homebrewIoPingTimer (h : homebrewIoPingTimer env homebrew = some r) :
    r.homebrew.config = homebrew.config := by
  unfold homebrewIoPingTimer at h
  split at h
  · cases h
    rfl
  split at h
  · cases h
    rfl
  split at h
  · cases h
    rfl
  · obtain ⟨s, -, hs⟩ := Option.bind_eq_some_iff.mp h
    cases hs
    rfl

theorem config_dmrHomebrewClose (h : dmrHomebrewClose env homebrew = some r) :
    r.homebrew.config = homebrew.config := by
  unfold dmrHomebrewClose at h
  split at h
  · cases h
    rfl
  split at h
  · cases h
    rfl
  · obtain ⟨s, -, hs⟩ := Option.bind_eq_some_iff.mp h
    cases hs
    rfl

theorem config_dmrHomebrewSend {parsed : DmrParsedPacket}
    (h : dmrHomebrewSend env homebrew parsed = some r) :
    r.homebrew.config = homebrew.config := by
  unfold dmrHomebrewSend at h
  split at h
  · cases h
    rfl
  · obtain ⟨s, -, hs⟩ := Option.bind_eq_some_iff.mp h
    cases hs
    rfl

/-- No call changes the configuration. -/
theorem config_run {call : ClientCall} (h : call.run c env homebrew = some r) :
    r.homebrew.config = homebrew.config := by
  cases call with
  | auth secret => exact config_dmrHomebrewAuth h
  | read recv => exact (dmrHomebrewRead_config h).1
  | tick =>
    rw [ClientCall.run] at h
    exact config_homebrewIoPingTimer h
  | close =>
    rw [ClientCall.run] at h
    exact config_dmrHomebrewClose h
  | send parsed =>
    rw [ClientCall.run] at h
    exact config_dmrHomebrewSend h

end Client

/-! ## The slot

A packet that is sent says its slot, for which the two frequencies are compared.
-/

theorem shiftLeft_four_and_one (a : UInt8) : a <<< (4 : UInt8) &&& 1 = 0 := by
  refine UInt8.toNat_inj.mp ?_
  rw [UInt8.toNat_and, UInt8.toNat_shiftLeft]
  show (a.toNat <<< 4 % 2 ^ 8) &&& 1 = 0
  rw [Nat.and_one_is_mod, Nat.shiftLeft_eq]
  omega

/-- The lowest bit of the slot info is that of the slot, if the two frequencies differ. -/
theorem slotInfo_and_one (config : DmrHomebrewConfig) (parsed : DmrParsedPacket) :
    slotInfo config parsed &&& 1 =
      if config.rxFreq ≠ config.txFreq then parsed.ts.toUInt8 &&& 1 else 0 := by
  have hts : (if config.rxFreq ≠ config.txFreq then 0 ||| parsed.ts.toUInt8 else 0) &&& 1 =
      if config.rxFreq ≠ config.txFreq then parsed.ts.toUInt8 &&& 1 else 0 := by
    split
    · rw [UInt8.zero_or]
    · rfl
  have hflco : ∀ info : UInt8,
      (if parsed.flco = DMR_FLCO_PRIVATE then info ||| 0x02 else info) &&& 1 = info &&& 1 := by
    intro info
    split
    · rw [or_and_distrib]
      exact UInt8.or_zero
    · rfl
  unfold slotInfo
  simp only
  split
  · rw [or_and_distrib, shiftLeft_four_and_one, UInt8.or_zero, hflco, hts]
  split
  · rw [or_and_distrib, hflco, hts]
    exact UInt8.or_zero
  · have hshift : (parsed.dataType <<< 4).toUInt8 = parsed.dataType.toUInt8 <<< (4 : UInt8) :=
      UInt32.toUInt8_shiftLeft _ 4 (by decide)
    rw [or_and_distrib, or_and_distrib, hshift, shiftLeft_four_and_one, UInt8.or_zero, hflco, hts]
    exact UInt8.or_zero

/-! ## Texts

The number in a field of the datagram can be read back from its digits.
-/

theorem formatNat_eq_leftpad (width n : Nat) :
    formatNat 10 width n = (decimal n).leftpad width 0x30 := rfl

/-- A number of at most 9 digits is read back from its text. -/
theorem readDecimal_formatNat (width n : Nat) : readDecimal (formatNat 10 width n) = n := by
  rw [formatNat_eq_leftpad, List.leftpad, readDecimal_replicate_append, readDecimal_decimal]

theorem length_formatNat {width n : Nat} (hwidth : 0 < width) (h : n < 10 ^ width) :
    (formatNat 10 width n).length = width := by
  have hlen : (decimal n).length ≤ width := by
    rw [decimal, digits, List.length_map]
    exact (Nat.length_toDigits_le_iff (by decide) hwidth).mpr h
  rw [formatNat_eq_leftpad, List.length_leftpad]
  omega

/-- What is in a field for a frequency. -/
theorem fixedField_formatNat {n : Nat} (h : n < 10 ^ 9) :
    fixedField 9 (formatNat 10 9 n) = formatNat 10 9 n := by
  have hlen := length_formatNat (by decide) h
  rw [fixedField, hlen, Nat.sub_self, List.replicate_zero, List.append_nil,
    List.take_of_length_le hlen.le]

/-- The frequencies of a client are in the fields that are theirs. -/
theorem cut_frequency (c : Common) (config : DmrHomebrewConfig) (f : Frequency) :
    f.field.cut (configDatagram c config) = formatNat 10 9 (f.client config).toNat := by
  have hlt : (f.client config).toNat < 10 ^ 9 := by
    have := (f.client config).toNat_lt
    omega
  rw [ConfigField.cut_configDatagram, ← fixedField_formatNat hlt]
  cases f <;> rfl

/-! ## Which frequencies survive -/

/-- What a successful `dmr_homebrew_auth` leaves. -/
theorem dmrHomebrewAuth_ok {env : HomebrewEnv} {homebrew : DmrHomebrew} {secret : Option CStr}
    {r : HomebrewResult} (h : dmrHomebrewAuth env homebrew secret = some r) (hret : r.ret = 0) :
    r.homebrew.state = .authNone ∧ r.homebrew.secret ≠ none := by
  have hfails : (-1 : Int) ≠ 0 := by decide
  unfold dmrHomebrewAuth at h
  split at h
  · cases h
    exact absurd hret hfails
  split at h
  · cases h
    exact absurd hret hfails
  split at h
  · cases h
    exact absurd hret hfails
  simp only at h
  split at h
  · cases h
    exact absurd hret hfails
  · obtain ⟨s, -, hs⟩ := Option.bind_eq_some_iff.mp h
    cases hs
    exact ⟨rfl, Option.some_ne_none _⟩

/-- What a successful `init_proto_homebrew` leaves. -/
theorem initProtoHomebrew_ok {created copied : Bool} {env : HomebrewEnv} {s : HomebrewSettings}
    {r : HomebrewResult} (h : initProtoHomebrew created copied env s = some (.ok r)) :
    r.homebrew.config = homebrewConfig s ∧ r.homebrew.state = .authNone ∧
      r.homebrew.secret ≠ none := by
  unfold initProtoHomebrew at h
  split at h
  · cases h
  split at h
  · cases h
  obtain ⟨r', hauth, hr⟩ := Option.map_eq_some_iff.mp h
  split at hr
  · cases hr
  next hret =>
    cases hr
    exact ⟨config_dmrHomebrewAuth hauth, dmrHomebrewAuth_ok hauth (not_not.mp hret)⟩

/-- An acknowledgement of the master, and one that carries a nonce. -/
def ackDatagram : List UInt8 :=
  [0x4d, 0x53, 0x54, 0x41, 0x43, 0x4b, 0x30, 0x30, 0x31, 0x66, 0x32, 0x38, 0x39, 0x31]

def nonceDatagram : List UInt8 := ackDatagram ++ [1, 2, 3, 4, 5, 6, 7, 8]

/-- The login, when everything can be sent. -/
def loginEvents : List (ClientCall × HomebrewEnv) :=
  [nonceDatagram, ackDatagram].map fun datagram =>
    (.read (some datagram), .sending (fun _ => ⟨0, 0⟩) true)

/-- A client that waits for its nonce sends its configuration in the login. -/
theorem fields_of_login {c : Common} {freq : Frequency → UInt32} {homebrew : DmrHomebrew}
    (hstate : homebrew.state = .authNone) (hsecret : homebrew.secret ≠ none)
    (h : Throughout (clientStep c) (FrequenciesSurvive c freq) homebrew loginEvents)
    (f : Frequency) :
    f.field.cut (configDatagram c homebrew.config) = formatNat 10 9 (freq f).toNat := by
  obtain ⟨secret, hsome⟩ := Option.ne_none_iff_exists'.mp hsecret
  let sending : HomebrewEnv := .sending (fun _ => ⟨0, 0⟩) true
  have hkey : replyDue homebrew nonceDatagram = some .key :=
    if_pos ⟨by decide, hstate⟩
  let keyed : DmrHomebrew :=
    { homebrew with secret := some secret, nonce := nonceOf nonceDatagram, state := .authInit }
  have hread := @dmrHomebrewRead_due c sending homebrew nonceDatagram .key rfl hkey
  rw [sendReply, homebrewSendKey_sending c rfl rfl, hsome, Option.map_some] at hread
  have hstep : clientStep c homebrew (.read (some nonceDatagram), sending) = some keyed := by
    rw [clientStep, ClientCall.run, hread]
    rfl
  have hconfig : replyDue keyed ackDatagram = some .config := rfl
  have hread' := @dmrHomebrewRead_due c sending keyed ackDatagram .config rfl hconfig
  rw [sendReply, homebrewSendConfig_sending c rfl rfl] at hread'
  obtain ⟨hfields, -⟩ := (h.2 keyed hstep).1
  exact hfields _ _ rfl hread' _ (List.mem_singleton_self _) rfl f

/-- A client with the frequencies sends them, and the slots they ask for. -/
theorem frequenciesSurvive_of_client {c : Common} {freq : Frequency → UInt32}
    {homebrew : DmrHomebrew}
    (h : ∀ f : Frequency, (f.client homebrew.config).toNat = (freq f).toNat)
    (e : ClientCall × HomebrewEnv) : FrequenciesSurvive c freq homebrew e := by
  constructor
  · intro recv r hcall hr datagram hd hword f
    rw [hcall, ClientCall.run] at hr
    rw [(dmrHomebrewRead_config hr).2 datagram hd hword, cut_frequency, h]
  · intro parsed r hcall hr datagram hd
    rw [hcall, ClientCall.run] at hr
    have hdiffer : homebrew.config.rxFreq ≠ homebrew.config.txFreq ↔ freq .rx ≠ freq .tx := by
      rw [Ne, Ne, ← UInt16.toNat_inj, ← UInt32.toNat_inj, ← h .rx, ← h .tx]
      rfl
    rw [sent_dmrHomebrewSend hr datagram hd, getD_dmrdFrame_info, slotInfo_and_one]
    simp only [hdiffer]

/-- A frequency of the settings is cut to 16 bits. -/
theorem client_homebrewConfig (s : HomebrewSettings) (f : Frequency) :
    (f.client (homebrewConfig s)).toNat = (f.setting s).toNat % 2 ^ 16 := by
  cases f <;> exact UInt32.toNat_toUInt16 _

/-- **Frequencies.** For all frequencies, however a section configures them and
whatever else it does, when `init_proto_homebrew` has set up the client: in every run, whatever
the master sends, the memory and the socket, they are in the configuration that is sent and
decide about the slot, if and only if both are below 65536. -/
theorem throughout_frequenciesSurvive_iff (c : Common) {freq : Frequency → UInt32}
    {cenv : ConfigEnv} {config config' : Config}
    (hsection : config.parseSection = .readConfigHomebrew)
    (hnew : config.proto.getLast? = some newHomebrew) {lines : List (List UInt8)}
    (hbody : ∀ line ∈ lines, cleanLine line ≠ bytes "\x7d")
    (hfreq : ∀ f : Frequency, Configured lines f.key (freq f))
    (hread : parseLines cenv config lines = some (.ok config')) {type : UInt32}
    {name : Option CStr} {s : HomebrewSettings}
    (hproto : config'.proto.getLast? = some ⟨type, name, .homebrew s⟩) {created copied : Bool}
    {env : HomebrewEnv} {r : HomebrewResult}
    (hinit : initProtoHomebrew created copied env s = some (.ok r)) :
    (∀ es, Throughout (clientStep c) (FrequenciesSurvive c freq) r.homebrew es) ↔
      ∀ f, (freq f).toNat < 65536 := by
  -- as far as the configuration goes, nothing is lost
  have hset : ∀ f : Frequency, f.setting s = freq f := by
    intro f
    obtain ⟨s', hsection', hs'⟩ :=
      InSection.frequency ⟨hsection, _, _, hnew⟩ hbody hread
    obtain ⟨-, type', name', hlast⟩ := hsection'
    rw [hproto] at hlast
    cases hlast
    exact hs' f (freq f) (hfreq f).value (.inl (hfreq f).given)
  obtain ⟨hconfig, hstate, hsecret⟩ := initProtoHomebrew_ok hinit
  -- the client has what is left of it in 16 bits
  have hclient : ∀ f : Frequency,
      (f.client r.homebrew.config).toNat = (freq f).toNat % 2 ^ 16 := by
    intro f
    rw [hconfig, client_homebrewConfig, hset]
  constructor
  -- a login sends both, and the digits tell the number
  · intro h f
    have htext := fields_of_login hstate hsecret (h loginEvents) f
    rw [cut_frequency] at htext
    have hsame := congrArg readDecimal htext
    rw [readDecimal_formatNat, readDecimal_formatNat, hclient] at hsame
    omega
  -- no call changes the configuration of a client
  · intro hlt es
    refine Throughout.of_inv
      (I := fun homebrew : DmrHomebrew => homebrew.config = r.homebrew.config) ?_ ?_ rfl es
    · intro homebrew e hsame
      refine frequenciesSurvive_of_client (fun f => ?_) e
      rw [hsame, hclient]
      exact Nat.mod_eq_of_lt (hlt f)
    · intro homebrew e homebrew' hsame hstep
      obtain ⟨r', hrun, rfl⟩ := Option.map_eq_some_iff.mp hstep
      exact (config_run hrun).trans hsame

/-! ## One section -/

/-- A repeater that receives on 430 MHz, and sends 6.5536 MHz above. -/
def Frequency.pw : Frequency → UInt32
  | rx => 430000000
  | tx => 436553600

def pwSection : List (List UInt8) :=
  [bytes "host = master", bytes "call = PD0MZ", bytes "auth = pw", bytes "repeater_id = 2042001",
    bytes "rx_freq = " ++ decimal 430000000, bytes "tx_freq = " ++ decimal 436553600]

/-- A section `homebrew` has been opened. -/
def Config.opened : Config :=
  { Config.initial with proto := [newHomebrew], parseSection := .readConfigHomebrew }

def ConfigEnv.pw : ConfigEnv :=
  { envOf [] with ip6resolve := fun _ => .ok (Vector.replicate 16 1) }

def HomebrewSettings.pw : HomebrewSettings :=
  ⟨Vector.replicate 16 1, 62030, ip6any, 0, some (bytes "pw"), some (bytes "PD0MZ"), 2042001, 0,
    430000000, 436553600, 0, 0, 0, 0⟩

theorem parseLines_pw :
    parseLines .pw .opened pwSection =
      some (.ok (Config.opened.setProto ⟨DMR_PROTOCOL_HOMEBREW, none, .homebrew .pw⟩)) := by
  rfl

/-- The client that is set up with these settings. -/
def DmrHomebrew.loggingIn : DmrHomebrew :=
  { DmrHomebrew.new (homebrewConfig .pw) with secret := some (bytes "pw") }

theorem initProtoHomebrew_pw :
    initProtoHomebrew true true (.sending (fun _ => ⟨0, 0⟩) true) .pw =
      some (.ok ⟨0, .loggingIn, [RPTL ++ numberField 2042001], none⟩) := by
  have hid : (DmrHomebrew.new (homebrewConfig .pw)).config.repeaterId ≠ 0 := by decide
  let sending : HomebrewEnv := .sending (fun _ => ⟨0, 0⟩) true
  have hauth := dmrHomebrewAuth_sending (show sending.allocated = true from rfl) rfl
    (.new (homebrewConfig .pw)) (bytes "pw") hid rfl
  have hcreated : ¬ (true = false ∨ HomebrewSettings.pw.peerIp = ip6any) := by decide
  have hcopied : ¬ (true = false ∨ HomebrewSettings.pw.call.isNone) := by decide
  rw [initProtoHomebrew, if_neg hcreated, if_neg hcopied]
  show Option.map _ (dmrHomebrewAuth _ _ (some (bytes "pw"))) = _
  rw [hauth]
  rfl

theorem configured_pw (f : Frequency) : Configured pwSection f.key (Frequency.pw f) := by
  cases f with
  | rx => exact configured_of_decimal (by decide) rfl
  | tx => exact configured_of_decimal (by decide) rfl

theorem throughout_frequenciesSurvive_iff_pw :
    (∀ es, Throughout (clientStep .pw) (FrequenciesSurvive .pw Frequency.pw) .loggingIn es) ↔
      ∀ f, (Frequency.pw f).toNat < 65536 :=
  throughout_frequenciesSurvive_iff .pw rfl rfl (by decide) configured_pw parseLines_pw rfl
    initProtoHomebrew_pw

/-- Both fields of the configuration are `000018304`, and no packet has a slot. -/
theorem not_frequenciesSurvive_pw :
    let sending : HomebrewEnv := .sending (fun _ => ⟨0, 0⟩) true
    let parsed : DmrParsedPacket := { DmrParsedPacket.zero with ts := DMR_TS2 }
    parseLines .pw .opened pwSection =
        some (.ok (Config.opened.setProto ⟨DMR_PROTOCOL_HOMEBREW, none, .homebrew .pw⟩)) ∧
      initProtoHomebrew true true sending .pw =
        some (.ok ⟨0, .loggingIn, [RPTL ++ numberField 2042001], none⟩) ∧
      (∀ f : Frequency, f.field.cut (configDatagram .pw DmrHomebrew.loggingIn.config) =
        bytes "000018304") ∧
      ¬ Throughout (clientStep .pw) (FrequenciesSurvive .pw Frequency.pw) .loggingIn loginEvents ∧
      ¬ Throughout (clientStep .pw) (FrequenciesSurvive .pw Frequency.pw) .loggingIn
        [(.send parsed, sending)] := by
  intro sending parsed
  have hcut : ∀ f : Frequency, f.field.cut (configDatagram .pw DmrHomebrew.loggingIn.config) =
      bytes "000018304" := by
    intro f
    rw [cut_frequency]
    cases f <;> rfl
  refine ⟨parseLines_pw, initProtoHomebrew_pw, hcut, fun h => ?_, fun h => ?_⟩
  -- the first datagram of the configuration has the wrong frequency
  · have htext := fields_of_login rfl (Option.some_ne_none _) h .rx
    rw [hcut] at htext
    exact absurd htext (by decide)
  -- and a packet of the second slot is sent as one of the first
  · have hsend : dmrHomebrewSend sending .loggingIn parsed =
        some ⟨0, .loggingIn, [dmrdFrame (homebrewConfig .pw) parsed], none⟩ := by
      rw [dmrHomebrewSend_eq rfl]
      rfl
    have hslot := h.1.slot parsed _ rfl hsend _ (List.mem_singleton_self _)
    rw [getD_dmrdFrame_info, slotInfo_and_one] at hslot
    exact absurd hslot (by decide)

end Dmrlib
