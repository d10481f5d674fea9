import Dmrlib.Lib.CString

/-!
# The parser of URLs (`src/cmd/noisebridge/http_parser.c`)

`http_parser_parse_url` takes a URL byte by byte, with a state for the part of the URL it is in,
and keeps for each field where it begins and how long it is. `fieldData_path` says what that is
for the path. A URL that has none leaves the one of an earlier URL in place.

The parser is compiled in its strict mode.

- `parseUrlChar`: `parse_url_char`, the state after a byte.
- `HttpUrl`: the fields found, with offset and length of each.
- `scanUrl`, `httpParseHost`: the loop over the bytes, and the second one over the server part.
- `httpParserParseUrl`: the whole function.
- `urlPath`: where the path of a URL is, in a few words.
- `fieldData_path`: the two agree; `exists_parseUrl_path`: a URL of a path alone is parsed.
-/

namespace Dmrlib

open CString

/-! ## Characters

The classes of characters, as the macros have them.
-/

/-- `normal_url_char` -/
def normalUrlChar : List UInt8 :=
  [0, 0, 0, 0, 0xf6, 0xff, 0xff, 0x7f, 0xff, 0xff, 0xff, 0xff, 0xff, 0xff, 0xff, 0x7f]

/-- `IS_URL_CHAR`; the rest of the table is zero. -/
def isUrlChar (c : UInt8) : Bool :=
  normalUrlChar.getD (c >>> 3).toNat 0 &&& 1 <<< (c &&& 7) ≠ 0

/-- `LOWER` -/
def lower (c : UInt8) : UInt8 := c ||| 0x20

/-- `IS_ALPHA` -/
def isAlpha (c : UInt8) : Bool := 0x61 ≤ lower c ∧ lower c ≤ 0x7a

/-- `IS_NUM` -/
def isNum (c : UInt8) : Bool := 0x30 ≤ c ∧ c ≤ 0x39

/-- `IS_ALPHANUM` -/
def isAlphanum (c : UInt8) : Bool := isAlpha c || isNum c

/-- `IS_HEX` -/
def isHex (c : UInt8) : Bool := isNum c || (0x61 ≤ lower c ∧ lower c ≤ 0x66)

/-- `IS_MARK` -/
def isMark (c : UInt8) : Bool := c ∈ bytes "-_.!~*'()"

/-- `IS_USERINFO_CHAR` -/
def isUserinfoChar (c : UInt8) : Bool := isAlphanum c || isMark c || c ∈ bytes "%;:&=+$,"

/-- `IS_HOST_CHAR` -/
def isHostChar (c : UInt8) : Bool := isAlphanum c || c ∈ bytes ".-"

/-! ## States

The states of a URL, and the one that follows each byte.
-/

/-- `enum state`, as far as a URL goes. -/
inductive UrlState where
  | dead
  | spacesBeforeUrl
  | schema
  | schemaSlash
  | schemaSlashSlash
  | serverStart
  | server
  | serverWithAt
  | path
  | queryStringStart
  | queryString
  | fragmentStart
  | fragment
deriving DecidableEq

/-- What three states have in common. -/
def parseServerChar (ch : UInt8) : UrlState :=
  if ch = 0x2f then .path
  else if ch = 0x3f then .queryStringStart
  else if ch = 0x40 then .serverWithAt
  else if isUserinfoChar ch ∨ ch = 0x5b ∨ ch = 0x5d then .server
  else .dead

/-- `parse_url_char` -/
def parseUrlChar (s : UrlState) (ch : UInt8) : UrlState :=
  if ch = 0x20 ∨ ch = 0x0d ∨ ch = 0x0a then .dead
  else if ch = 0x09 ∨ ch = 0x0c then .dead
  else
    match s with
    | .spacesBeforeUrl =>
      if ch = 0x2f ∨ ch = 0x2a then .path else if isAlpha ch then .schema else .dead
    | .schema => if isAlpha ch then s else if ch = 0x3a then .schemaSlash else .dead
    | .schemaSlash => if ch = 0x2f then .schemaSlashSlash else .dead
    | .schemaSlashSlash => if ch = 0x2f then .serverStart else .dead
    | .serverWithAt => if ch = 0x40 then .dead else parseServerChar ch
    | .serverStart | .server => parseServerChar ch
    | .path =>
      if isUrlChar ch then s
      else if ch = 0x3f then .queryStringStart
      else if ch = 0x23 then .fragmentStart
      else .dead
    | .queryStringStart | .queryString =>
      if isUrlChar ch then .queryString
      else if ch = 0x3f then .queryString
      else if ch = 0x23 then .fragmentStart
      else .dead
    | .fragmentStart =>
      if isUrlChar ch then .fragment
      else if ch = 0x3f then .fragment
      else if ch = 0x23 then s
      else .dead
    | .fragment => if isUrlChar ch then s else if ch = 0x3f ∨ ch = 0x23 then s else .dead
    | .dead => .dead

/-! ## Fields -/

/-- `enum http_url_fields` -/
inductive UrlField where
  | schema
  | host
  | port
  | path
  | query
  | fragment
  | userinfo
deriving DecidableEq

/-- An entry of `field_data`. -/
structure UrlRange where
  off : UInt16
  len : UInt16
deriving DecidableEq

/-- `http_url` -/
structure HttpUrl where
  fieldSet : Finset UrlField
  port : UInt16
  fieldData : UrlField → UrlRange

/-- `http_url_init` -/
def httpUrlInit : HttpUrl := ⟨∅, 0, fun _ => ⟨0, 0⟩⟩

/-- A field begins at `i`, with one character. -/
def HttpUrl.start (u : HttpUrl) (uf : UrlField) (i : Nat) : HttpUrl :=
  { u with
    fieldSet := insert uf u.fieldSet
    fieldData := Function.update u.fieldData uf ⟨UInt16.ofNat i, 1⟩ }

/-- `u->field_data[uf] = range` -/
def HttpUrl.setRange (u : HttpUrl) (uf : UrlField) (range : UrlRange) : HttpUrl :=
  { u with fieldData := Function.update u.fieldData uf range }

/-- `u->field_data[uf].len++` -/
def HttpUrl.extend (u : HttpUrl) (uf : UrlField) : HttpUrl :=
  u.setRange uf { u.fieldData uf with len := (u.fieldData uf).len + 1 }

@[simp] theorem HttpUrl.fieldData_start (u : HttpUrl) (uf : UrlField) (i : Nat) :
    (u.start uf i).fieldData uf = ⟨UInt16.ofNat i, 1⟩ := Function.update_self ..

@[simp] theorem HttpUrl.fieldData_extend (u : HttpUrl) (uf : UrlField) :
    (u.extend uf).fieldData uf = { u.fieldData uf with len := (u.fieldData uf).len + 1 } :=
  Function.update_self ..

theorem HttpUrl.fieldData_start_of_ne (u : HttpUrl) {uf uf' : UrlField} (h : uf' ≠ uf) (i : Nat) :
    (u.start uf i).fieldData uf' = u.fieldData uf' := Function.update_of_ne h ..

theorem HttpUrl.fieldData_setRange_of_ne (u : HttpUrl) {uf uf' : UrlField} (h : uf' ≠ uf)
    (range : UrlRange) : (u.setRange uf range).fieldData uf' = u.fieldData uf' :=
  Function.update_of_ne h ..

theorem HttpUrl.fieldData_extend_of_ne (u : HttpUrl) {uf uf' : UrlField} (h : uf' ≠ uf) :
    (u.extend uf).fieldData uf' = u.fieldData uf' := u.fieldData_setRange_of_ne h _

/-! ## The host

The server part is taken apart once more, for user, host and port.
-/

/-- `enum http_host_state` -/
inductive HostState where
  | dead
  | userinfoStart
  | userinfo
  | hostStart
  | hostV6Start
  | host
  | hostV6
  | hostV6End
  | hostV6ZoneStart
  | hostV6Zone
  | hostPortStart
  | hostPort
deriving DecidableEq

/-- A character of a zone. -/
def isZoneChar (c : UInt8) : Bool := isAlphanum c || c ∈ bytes "%.-_~"

/-- A character of an address. -/
def isV6Char (c : UInt8) : Bool := isHex c || c = 0x3a || c = 0x2e

/-- `http_parse_host_char` -/
def httpParseHostChar (s : HostState) (ch : UInt8) : HostState :=
  match s with
  | .userinfo | .userinfoStart =>
    if ch = 0x40 then .hostStart else if isUserinfoChar ch then .userinfo else .dead
  | .hostStart => if ch = 0x5b then .hostV6Start else if isHostChar ch then .host else .dead
  | .host => if isHostChar ch then .host else if ch = 0x3a then .hostPortStart else .dead
  | .hostV6End => if ch = 0x3a then .hostPortStart else .dead
  | .hostV6 =>
    if ch = 0x5d then .hostV6End
    else if isV6Char ch then .hostV6
    else if ch = 0x25 then .hostV6ZoneStart
    else .dead
  | .hostV6Start => if isV6Char ch then .hostV6 else .dead
  | .hostV6Zone =>
    if ch = 0x5d then .hostV6End else if isZoneChar ch then .hostV6Zone else .dead
  | .hostV6ZoneStart => if isZoneChar ch then .hostV6Zone else .dead
  | .hostPort | .hostPortStart => if isNum ch then .hostPort else .dead
  | .dead => .dead

/-- One more character of the host, which begins where the state changes. -/
def HttpUrl.extendHost (u : HttpUrl) (changes : Bool) (i : Nat) : HttpUrl :=
  let range := u.fieldData .host
  u.setRange .host ⟨if changes then UInt16.ofNat i else range.off, range.len + 1⟩

/-- A round of the loop in `http_parse_host`; `none` where it returns 1. -/
def hostStep (i : Nat) (ch : UInt8) (s : HostState) (u : HttpUrl) : Option (HostState × HttpUrl) :=
  match httpParseHostChar s ch with
  | .dead => none
  | .host => some (.host, u.extendHost (s ≠ .host) i)
  | .hostV6 => some (.hostV6, u.extendHost (s ≠ .hostV6) i)
  | .hostV6ZoneStart => some (.hostV6ZoneStart, u.extend .host)
  | .hostV6Zone => some (.hostV6Zone, u.extend .host)
  | .hostPort => some (.hostPort, if s ≠ .hostPort then u.start .port i else u.extend .port)
  | .userinfo => some (.userinfo, if s ≠ .userinfo then u.start .userinfo i else u.extend .userinfo)
  | s => some (s, u)

def scanHost : Nat → List UInt8 → HostState → HttpUrl → Option (HostState × HttpUrl)
  | _, [], s, u => some (s, u)
  | i, ch :: cs, s, u => (hostStep i ch s u).bind fun r => scanHost (i + 1) cs r.1 r.2

/-- `http_parse_host`; `none` where it returns 1. -/
def httpParseHost (buf : List UInt8) (u : HttpUrl) (foundAt : Bool) : Option HttpUrl :=
  let range := u.fieldData .host
  let s := if foundAt then .userinfoStart else .hostStart
  match scanHost range.off.toNat ((buf.drop range.off.toNat).take range.len.toNat) s
      (u.setRange .host { range with len := 0 }) with
  | none => none
  | some (s, u) =>
    match s with
    | .hostStart | .hostV6Start | .hostV6 | .hostV6ZoneStart | .hostV6Zone | .hostPortStart
    | .userinfo | .userinfoStart => none
    | _ => some u

/-! ## The URL -/

/-- The field that a character belongs to, unless it is a delimiter. -/
def UrlState.field : UrlState → Option UrlField
  | schema => some .schema
  | server | serverWithAt => some .host
  | path => some .path
  | queryString => some .query
  | fragment => some .fragment
  | _ => none

/-- The variables of the loop. -/
structure UrlScan where
  s : UrlState
  oldUf : Option UrlField
  foundAt : Bool
  u : HttpUrl

/-- A round of the loop in `http_parser_parse_url`; `none` where it returns 1. -/
def UrlScan.step (scan : UrlScan) (i : Nat) (ch : UInt8) : Option UrlScan :=
  let s := parseUrlChar scan.s ch
  if s = .dead ∨ s = .spacesBeforeUrl then none
  else
    match s.field with
    | none => some { scan with s }
    | some uf =>
      some
        { s
          oldUf := some uf
          foundAt := scan.foundAt || s = .serverWithAt
          u := if scan.oldUf = some uf then scan.u.extend uf else scan.u.start uf i }

def scanUrl : Nat → List UInt8 → UrlScan → Option UrlScan
  | _, [], scan => some scan
  | i, ch :: cs, scan => (scan.step i ch).bind fun scan => scanUrl (i + 1) cs scan

/-- `strtoul` to base 10, where a digit comes first. -/
def strtoul (s : List UInt8) : Nat := min (readDecimal (s.takeWhile isNum)) (2 ^ 64 - 1)

/-- `http_parser_parse_url`, for `buflen` of the bytes from `buf` on; `none` where it returns
1. -/
def httpParserParseUrl (buf : List UInt8) (buflen : Nat) (isConnect : Bool) (u : HttpUrl) :
    Option HttpUrl :=
  let s := if isConnect then .serverStart else .spacesBeforeUrl
  match scanUrl 0 (buf.take buflen) ⟨s, none, false, { u with port := 0, fieldSet := ∅ }⟩ with
  | none => none
  | some scan =>
    if .schema ∈ scan.u.fieldSet ∧ .host ∉ scan.u.fieldSet then none
    else
      match if .host ∈ scan.u.fieldSet then httpParseHost buf scan.u scan.foundAt
        else some scan.u with
      | none => none
      | some u =>
        if isConnect ∧ u.fieldSet ≠ {.host, .port} then none
        else if .port ∈ u.fieldSet then
          let v := strtoul (buf.drop (u.fieldData .port).off.toNat)
          if v > 0xffff then none else some { u with port := UInt16.ofNat v }
        else some u

/-! ## The path of a URL

What the fields say of the path when the parser is done, by the state that it is in.
-/

/-- A path goes up to a query or a fragment. -/
def inPath (c : UInt8) : Bool := c ≠ 0x3f ∧ c ≠ 0x23

/-- A server goes up to a path or a query. -/
def inServer (c : UInt8) : Bool := c ≠ 0x2f ∧ c ≠ 0x3f

/-- Where the path begins in what follows `://`, which begins at `i`, and how long it is. -/
def pathAfterServer (i : Nat) (server : List UInt8) : Option (Nat × Nat) :=
  let rest := server.dropWhile inServer
  if rest.head? = some 0x2f then
    some (i + (server.takeWhile inServer).length, (rest.takeWhile inPath).length)
  else none

/-- Where the path of a URL begins and how long it is: the URL begins with it, or it comes after
`<schema>://<server>`. -/
def urlPath (url : List UInt8) : Option (Nat × Nat) :=
  if url.head? = some 0x2f ∨ url.head? = some 0x2a then some (0, (url.takeWhile inPath).length)
  else
    let i := (url.takeWhile (· ≠ 0x3a)).length + 3
    pathAfterServer i (url.drop i)

def UrlRange.pair (range : UrlRange) : Nat × Nat := (range.off.toNat, range.len.toNat)

/-- What a round of the loop does. -/
theorem UrlScan.step_spec {scan scan' : UrlScan} {i : Nat} {ch : UInt8}
    (h : scan.step i ch = some scan') :
    scan'.s = parseUrlChar scan.s ch ∧ scan'.s ≠ .dead ∧
      match scan'.s.field with
      | none => scan'.u = scan.u ∧ scan'.oldUf = scan.oldUf
      | some uf => scan'.oldUf = some uf ∧
        scan'.u = if scan.oldUf = some uf then scan.u.extend uf else scan.u.start uf i := by
  unfold UrlScan.step at h
  simp only at h
  split at h
  · cases h
  next halive =>
    rw [not_or] at halive
    cases hfield : (parseUrlChar scan.s ch).field with
    | none =>
      rw [hfield] at h
      cases h
      simp only [hfield]
      exact ⟨trivial, halive.1, trivial, trivial⟩
    | some uf =>
      rw [hfield] at h
      cases h
      simp only [hfield]
      exact ⟨trivial, halive.1, trivial, trivial⟩

/-- A character that is not of the path leaves the path alone. -/
theorem UrlScan.step_path {scan scan' : UrlScan} {i : Nat} {ch : UInt8}
    (h : scan.step i ch = some scan') (hs : scan'.s.field ≠ some .path) :
    scan'.u.fieldData .path = scan.u.fieldData .path ∧
      (scan.oldUf ≠ some .path → scan'.oldUf ≠ some .path) := by
  obtain ⟨-, -, hspec⟩ := UrlScan.step_spec h
  cases hfield : scan'.s.field with
  | none =>
    rw [hfield] at hspec
    obtain ⟨hu, hold⟩ := hspec
    rw [hu, hold]
    exact ⟨rfl, id⟩
  | some uf =>
    rw [hfield] at hspec hs
    obtain ⟨hold, hu⟩ := hspec
    have hne : UrlField.path ≠ uf := fun heq => hs (by rw [heq])
    rw [hu, hold]
    refine ⟨?_, fun _ => hs⟩
    split
    · exact scan.u.fieldData_extend_of_ne hne
    · exact scan.u.fieldData_start_of_ne hne i

theorem scanUrl_cons {i : Nat} {ch : UInt8} {cs : List UInt8} {scan scan' : UrlScan}
    (h : scanUrl i (ch :: cs) scan = some scan') :
    ∃ scan₁, scan.step i ch = some scan₁ ∧ scanUrl (i + 1) cs scan₁ = some scan' :=
  Option.bind_eq_some_iff.mp h

/-! ### Behind the path -/

/-- The states of the query and the fragment. -/
def UrlState.AfterPath (s : UrlState) : Prop :=
  s = queryStringStart ∨ s = queryString ∨ s = fragmentStart ∨ s = fragment

theorem UrlState.AfterPath.next {s : UrlState} (h : s.AfterPath) {ch : UInt8}
    (hne : parseUrlChar s ch ≠ .dead) : (parseUrlChar s ch).AfterPath := by
  unfold UrlState.AfterPath at *
  unfold parseUrlChar at *
  obtain rfl | rfl | rfl | rfl := h <;> simp only at hne ⊢ <;> split_ifs at hne ⊢ <;> simp_all

theorem UrlState.AfterPath.field_ne {s : UrlState} (h : s.AfterPath) : s.field ≠ some .path := by
  obtain rfl | rfl | rfl | rfl := h <;> decide

theorem path_of_afterPath {cs : List UInt8} {i : Nat} {scan scan' : UrlScan}
    (h : scanUrl i cs scan = some scan') (hs : scan.s.AfterPath) :
    scan'.u.fieldData .path = scan.u.fieldData .path := by
  induction cs generalizing i scan with
  | nil =>
    cases h
    rfl
  | cons ch cs ih =>
    obtain ⟨scan₁, hstep, h⟩ := scanUrl_cons h
    obtain ⟨hnext, hne, -⟩ := UrlScan.step_spec hstep
    have hs₁ : scan₁.s.AfterPath := by
      rw [hnext] at hne ⊢
      exact hs.next hne
    exact (ih h hs₁).trans (UrlScan.step_path hstep hs₁.field_ne).1

/-! ### In the path -/

theorem parseUrlChar_path {ch : UInt8} (hne : parseUrlChar .path ch ≠ .dead) :
    if inPath ch then parseUrlChar .path ch = .path else (parseUrlChar .path ch).AfterPath := by
  by_cases hin : inPath ch = true
  · rw [if_pos hin]
    obtain ⟨hquery, hfragment⟩ := of_decide_eq_true hin
    unfold parseUrlChar at hne ⊢
    simp only [if_neg hquery, if_neg hfragment] at hne ⊢
    split_ifs at hne ⊢ <;> simp_all
  · rw [if_neg hin]
    have hend : ch = 0x3f ∨ ch = 0x23 := by
      rw [inPath, decide_eq_true_eq, not_and_or, not_not, not_not] at hin
      exact hin
    obtain rfl | rfl := hend
    · exact .inl (by decide)
    · exact .inr (.inr (.inl (by decide)))

/-- A path that has begun goes on for as long as it can. -/
theorem path_of_path {cs : List UInt8} {i : Nat} {scan scan' : UrlScan}
    (h : scanUrl i cs scan = some scan') (hs : scan.s = .path) (hold : scan.oldUf = some .path)
    (hlt : (scan.u.fieldData .path).len.toNat + cs.length < 2 ^ 16) :
    (scan'.u.fieldData .path).pair = ((scan.u.fieldData .path).off.toNat,
      (scan.u.fieldData .path).len.toNat + (cs.takeWhile inPath).length) := by
  induction cs generalizing i scan with
  | nil =>
    cases h
    rfl
  | cons ch cs ih =>
    obtain ⟨scan₁, hstep, h⟩ := scanUrl_cons h
    -- a byte of the path makes it longer by one, any other ends it for good
    obtain ⟨hnext, hne, hspec⟩ := UrlScan.step_spec hstep
    rw [hs] at hnext
    rw [hnext] at hne
    have hchar := parseUrlChar_path hne
    rw [← hnext] at hchar
    rw [List.takeWhile_cons]
    split_ifs at hchar ⊢ with hin
    · rw [hchar] at hspec
      obtain ⟨hold₁, hu⟩ := hspec
      rw [if_pos hold] at hu
      have hdata : scan₁.u.fieldData .path =
          { scan.u.fieldData .path with len := (scan.u.fieldData .path).len + 1 } := by
        rw [hu, HttpUrl.fieldData_extend]
      have hlen : ((scan.u.fieldData .path).len + 1).toNat =
          (scan.u.fieldData .path).len.toNat + 1 := by
        rw [List.length_cons] at hlt
        rw [UInt16.toNat_add]
        exact Nat.mod_eq_of_lt (by simp; omega)
      rw [ih h hchar hold₁ (by rw [hdata, hlen]; rw [List.length_cons] at hlt; omega), hdata, hlen,
        List.length_cons]
      simp only [Prod.mk.injEq, true_and]
      omega
    · rw [path_of_afterPath h hchar, (UrlScan.step_path hstep hchar.field_ne).1]
      rfl

/-- A path that begins here. -/
theorem path_of_start {ch : UInt8} {cs : List UInt8} {i : Nat} {scan scan₁ scan' : UrlScan}
    (hstep : scan.step i ch = some scan₁) (h : scanUrl (i + 1) cs scan₁ = some scan')
    (hs : scan₁.s = .path) (hold : scan.oldUf ≠ some .path) (hlt : i + 1 + cs.length < 2 ^ 16) :
    (scan'.u.fieldData .path).pair = (i, 1 + (cs.takeWhile inPath).length) := by
  obtain ⟨-, -, hspec⟩ := UrlScan.step_spec hstep
  rw [hs] at hspec
  obtain ⟨hold₁, hu⟩ := hspec
  rw [if_neg hold] at hu
  have hdata : scan₁.u.fieldData .path = ⟨UInt16.ofNat i, 1⟩ := by rw [hu, HttpUrl.fieldData_start]
  have hoff : (UInt16.ofNat i).toNat = i := UInt16.toNat_ofNat_of_lt' (by simp [UInt16.size]; omega)
  have hone : (1 : UInt16).toNat = 1 := rfl
  rw [path_of_path h hs hold₁ (by rw [hdata, hone]; omega), hdata, hoff, hone]

/-! ### Before the path -/

/-- The states of the server. -/
def UrlState.InServer (s : UrlState) : Prop := s = serverStart ∨ s = server ∨ s = serverWithAt

theorem UrlState.InServer.field_ne {s : UrlState} (h : s.InServer) : s.field ≠ some .path := by
  obtain rfl | rfl | rfl := h <;> decide

theorem UrlState.InServer.next {s : UrlState} (h : s.InServer) {ch : UInt8}
    (hne : parseUrlChar s ch ≠ .dead) :
    if ch = 0x2f then parseUrlChar s ch = .path
    else if ch = 0x3f then parseUrlChar s ch = .queryStringStart
    else (parseUrlChar s ch).InServer := by
  split_ifs with hpath hquery
  · subst hpath
    obtain rfl | rfl | rfl := h <;> decide
  · subst hquery
    obtain rfl | rfl | rfl := h <;> decide
  · unfold UrlState.InServer at h ⊢
    unfold parseUrlChar parseServerChar at *
    simp only [if_neg hpath, if_neg hquery] at hne ⊢
    obtain rfl | rfl | rfl := h <;> simp only at hne ⊢ <;> split_ifs at hne ⊢ <;> simp_all

theorem pathAfterServer_cons (i : Nat) (ch : UInt8) (cs : List UInt8) :
    pathAfterServer i (ch :: cs) =
      if ch = 0x2f then some (i, 1 + (cs.takeWhile inPath).length)
      else if ch = 0x3f then none
      else pathAfterServer (i + 1) cs := by
  split_ifs with hpath hquery
  · subst hpath
    have hpath : inPath 0x2f = true := by decide
    have hserver : inServer 0x2f = false := by decide
    simp [pathAfterServer, hpath, hserver, Nat.add_comm]
  · subst hquery
    have hserver : inServer 0x3f = false := by decide
    simp [pathAfterServer, hserver]
  · have hserver : inServer ch = true := decide_eq_true ⟨hpath, hquery⟩
    simp [pathAfterServer, hserver, Nat.add_assoc, Nat.add_comm 1]

/-- Behind the schema. -/
theorem path_of_inServer {cs : List UInt8} {i : Nat} {scan scan' : UrlScan}
    (h : scanUrl i cs scan = some scan') (hs : scan.s.InServer) (hold : scan.oldUf ≠ some .path)
    (hlt : i + cs.length < 2 ^ 16) :
    (scan'.u.fieldData .path).pair =
      (pathAfterServer i cs).getD (scan.u.fieldData .path).pair := by
  induction cs generalizing i scan with
  | nil =>
    cases h
    rfl
  | cons ch cs ih =>
    obtain ⟨scan₁, hstep, h⟩ := scanUrl_cons h
    obtain ⟨hnext, hne, -⟩ := UrlScan.step_spec hstep
    rw [List.length_cons] at hlt
    rw [hnext] at hne
    have hchar := hs.next hne
    rw [← hnext] at hchar
    rw [pathAfterServer_cons]
    split_ifs at hchar ⊢ with hpath hquery
    · exact path_of_start hstep h hchar hold (by omega)
    · have hafter : scan₁.s.AfterPath := .inl hchar
      rw [path_of_afterPath h hafter, (UrlScan.step_path hstep hafter.field_ne).1]
      rfl
    · obtain ⟨hsame, hold₁⟩ := UrlScan.step_path hstep hchar.field_ne
      rw [ih h hchar (hold₁ hold) (by omega), hsame]

/-- A character that has to be the one that is expected. -/
theorem parseUrlChar_slash {s : UrlState} (h : s = .schemaSlash ∨ s = .schemaSlashSlash)
    {ch : UInt8} (hne : parseUrlChar s ch ≠ .dead) :
    parseUrlChar s ch = if s = .schemaSlash then .schemaSlashSlash else .serverStart := by
  unfold parseUrlChar at *
  obtain rfl | rfl := h <;> simp only at hne ⊢ <;> split_ifs at hne ⊢ <;> simp_all

/-- Behind the colon. -/
theorem path_of_schemaSlash {cs : List UInt8} {i : Nat} {scan scan' : UrlScan}
    (h : scanUrl i cs scan = some scan') (hs : scan.s = .schemaSlash)
    (hold : scan.oldUf ≠ some .path) (hlt : i + cs.length < 2 ^ 16) :
    (scan'.u.fieldData .path).pair =
      (pathAfterServer (i + 2) (cs.drop 2)).getD (scan.u.fieldData .path).pair := by
  cases cs with
  | nil =>
    cases h
    rfl
  | cons ch cs =>
    obtain ⟨scan₁, hstep, h⟩ := scanUrl_cons h
    obtain ⟨hnext, hne, -⟩ := UrlScan.step_spec hstep
    -- the two slashes behind the colon, then the server part
    have hs₁ : scan₁.s = .schemaSlashSlash := by
      rw [hnext] at hne ⊢
      rw [parseUrlChar_slash (.inl hs) hne, if_pos hs]
    obtain ⟨hsame₁, hold₁⟩ := UrlScan.step_path hstep (by rw [hs₁]; decide)
    cases cs with
    | nil =>
      cases h
      rw [hsame₁]
      rfl
    | cons ch cs =>
      obtain ⟨scan₂, hstep, h⟩ := scanUrl_cons h
      obtain ⟨hnext, hne, -⟩ := UrlScan.step_spec hstep
      have hs₂ : scan₂.s = .serverStart := by
        rw [hnext] at hne ⊢
        rw [parseUrlChar_slash (.inr hs₁) hne, hs₁]
        rfl
      obtain ⟨hsame₂, hold₂⟩ := UrlScan.step_path hstep (by rw [hs₂]; decide)
      simp only [List.length_cons] at hlt
      rw [path_of_inServer h (.inl hs₂) (hold₂ (hold₁ hold)) (by omega), hsame₂, hsame₁]
      rfl

theorem parseUrlChar_schema {ch : UInt8} (hne : parseUrlChar .schema ch ≠ .dead) :
    parseUrlChar .schema ch = if ch = 0x3a then .schemaSlash else .schema := by
  split_ifs with hcolon
  · subst hcolon
    decide
  · unfold parseUrlChar at *
    simp only [if_neg hcolon] at hne ⊢
    split_ifs at hne ⊢ <;> simp_all

/-- In the schema. -/
theorem path_of_schema {cs : List UInt8} {i : Nat} {scan scan' : UrlScan}
    (h : scanUrl i cs scan = some scan') (hs : scan.s = .schema) (hold : scan.oldUf ≠ some .path)
    (hlt : i + cs.length < 2 ^ 16) :
    (scan'.u.fieldData .path).pair =
      (pathAfterServer (i + ((cs.takeWhile (· ≠ 0x3a)).length + 3))
        (cs.drop ((cs.takeWhile (· ≠ 0x3a)).length + 3))).getD (scan.u.fieldData .path).pair := by
  induction cs generalizing i scan with
  | nil =>
    cases h
    rfl
  | cons ch cs ih =>
    obtain ⟨scan₁, hstep, h⟩ := scanUrl_cons h
    obtain ⟨hnext, hne, -⟩ := UrlScan.step_spec hstep
    rw [List.length_cons] at hlt
    have hs₁ : scan₁.s = if ch = 0x3a then .schemaSlash else .schema := by
      rw [hs] at hnext
      rw [hnext] at hne ⊢
      exact parseUrlChar_schema hne
    -- the scan stays in the schema up to the colon
    rw [List.takeWhile_cons]
    by_cases hcolon : ch = 0x3a
    · rw [if_pos hcolon] at hs₁
      obtain ⟨hsame, hold₁⟩ := UrlScan.step_path hstep (by rw [hs₁]; decide)
      rw [path_of_schemaSlash h hs₁ (hold₁ hold) (by omega), hsame]
      simp [hcolon, Nat.add_assoc]
    · rw [if_neg hcolon] at hs₁
      obtain ⟨hsame, hold₁⟩ := UrlScan.step_path hstep (by rw [hs₁]; decide)
      rw [ih h hs₁ (hold₁ hold) (by omega), hsame]
      simp [hcolon, Nat.add_assoc, Nat.add_comm 1]

theorem parseUrlChar_spacesBeforeUrl {ch : UInt8}
    (hne : parseUrlChar .spacesBeforeUrl ch ≠ .dead) :
    if ch = 0x2f ∨ ch = 0x2a then parseUrlChar .spacesBeforeUrl ch = .path
    else parseUrlChar .spacesBeforeUrl ch = .schema ∧ ch ≠ 0x3a := by
  have hcolon : isAlpha 0x3a = false := by decide
  split_ifs with hpath
  · obtain rfl | rfl := hpath <;> decide
  · unfold parseUrlChar at *
    simp only [if_neg hpath] at hne ⊢
    split_ifs at hne ⊢ with hblank hstrict halpha
    · exact absurd rfl hne
    · exact absurd rfl hne
    · refine ⟨rfl, ?_⟩
      rintro rfl
      exact absurd halpha (by rw [hcolon]; exact Bool.false_ne_true)
    · exact absurd rfl hne

/-- The loop over the whole URL. -/
theorem path_of_spacesBeforeUrl {url : List UInt8} {scan scan' : UrlScan}
    (h : scanUrl 0 url scan = some scan') (hs : scan.s = .spacesBeforeUrl)
    (hold : scan.oldUf ≠ some .path) (hlt : url.length < 2 ^ 16) :
    (scan'.u.fieldData .path).pair = (urlPath url).getD (scan.u.fieldData .path).pair := by
  cases url with
  | nil =>
    cases h
    rfl
  | cons ch cs =>
    obtain ⟨scan₁, hstep, h⟩ := scanUrl_cons h
    obtain ⟨hnext, hne, -⟩ := UrlScan.step_spec hstep
    rw [List.length_cons] at hlt
    rw [hnext, hs] at hne
    have hchar := parseUrlChar_spacesBeforeUrl hne
    rw [← hs, ← hnext] at hchar
    unfold urlPath
    simp only [List.head?_cons, Option.some.injEq]
    split_ifs at hchar ⊢ with hpath
    -- the URL begins with its path, or with a schema
    · have hin : inPath ch = true := by
        obtain rfl | rfl := hpath <;> decide
      rw [path_of_start hstep h hchar hold (by omega), List.takeWhile_cons, if_pos hin,
        List.length_cons, Nat.add_comm]
      rfl
    · obtain ⟨hs₁, hcolon⟩ := hchar
      obtain ⟨hsame, hold₁⟩ := UrlScan.step_path hstep (by rw [hs₁]; decide)
      have htake : ((ch :: cs).takeWhile (· ≠ 0x3a)).length + 3 =
          (cs.takeWhile (· ≠ 0x3a)).length + 3 + 1 := by
        rw [List.takeWhile_cons, if_pos (decide_eq_true hcolon), List.length_cons]
      rw [path_of_schema h hs₁ (hold₁ hold) (by omega), hsame, htake, List.drop_succ_cons,
        Nat.zero_add, Nat.add_comm 1]

/-! ### The host leaves it alone -/

theorem hostStep_path {i : Nat} {ch : UInt8} {s : HostState} {u : HttpUrl}
    {r : HostState × HttpUrl} (h : hostStep i ch s u = some r) :
    r.2.fieldData .path = u.fieldData .path := by
  unfold hostStep HttpUrl.extendHost at h
  split at h <;> cases h
  all_goals first
    | rfl
    | exact u.fieldData_setRange_of_ne (by decide) _
    | exact u.fieldData_extend_of_ne (by decide)
    | skip
  · dsimp only
    split
    · exact u.fieldData_start_of_ne (by decide) i
    · exact u.fieldData_extend_of_ne (by decide)
  · dsimp only
    split
    · exact u.fieldData_start_of_ne (by decide) i
    · exact u.fieldData_extend_of_ne (by decide)

theorem scanHost_path {cs : List UInt8} {i : Nat} {s : HostState} {u : HttpUrl}
    {r : HostState × HttpUrl} (h : scanHost i cs s u = some r) :
    r.2.fieldData .path = u.fieldData .path := by
  induction cs generalizing i s u with
  | nil =>
    cases h
    rfl
  | cons ch cs ih =>
    obtain ⟨r₁, hstep, h⟩ := Option.bind_eq_some_iff.mp h
    exact (ih h).trans (hostStep_path hstep)

theorem httpParseHost_path {buf : List UInt8} {u u' : HttpUrl} {foundAt : Bool}
    (h : httpParseHost buf u foundAt = some u') : u'.fieldData .path = u.fieldData .path := by
  unfold httpParseHost at h
  simp only at h
  split at h
  · cases h
  next s u₁ hscan =>
    have hpath := scanHost_path hscan
    rw [HttpUrl.fieldData_setRange_of_ne _ (by decide)] at hpath
    split at h <;> cases h
    all_goals exact hpath

/-- **The path of a URL.** In a URL that is accepted and not too long, `UF_PATH` says where the
path is; if it has none, it says what it has said before. -/
theorem fieldData_path {buf : List UInt8} {buflen : Nat} {u u' : HttpUrl} (hlen : buflen < 2 ^ 16)
    (h : httpParserParseUrl buf buflen false u = some u') :
    (u'.fieldData .path).pair =
      (urlPath (buf.take buflen)).getD (u.fieldData .path).pair := by
  unfold httpParserParseUrl at h
  simp only [Bool.false_eq_true, if_false, false_and] at h
  split at h
  · cases h
  next scan hscan =>
    -- the loop over the bytes finds the path; what comes after it leaves it alone
    have hpath := path_of_spacesBeforeUrl hscan rfl (by simp)
      (by rw [List.length_take]; omega)
    rw [← hpath]
    split at h
    · cases h
    split at h
    · cases h
    next u₁ hhost =>
      have hhost : u₁.fieldData .path = scan.u.fieldData .path := by
        split at hhost
        · exact httpParseHost_path hhost
        · cases hhost
          rfl
      rw [← hhost]
      split at h
      · split at h <;> cases h
        rfl
      · cases h
        rfl

/-- A path takes nothing from outside of its URL. -/
theorem urlPath_le {url : List UInt8} {off len : Nat} (h : urlPath url = some (off, len)) :
    off + len ≤ url.length := by
  unfold urlPath pathAfterServer at h
  simp only at h
  split_ifs at h with hpath hserver
  · cases h
    rw [Nat.zero_add]
    exact (List.takeWhile_sublist _).length_le
  · cases h
    have hrest : ((url.drop ((url.takeWhile (· ≠ 0x3a)).length + 3)).dropWhile inServer) ≠ [] := by
      intro hnil
      rw [hnil] at hserver
      cases hserver
    have hparts := congrArg List.length (List.takeWhile_append_dropWhile (p := inServer)
      (l := url.drop ((url.takeWhile (· ≠ 0x3a)).length + 3)))
    have hlen := (List.takeWhile_sublist (p := inPath)
      (l := (url.drop ((url.takeWhile (· ≠ 0x3a)).length + 3)).dropWhile inServer)).length_le
    have hpos := List.length_pos_iff.mpr hrest
    rw [List.length_append, List.length_drop] at hparts
    omega

/-! ### URLs that are paths -/

theorem exists_scanUrl_path {cs : List UInt8} (hcs : ∀ c ∈ cs, parseUrlChar .path c = .path)
    (i : Nat) (scan : UrlScan) (hs : scan.s = .path) (hold : scan.oldUf = some .path) :
    ∃ scan', scanUrl i cs scan = some scan' ∧ scan'.u.fieldSet = scan.u.fieldSet := by
  induction cs generalizing i scan with
  | nil => exact ⟨scan, rfl, rfl⟩
  | cons ch cs ih =>
    obtain ⟨hch, hcs⟩ := List.forall_mem_cons.mp hcs
    have hstep : scan.step i ch = some ⟨.path, some .path, scan.foundAt || false,
        scan.u.extend .path⟩ := by
      rw [UrlScan.step, hs, hch, hold]
      rfl
    obtain ⟨scan', hscan, hset⟩ := ih hcs (i + 1)
      ⟨.path, some .path, scan.foundAt || false, scan.u.extend .path⟩ rfl rfl
    exact ⟨scan', by rw [scanUrl, hstep]; exact hscan, hset⟩

/-- A slash and characters of a path are accepted. -/
theorem exists_parseUrl_path {cs : List UInt8} (hcs : ∀ c ∈ cs, parseUrlChar .path c = .path)
    (rest : List UInt8) (u : HttpUrl) :
    ∃ u', httpParserParseUrl (0x2f :: cs ++ rest) (cs.length + 1) false u = some u' := by
  obtain ⟨scan', hscan, hset⟩ := exists_scanUrl_path hcs 1 ⟨.path, some .path, false,
    { u with port := 0, fieldSet := ∅ : HttpUrl }.start .path 0⟩ rfl rfl
  have hfirst : scanUrl 0 (0x2f :: cs) ⟨.spacesBeforeUrl, none, false,
      { u with port := 0, fieldSet := ∅ }⟩ = some scan' := hscan
  have hset : scan'.u.fieldSet = {.path} := hset
  refine ⟨scan'.u, ?_⟩
  simp [httpParserParseUrl, hfirst, hset]

end Dmrlib
