import Dmrlib.Lib.Run
import Dmrlib.Noisebridge.Http
import Dmrlib.Noisebridge.HttpUrl

/-!
# The path of a request (`src/cmd/noisebridge/http.c`)

`http_parser_execute` calls back with the URL of a request, and again when its headers are
complete. Then the path, as the URL has been parsed, is checked against `PATH_MAX` and copied
into a buffer that is smaller than that. A URL without a path is accepted as well, and the path of
an earlier URL of the connection is taken instead, but from the place of the new one.
`request_path_iff` says which requests come through.

What the parser calls back with is up to it: a list of callbacks, whose URLs lie in the request.

- `HttpClient.step`: a callback of the parser.
- `CopyFits`: the copy of a path stays in its buffer and in the request.
- `RequestPathsSafe`: it does wherever the headers are complete.
- `latestPath`, `PathFits`: the path that would be copied, and the condition on it.
- `longRequest`: a request that writes behind the buffer.
-/

namespace Dmrlib

open CString Run

/-- `HTTPD_MAX_REQUEST` -/
abbrev HTTPD_MAX_REQUEST : Nat := 8192

/-- A callback of `http_parser_execute`; a URL is `len` bytes of the request, from `pos` on. -/
inductive HttpCallback where
  | url (pos len : Nat)
  | headersComplete

/-- `client->request`, of which the header buffer is given by its place in the request. -/
structure HttpClient where
  headerBuf : Option Nat
  url : HttpUrl

/-- A client that has been accepted. -/
def HttpClient.new : HttpClient := ⟨none, httpUrlInit⟩

/-- `client->request.url.field_data[UF_PATH]` -/
def HttpClient.path (client : HttpClient) : UrlRange := client.url.fieldData .path

/-- `handle_client_url`; `none` where it returns 1. -/
def handleClientUrl (request : List UInt8) (pos len : Nat) (client : HttpClient) :
    Option HttpClient :=
  (httpParserParseUrl (request.drop pos) len false client.url).map fun url => ⟨some pos, url⟩

/-- A callback; `none` where it fails and the parser stops. -/
def HttpClient.step (request : List UInt8) (client : HttpClient) :
    HttpCallback → Option HttpClient
  | .url pos len => handleClientUrl request pos len client
  | .headersComplete => if client.path.len.toNat ≥ PATH_MAX then none else some client

/-- The bytes that are copied to `request_path`. -/
def HttpClient.copied (client : HttpClient) (request : List UInt8) : List UInt8 :=
  (request.drop (client.headerBuf.getD 0 + client.path.off.toNat)).take client.path.len.toNat

/-- Unless the path is refused, it fits into `request_path` with a zero behind it, and lies in the
request. -/
def CopyFits (request : List UInt8) (client : HttpClient) : Prop :=
  client.path.len.toNat ≥ PATH_MAX ∨
    client.path.len.toNat + 1 ≤ 1024 ∧
      client.headerBuf.getD 0 + client.path.off.toNat + client.path.len.toNat ≤ request.length

/-- Where the path lies in the request, it fits if the copy leaves a zero at the end. -/
theorem copyFits_iff_handle {request : List UInt8} {client : HttpClient}
    (hin : client.headerBuf.getD 0 + client.path.off.toNat + client.path.len.toNat ≤
      request.length) (paths : PathFunctions) (root : List UInt8) (r : Request) :
    CopyFits request client ↔
      (handleClientHeadersComplete paths root (client.copied request) r).isSome := by
  have hlen : (client.copied request).length = client.path.len.toNat := by
    rw [HttpClient.copied, List.length_take, List.length_drop]
    omega
  unfold CopyFits handleClientHeadersComplete
  rw [hlen, and_iff_left hin]
  split_ifs with hmax hfits
  · exact iff_of_true (.inl hmax) rfl
  · exact iff_of_false (by omega) Bool.false_ne_true
  · exact iff_of_true (.inr (by omega)) rfl

/-- Whenever the headers of a request are complete, its path can be copied: then
`handle_client_headers_complete` comes to its end, for every root (`copyFits_iff_handle`). -/
def RequestPathsSafe (request : List UInt8) (callbacks : List HttpCallback) : Prop :=
  ∀ pre post client, callbacks = pre ++ .headersComplete :: post →
    after (HttpClient.step request) .new pre = some client → CopyFits request client

/-! ## What is told by the URLs alone -/

/-- The text of a URL. -/
def urlText (request : List UInt8) (pos len : Nat) : List UInt8 := (request.drop pos).take len

/-- Where the latest URL begins. -/
def latestUrl (last : Option Nat) : List HttpCallback → Option Nat
  | [] => last
  | .url pos _ :: callbacks => latestUrl (some pos) callbacks
  | .headersComplete :: callbacks => latestUrl last callbacks

/-- The place in its URL and the length of the latest path, and whether it is that of the latest
URL. -/
def latestPath (request : List UInt8) (last : Bool × Nat × Nat) :
    List HttpCallback → Bool × Nat × Nat
  | [] => last
  | .url pos len :: callbacks =>
    latestPath request ((urlPath (urlText request pos len)).elim (false, last.2) (true, ·))
      callbacks
  | .headersComplete :: callbacks => latestPath request last callbacks

/-- The latest path is refused; or it is short enough, and is that of the latest URL or happens to
lie in the request. -/
def PathFits (request : List UInt8) (callbacks : List HttpCallback) : Prop :=
  match latestPath request (false, 0, 0) callbacks with
  | (own, off, len) => len ≥ PATH_MAX ∨ len < 1024 ∧
    (own = true ∨ (latestUrl none callbacks).getD 0 + off + len ≤ request.length)

/-! ## A run of the parser -/

/-- The client has the latest path. -/
structure HasPath (request : List UInt8) (last : Bool × Nat × Nat) (client : HttpClient) :
    Prop where
  pair : client.path.pair = last.2
  inside : last.1 = true → client.headerBuf.getD 0 + last.2.1 + last.2.2 ≤ request.length

theorem hasPath_new (request : List UInt8) : HasPath request (false, 0, 0) .new :=
  ⟨rfl, fun h => absurd h Bool.false_ne_true⟩

/-- A URL is parsed. -/
theorem HasPath.url {request : List UInt8} (hmax : request.length ≤ HTTPD_MAX_REQUEST)
    {last : Bool × Nat × Nat} {client client' : HttpClient} (h : HasPath request last client)
    {pos len : Nat} (hin : pos + len ≤ request.length)
    (hstep : handleClientUrl request pos len client = some client') :
    client'.headerBuf = some pos ∧ HasPath request
      ((urlPath (urlText request pos len)).elim (false, last.2) (true, ·)) client' := by
  obtain ⟨url, hparse, rfl⟩ := Option.map_eq_some_iff.mp hstep
  have hpath : (url.fieldData .path).pair =
      (urlPath (urlText request pos len)).getD client.path.pair :=
    fieldData_path (lt_of_le_of_lt (by omega : len ≤ HTTPD_MAX_REQUEST) (by decide)) hparse
  refine ⟨rfl, ?_⟩
  cases hurl : urlPath (urlText request pos len) with
  | none =>
    rw [hurl, h.pair] at hpath
    exact ⟨hpath, fun hown => absurd hown Bool.false_ne_true⟩
  | some range =>
    rw [hurl] at hpath
    refine ⟨hpath, fun _ => ?_⟩
    have hle : range.1 + range.2 ≤ (urlText request pos len).length := urlPath_le hurl
    rw [urlText, List.length_take, List.length_drop] at hle
    show pos + range.1 + range.2 ≤ request.length
    omega

theorem hasPath_after {request : List UInt8} (hmax : request.length ≤ HTTPD_MAX_REQUEST)
    {callbacks : List HttpCallback}
    (hcalls : ∀ pos len, .url pos len ∈ callbacks → pos + len ≤ request.length)
    {last : Bool × Nat × Nat} {client client' : HttpClient} (h : HasPath request last client)
    (hrun : after (HttpClient.step request) client callbacks = some client') :
    client'.headerBuf = latestUrl client.headerBuf callbacks ∧
      HasPath request (latestPath request last callbacks) client' := by
  induction callbacks generalizing last client with
  | nil =>
    cases hrun
    exact ⟨rfl, h⟩
  | cons c callbacks ih =>
    obtain ⟨client₁, hstep, hrun₁⟩ := Option.bind_eq_some_iff.mp hrun
    have hrest : ∀ pos len, .url pos len ∈ callbacks → pos + len ≤ request.length :=
      fun pos len hmem => hcalls pos len (List.mem_cons_of_mem c hmem)
    cases c with
    | url pos len =>
      obtain ⟨hbuf, h₁⟩ := h.url hmax (hcalls pos len List.mem_cons_self) hstep
      obtain ⟨hlatest, hpath⟩ := ih hrest h₁ hrun₁
      rw [hbuf] at hlatest
      exact ⟨hlatest, hpath⟩
    -- the parser stops at a path that is too long, and else the client stays as it is
    | headersComplete =>
      have hsame : client₁ = client := by
        unfold HttpClient.step at hstep
        simp only at hstep
        split at hstep <;> cases hstep
        rfl
      subst hsame
      exact ih hrest h hrun₁

/-- **The path of a request.** Whatever a connection sends, up to the size of a request, the path
can be copied at every point where headers are complete exactly when, at each such point that
the parser comes to, the latest path is at least `PATH_MAX` long or shorter than the buffer, and
is that of the latest URL or lies in the request by chance. -/
theorem request_path_iff {request : List UInt8} (hmax : request.length ≤ HTTPD_MAX_REQUEST)
    {callbacks : List HttpCallback}
    (hcalls : ∀ pos len, .url pos len ∈ callbacks → pos + len ≤ request.length) :
    RequestPathsSafe request callbacks ↔
      ∀ pre post, callbacks = pre ++ .headersComplete :: post →
        (after (HttpClient.step request) .new pre).isSome → PathFits request pre := by
  -- what the callbacks have left in the client is the latest path and the latest URL
  have hfits : ∀ pre post client, callbacks = pre ++ .headersComplete :: post →
      after (HttpClient.step request) .new pre = some client →
        (CopyFits request client ↔ PathFits request pre) := by
    intro pre post client hsplit hrun
    have hpre : ∀ pos len, .url pos len ∈ pre → pos + len ≤ request.length :=
      fun pos len hmem => hcalls pos len (hsplit ▸ List.mem_append_left _ hmem)
    obtain ⟨hbuf, hpair, hinside⟩ := hasPath_after hmax hpre (hasPath_new request) hrun
    unfold CopyFits PathFits
    generalize latestPath request (false, 0, 0) pre = last at hpair hinside ⊢
    obtain ⟨own, off, len⟩ := last
    obtain ⟨hoff, hlen⟩ := Prod.mk.inj hpair
    simp only at hinside ⊢
    have hbuf : client.headerBuf = latestUrl none pre := hbuf
    rw [hoff, hlen, ← hbuf]
    refine or_congr_right (and_congr_right fun _ => ?_)
    exact ⟨Or.inr, fun h => h.elim hinside id⟩
  constructor
  · intro hsafe pre post hsplit hsome
    obtain ⟨client, hrun⟩ := Option.isSome_iff_exists.mp hsome
    exact (hfits pre post client hsplit hrun).mp (hsafe pre post client hsplit hrun)
  · intro hcond pre post client hsplit hrun
    exact (hfits pre post client hsplit hrun).mpr (hcond pre post hsplit (by rw [hrun]; rfl))

/-- A request for the root directory. -/
theorem request_path_iff_root :
    RequestPathsSafe (bytes "GET / HTTP/1.1\r\n\r\n") [.url 4 1, .headersComplete] ↔
      ∀ pre post, [.url 4 1, .headersComplete] = pre ++ .headersComplete :: post →
        (after (HttpClient.step (bytes "GET / HTTP/1.1\r\n\r\n")) .new pre).isSome →
          PathFits (bytes "GET / HTTP/1.1\r\n\r\n") pre :=
  request_path_iff (by decide) fun pos len hmem => by
    obtain ⟨rfl, rfl⟩ : pos = 4 ∧ len = 1 := by simpa using hmem
    decide

/-- A request for a path of `n` letters behind the slash. -/
def longRequest (n : Nat) : List UInt8 :=
  bytes "GET " ++ (0x2f :: List.replicate n 0x61 ++ bytes " HTTP/1.1\r\n\r\n")

theorem length_longRequest (n : Nat) : (longRequest n).length = n + 18 := by
  simp [longRequest, bytes]

theorem after_longRequest {n : Nat} (hn : n + 1 < 2 ^ 16) :
    ∃ client, after (HttpClient.step (longRequest n)) .new [.url 4 (n + 1)] = some client ∧
      client.path.len.toNat = n + 1 := by
  have hchar : ∀ c ∈ List.replicate n (0x61 : UInt8), parseUrlChar .path c = .path := by
    intro c hc
    rw [List.eq_of_mem_replicate hc]
    decide
  obtain ⟨url, hparse⟩ := exists_parseUrl_path hchar (bytes " HTTP/1.1\r\n\r\n") httpUrlInit
  rw [List.length_replicate] at hparse
  have hstep : handleClientUrl (longRequest n) 4 (n + 1) .new = some ⟨some 4, url⟩ :=
    Option.map_eq_some_iff.mpr ⟨url, hparse, rfl⟩
  refine ⟨⟨some 4, url⟩, ?_, ?_⟩
  · rw [after, HttpClient.step, hstep]
    rfl
  · have hin : inPath 0x61 = true := by decide
    have hslash : inPath 0x2f = true := by decide
    have hpair := fieldData_path hn hparse
    have hurl : urlPath ((0x2f :: List.replicate n 0x61 ++ bytes " HTTP/1.1\r\n\r\n").take
        (n + 1)) = some (0, n + 1) := by
      simp [urlPath, hslash, hin]
    rw [hurl] at hpair
    exact congrArg Prod.snd hpair

/-- A path of 1024 characters. -/
theorem not_request_path :
    (longRequest 1023).length ≤ HTTPD_MAX_REQUEST ∧ 4 + 1024 ≤ (longRequest 1023).length ∧
      ¬ RequestPathsSafe (longRequest 1023) [.url 4 1024, .headersComplete] := by
  rw [length_longRequest]
  refine ⟨by decide, by decide, fun h => ?_⟩
  obtain ⟨client, hrun, hlen⟩ := after_longRequest (n := 1023) (by decide)
  have hfits := h [.url 4 1024] [] client rfl hrun
  unfold CopyFits at hfits
  rw [hlen] at hfits
  obtain hmax | ⟨hfit, -⟩ := hfits
  · exact absurd hmax (by decide)
  · exact absurd hfit (by decide)

end Dmrlib
