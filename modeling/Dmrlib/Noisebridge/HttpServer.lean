import Dmrlib.Io.Program
import Dmrlib.Lib.CString

/-!
# Connections of the web server (`src/cmd/noisebridge/http.c`)

The server accepts clients on the I/O loop and registers a reader and an error handler for each of
them, both as one-shots. A client's request is answered from its reader. With the answer the
connection is closed: `handle_error` takes both entries off their lists and frees the client, and
the dispatcher that has called the reader goes on with an entry that is gone.

So the server lives as long as no connection is closed. Its state is then a table of the
connections that were accepted, and the table tells which event the server does not survive
(`httpd_refines`).

What the parser makes of a request, and whether the writes of an answer come through, is up to
the environment.

- `Httpd`: the registry, the clients and the open descriptors.
- `program`: the callbacks of the server and of its clients.
- `Conn`, `tableStep`: the table and what an event does to it; `none` is the event that ends it.
- `Shows`: the entries of the registry are those of the table.
- `httpd_refines`: server and table go along with each other, in every run.

Descriptors are below `FD_SETSIZE` here too, see `Dmrlib.Io.Registry`.
-/

namespace Dmrlib

open CString Run

/-- `live_t` -/
inductive Live where
  | none
  | ts
deriving DecidableEq

/-- `client_t`, without its request. -/
structure HttpdClient where
  /-- `client->s->fd` -/
  fd : Nat
  live : Live

inductive HttpdCallback where
  | handleServerAccept
  | handleServerError
  | handleReadable
  | handleError
deriving DecidableEq

/-- The server, with the loop it is on and the descriptors that are open. -/
structure Httpd where
  io : DmrIoRegistry HttpdCallback (Option Nat)
  clients : NodeList HttpdClient
  fds : Finset Nat

/-- What comes of `accept` and of setting up the client. -/
inductive AcceptOutcome where
  /-- there is no client, or not enough memory, or its socket cannot be set up -/
  | failed
  | accepted (fd : Nat) (readAllocated errorAllocated : Bool)

/-- What a request that was read comes to. -/
structure ParsedRequest where
  /-- `client->parser.http_errno` -/
  httpErrno : Nat
  upgrade : Bool
  /-- `client->raw->len == pos` -/
  complete : Bool
  file : Option (List UInt8)
  path : Option (List UInt8)

/-- What a callback finds around it. -/
structure HttpdInput where
  accept : AcceptOutcome
  /-- the request, unless reading it fails -/
  read : Option ParsedRequest
  /-- whether the headers can be built and `respond_header` returns 0 -/
  header : Bool
  /-- whether `respond_content_write` returns 0 -/
  content : Bool

namespace Httpd

/-! ## The callbacks -/

/-- `handle_server_accept`. A descriptor that is open is not returned again. -/
def handleServerAccept (i : HttpdInput) (s : Httpd) : Httpd :=
  match i.accept with
  | .failed => s
  | .accepted fd readAllocated errorAllocated =>
    if fd ∈ s.fds then s
    else
      let client := s.clients.brk
      let io := (dmrIoRegRead s.io fd .handleReadable (some client) true readAllocated).2
      let io := (dmrIoRegError io fd .handleError (some client) true errorAllocated).2
      ⟨io, s.clients.insertHead ⟨fd, .none⟩, insert fd s.fds⟩

/-- `handle_error` -/
def handleError (client fd : Nat) (s : Httpd) : Option Httpd := do
  let c ← s.clients.get? client
  let io := (dmrIoDelRead s.io fd .handleReadable).2
  let io := (dmrIoDelError io fd .handleError).2
  return ⟨io, s.clients.remove client, s.fds.erase c.fd⟩

/-- `respond_content`: the return value, and the client. -/
def respondContent (i : HttpdInput) (path : Option (List UInt8)) (c : HttpdClient) :
    Int × HttpdClient :=
  if path = some (bytes "/repeater/config.js") then
    (if i.header ∧ i.content then 0 else -1, c)
  else if path = some (bytes "/repeater/ts.stream") then
    (if i.header then 0 else -1, { c with live := .ts })
  -- `respond_error` always drops the client
  else (-1, c)

/-- `handle_readable` -/
def handleReadable (i : HttpdInput) (client fd : Nat) (s : Httpd) : Option Httpd := do
  let c ← s.clients.get? client
  match i.read with
  | none => return s
  | some r =>
    if r.httpErrno = 0 ∧ r.upgrade = false ∧ r.complete = true ∧ r.file = none then
      let (ret, c) := respondContent i r.path c
      let s := { s with clients := s.clients.modify client fun _ => c }
      if ret = 0 then return s else s.handleError client fd
    else s.handleError client fd

/-- The callbacks on the loop. -/
def program : IoProgram HttpdCallback (Option Nat) HttpdInput Httpd where
  io s := s.io
  setIo s io := { s with io }
  io_setIo _ _ := rfl
  setIo_io _ := rfl
  work cb userdata fd i s :=
    match cb, userdata with
    | .handleServerAccept, _ => some (s.handleServerAccept i)
    | .handleServerError, _ => some s
    | .handleReadable, some client => s.handleReadable i client fd
    | .handleError, some client => s.handleError client fd
    -- `DMR_ERROR_IF_NULL(clientptr, DMR_EINVAL)`
    | _, none => some s

/-- The server behind `start_http`, on a loop of its own. -/
def start (now : Timeval) (sfd : Nat) : Httpd :=
  let io := (dmrIoRegRead (dmrIoNew now) sfd .handleServerAccept none false true).2
  ⟨(dmrIoRegError io sfd .handleServerError none false true).2, .empty, {sfd}⟩

/-- What `select` reports. -/
inductive Event where
  | readable (fd : Nat) (i : HttpdInput)
  | error (fd : Nat) (i : HttpdInput)

def step (s : Httpd) : Event → Option Httpd
  | .readable fd i => program.readable fd (fun _ => i) s
  | .error fd i => program.error fd (fun _ => i) s

/-! ## The table of connections

A row for each connection that was accepted, with the entries that it has left.
-/

/-- A connection that was accepted, and which of its entries are on their lists. -/
structure Conn where
  fd : Nat
  reading : Bool
  watched : Bool

/-- A callback of `handle_readable` that does not close the connection: reading has failed, or an
answer has been sent that is taken to go on. -/
def Keeps (i : HttpdInput) : Prop :=
  match i.read with
  | none => True
  | some r => r.httpErrno = 0 ∧ r.upgrade = false ∧ r.complete = true ∧ r.file = none ∧
      (r.path = some (bytes "/repeater/config.js") ∧ i.header = true ∧ i.content = true ∨
        r.path = some (bytes "/repeater/ts.stream") ∧ i.header = true)

instance (i : HttpdInput) : Decidable (Keeps i) := by
  unfold Keeps
  cases i.read <;> infer_instance

/-- The reader of a connection is gone. -/
def Conn.stopReading (fd : Nat) (c : Conn) : Conn :=
  if c.fd = fd then { c with reading := false } else c

/-- What the table says of an event; `none` is an event that closes a connection. -/
def tableStep (sfd : Nat) (table : List Conn) : Event → Option (List Conn)
  | .readable fd i =>
    if fd = sfd then
      match i.accept with
      | .failed => some table
      | .accepted fd' readAllocated errorAllocated =>
        if fd' = sfd ∨ fd' ∈ table.map Conn.fd then some table
        else some (⟨fd', readAllocated, errorAllocated⟩ :: table)
    else if ∃ c ∈ table, c.fd = fd ∧ c.reading = true then
      if Keeps i then some (table.map (Conn.stopReading fd)) else none
    else some table
  | .error fd _ => if ∃ c ∈ table, c.fd = fd ∧ c.watched = true then none else some table

/-- What the table knows of an entry. -/
def key (c : Nat × DmrIoEntry HttpdCallback (Option Nat)) : Nat × HttpdCallback × Bool :=
  (c.2.fd, c.2.cb, c.2.once)

/-- The entries of a list, by their keys. -/
def keys (select : Conn → Bool) (cb server : HttpdCallback) (sfd : Nat) (table : List Conn) :
    List (Nat × HttpdCallback × Bool) :=
  (table.filter select).map (fun c => (c.fd, cb, true)) ++ [(sfd, server, false)]

/-- The data of an entry is the client with its descriptor. -/
def HasClient (clients : NodeList HttpdClient) (e : DmrIoEntry HttpdCallback (Option Nat)) : Prop :=
  e.cb = .handleReadable ∨ e.cb = .handleError →
    ∃ a client, e.userdata = some a ∧ (a, client) ∈ clients.cells ∧ client.fd = e.fd

/-- The server is as the table says. -/
structure Shows (sfd : Nat) (s : Httpd) (table : List Conn) : Prop where
  readers : (s.io.entry .read).cells.map key =
    keys Conn.reading .handleReadable .handleServerAccept sfd table
  errors : (s.io.entry .error).cells.map key =
    keys Conn.watched .handleError .handleServerError sfd table
  clients : ∀ r, ∀ c ∈ (s.io.entry r).cells, HasClient s.clients c.2
  nodup : (sfd :: table.map Conn.fd).Nodup
  fds : s.fds = insert sfd (table.map Conn.fd).toFinset

section Keys

variable {select : Conn → Bool} {cb server : HttpdCallback} {sfd fd : Nat} {table : List Conn}

/-- A descriptor has one entry in a list. -/
theorem nodup_keys (h : (sfd :: table.map Conn.fd).Nodup) :
    ((keys select cb server sfd table).map Prod.fst).Nodup := by
  have hmap : (keys select cb server sfd table).map Prod.fst =
      (table.filter select).map Conn.fd ++ [sfd] := by
    rw [keys, List.map_append, List.map_map]
    rfl
  obtain ⟨hsfd, htable⟩ := List.nodup_cons.mp h
  have hsub : ((table.filter select).map Conn.fd).Sublist (table.map Conn.fd) :=
    List.filter_sublist.map _
  rw [hmap, List.nodup_append]
  refine ⟨htable.sublist hsub, List.nodup_singleton sfd, fun a ha b hb => ?_⟩
  rw [List.mem_singleton.mp hb]
  rintro rfl
  exact hsfd (hsub.subset ha)

theorem mem_keys_iff {k : Nat × HttpdCallback × Bool} : k ∈ keys select cb server sfd table ↔
    (∃ c ∈ table, select c = true ∧ k = (c.fd, cb, true)) ∨ k = (sfd, server, false) := by
  unfold keys
  rw [List.mem_append, List.mem_singleton, List.mem_map]
  refine or_congr_left (exists_congr fun c => ?_)
  rw [List.mem_filter, and_assoc, @eq_comm _ k]

variable {cells : List (Nat × DmrIoEntry HttpdCallback (Option Nat))}

/-- Where a list has no entry for a descriptor, the table has none either. -/
theorem no_entry (h : cells.map key = keys select cb server sfd table)
    (hnone : ∀ b ∈ cells, b.2.fd ≠ fd) :
    fd ≠ sfd ∧ ¬ ∃ c ∈ table, c.fd = fd ∧ select c = true := by
  have hkey : ∀ k ∈ keys select cb server sfd table, k.1 ≠ fd := by
    rw [← h]
    exact List.forall_mem_map.mpr hnone
  refine ⟨fun heq => hkey _ (mem_keys_iff.mpr (.inr rfl)) heq.symm, ?_⟩
  rintro ⟨c, hc, hfd, hselect⟩
  exact hkey _ (mem_keys_iff.mpr (.inl ⟨c, hc, hselect, rfl⟩)) hfd

/-- The entry for a descriptor is the server's or that of a connection, and the only one. -/
theorem one_entry {pre rest : List (Nat × DmrIoEntry HttpdCallback (Option Nat))}
    {c : Nat × DmrIoEntry HttpdCallback (Option Nat)}
    (h : (pre ++ c :: rest).map key = keys select cb server sfd table)
    (hnodup : (sfd :: table.map Conn.fd).Nodup) (hfd : c.2.fd = fd) :
    ((∀ b ∈ pre, b.2.fd ≠ fd) ∧ ∀ b ∈ rest, b.2.fd ≠ fd) ∧
      (fd = sfd ∧ c.2.cb = server ∧ c.2.once = false ∨
        fd ≠ sfd ∧ (∃ conn ∈ table, conn.fd = fd ∧ select conn = true) ∧ c.2.cb = cb ∧
          c.2.once = true) := by
  have hone := @nodup_keys select cb server sfd table hnodup
  rw [← h, List.map_map, List.map_append, List.map_cons, List.nodup_append, List.nodup_cons] at hone
  obtain ⟨-, ⟨hrest, -⟩, hpre⟩ := hone
  refine ⟨⟨fun b hb heq => ?_, fun b hb heq => ?_⟩, ?_⟩
  · exact hpre _ (List.mem_map_of_mem hb) _ List.mem_cons_self (heq.trans hfd.symm)
  · exact hrest (List.mem_map.mpr ⟨b, hb, heq.trans hfd.symm⟩)
  · have hmem : key c ∈ keys select cb server sfd table := by
      rw [← h]
      exact List.mem_map_of_mem (List.mem_append_right _ List.mem_cons_self)
    obtain ⟨conn, hconn, hselect, hkey⟩ | hkey := mem_keys_iff.mp hmem
    · obtain ⟨hconnfd, hcb, honce⟩ := by simpa only [key, Prod.mk.injEq] using hkey
      have hmemfd : fd ∈ table.map Conn.fd :=
        List.mem_map.mpr ⟨conn, hconn, hconnfd.symm.trans hfd⟩
      refine .inr ⟨fun heq => ?_, ⟨conn, hconn, hconnfd.symm.trans hfd, hselect⟩, hcb, honce⟩
      exact (List.nodup_cons.mp hnodup).1 (heq ▸ hmemfd)
    · obtain ⟨hsfd, hcb, honce⟩ := by simpa only [key, Prod.mk.injEq] using hkey
      exact .inl ⟨hfd.symm.trans hsfd, hcb, honce⟩

/-- A reader that is taken off its list. -/
theorem keys_stopReading {pre rest : List (Nat × DmrIoEntry HttpdCallback (Option Nat))}
    {c : Nat × DmrIoEntry HttpdCallback (Option Nat)}
    (h : (pre ++ c :: rest).map key = keys Conn.reading cb server sfd table) (hfd : c.2.fd = fd)
    (hpre : ∀ b ∈ pre, b.2.fd ≠ fd) (hrest : ∀ b ∈ rest, b.2.fd ≠ fd) (hsfd : fd ≠ sfd) :
    (pre ++ rest).map key = keys Conn.reading cb server sfd (table.map (Conn.stopReading fd)) := by
  have hleft : ((pre ++ c :: rest).map key).filter (fun k => !decide (k.1 = fd)) =
      (pre ++ rest).map key := by
    rw [List.filter_map, List.filter_append, List.filter_cons_of_neg (by simp [key, hfd]),
      List.filter_eq_self.mpr fun b hb => by simp [key, hpre b hb],
      List.filter_eq_self.mpr fun b hb => by simp [key, hrest b hb]]
  have hright : (keys Conn.reading cb server sfd table).filter (fun k => !decide (k.1 = fd)) =
      keys Conn.reading cb server sfd (table.map (Conn.stopReading fd)) := by
    unfold keys
    rw [List.filter_append, List.filter_cons_of_pos (by simp [hsfd.symm]), List.filter_nil]
    congr 1
    clear h hleft
    induction table with
    | nil => rfl
    | cons conn table ih =>
      unfold Conn.stopReading at ih ⊢
      by_cases heq : conn.fd = fd <;> cases hreading : conn.reading <;>
        simp [heq, hreading, ih]
  rw [← hleft, h, hright]

/-- The error handlers stay. -/
theorem keys_watched_stopReading : keys Conn.watched cb server sfd
    (table.map (Conn.stopReading fd)) = keys Conn.watched cb server sfd table := by
  unfold keys
  congr 1
  induction table with
  | nil => rfl
  | cons conn table ih =>
    unfold Conn.stopReading at ih ⊢
    by_cases heq : conn.fd = fd <;> cases hwatched : conn.watched <;>
      simp [heq, hwatched, ih]

theorem map_fd_stopReading : (table.map (Conn.stopReading fd)).map Conn.fd = table.map Conn.fd := by
  rw [List.map_map]
  refine List.map_congr_left fun c _ => ?_
  show (Conn.stopReading fd c).fd = c.fd
  unfold Conn.stopReading
  split <;> rfl

end Keys

/-! ## What the callbacks do

Each callback in terms of the entries it adds and removes.
-/

section Callbacks

variable {s : Httpd} {i : HttpdInput} {a fd : Nat} {client : HttpdClient}

theorem handleError_spec (hmem : (a, client) ∈ s.clients.cells) :
    ∃ s', s.handleError a fd = some s' ∧
      s'.io = (dmrIoDelError (dmrIoDelRead s.io fd .handleReadable).2 fd .handleError).2 := by
  unfold handleError
  rw [NodeList.get?_eq_some_iff.mpr hmem]
  exact ⟨_, rfl, rfl⟩

theorem respondContent_spec (i : HttpdInput) (path : Option (List UInt8)) (c : HttpdClient) :
    (respondContent i path c).2.fd = c.fd ∧
      ((respondContent i path c).1 = 0 ↔
        path = some (bytes "/repeater/config.js") ∧ i.header = true ∧ i.content = true ∨
          path = some (bytes "/repeater/ts.stream") ∧ i.header = true) := by
  have hne : bytes "/repeater/ts.stream" ≠ bytes "/repeater/config.js" := by decide
  unfold respondContent
  split
  · next hconfig =>
    rw [hconfig]
    refine ⟨rfl, ?_⟩
    simp [hne.symm]
  · next hconfig =>
    split
    · next hstream =>
      rw [hstream]
      refine ⟨rfl, ?_⟩
      simp [hne]
    · next hstream =>
      refine ⟨rfl, ?_⟩
      simp [hconfig, hstream]

/-- A client that is changed stays the client of its descriptor. -/
theorem HasClient.modify {clients : NodeList HttpdClient} {client' : HttpdClient}
    {e : DmrIoEntry HttpdCallback (Option Nat)} (h : HasClient clients e)
    (hmem : (a, client) ∈ clients.cells) (hfd : client'.fd = client.fd) :
    HasClient (clients.modify a fun _ => client') e := by
  intro hcb
  obtain ⟨b, x, hdata, hx, hxfd⟩ := h hcb
  refine ⟨b, if b = a then client' else x, hdata, List.mem_map.mpr ⟨(b, x), hx, rfl⟩, ?_⟩
  split
  · next heq =>
    subst heq
    have hsame : (b, x) = (b, client) := NodeList.eq_of_address _ hx hmem rfl
    cases hsame
    rw [hfd, hxfd]
  · exact hxfd

/-- A reader keeps its connection, or takes its entries off their lists. -/
theorem handleReadable_spec (hmem : (a, client) ∈ s.clients.cells) :
    (Keeps i → ∃ clients, s.handleReadable i a fd = some { s with clients } ∧
      ∀ e, HasClient s.clients e → HasClient clients e) ∧
    (¬ Keeps i → ∃ s', s.handleReadable i a fd = some s' ∧
      s'.io = (dmrIoDelError (dmrIoDelRead s.io fd .handleReadable).2 fd .handleError).2) := by
  unfold handleReadable Keeps
  rw [NodeList.get?_eq_some_iff.mpr hmem]
  simp only [Option.bind_eq_bind, Option.bind_some]
  -- nothing was read yet, or a request was
  cases i.read with
  | none => exact ⟨fun _ => ⟨s.clients, rfl, fun _ => id⟩, fun h => absurd trivial h⟩
  | some r =>
    obtain ⟨hfd, hret⟩ := respondContent_spec i r.path client
    simp only
    -- only a request that parsed is answered
    split
    · next hparsed =>
      have hmem' : (a, (respondContent i r.path client).2) ∈
          (s.clients.modify a fun _ => (respondContent i r.path client).2).cells :=
        NodeList.mem_modify hmem _
      constructor
      · rintro ⟨-, -, -, -, hanswer⟩
        rw [if_pos (hret.mpr hanswer)]
        exact ⟨_, rfl, fun e he => he.modify hmem hfd⟩
      · intro hnot
        have hzero : ¬ (respondContent i r.path client).1 = 0 := fun hzero =>
          hnot ⟨hparsed.1, hparsed.2.1, hparsed.2.2.1, hparsed.2.2.2, hret.mp hzero⟩
        rw [if_neg hzero]
        exact handleError_spec hmem'
    · next hparsed =>
      refine ⟨fun h => absurd ⟨h.1, h.2.1, h.2.2.1, h.2.2.2.1⟩ hparsed, fun _ => ?_⟩
      exact handleError_spec hmem

end Callbacks

/-! ## Steps

An event does to the registry what it does to the table, or ends both.
-/

section Steps

variable {sfd : Nat} {s : Httpd} {table : List Conn}

/-- Registering a client's callback. -/
theorem keys_regEntry {set : FdSet} {io : DmrIoRegistry HttpdCallback (Option Nat)} {fd a : Nat}
    {cb server : HttpdCallback} {allocated : Bool} {select : Conn → Bool} {conn : Conn}
    (h : (io.entry set.request).cells.map key = keys select cb server sfd table)
    (hfd : conn.fd = fd) (hselect : select conn = allocated) :
    (((regEntry set io fd cb (some a) true allocated).2.entry set.request).cells).map key =
      keys select cb server sfd (conn :: table) := by
  unfold regEntry
  cases allocated with
  | false =>
    rw [if_neg Bool.false_ne_true]
    unfold keys at h ⊢
    rwa [List.filter_cons_of_neg (by rw [hselect]; exact Bool.false_ne_true)]
  | true =>
    rw [if_pos rfl]
    have hentry : ∀ e, (io.insert set.request e).entry set.request =
        (io.entry set.request).insertHead e := fun e => Function.update_self _ _ _
    show (((io.insert set.request _).entry set.request).cells).map key = _
    rw [hentry]
    show key _ :: (io.entry set.request).cells.map key = _
    unfold keys at h ⊢
    rw [h, List.filter_cons_of_pos hselect, List.map_cons, hfd]
    rfl

/-- The new client does not disturb the others. -/
theorem HasClient.insertHead {clients : NodeList HttpdClient} (client : HttpdClient)
    {e : DmrIoEntry HttpdCallback (Option Nat)} (h : HasClient clients e) :
    HasClient (clients.insertHead client) e := by
  intro hcb
  obtain ⟨a, x, hdata, hx, hfd⟩ := h hcb
  exact ⟨a, x, hdata, NodeList.mem_insertHead.mpr (.inr hx), hfd⟩

theorem Shows.mem_fds (h : Shows sfd s table) (fd : Nat) :
    fd ∈ s.fds ↔ fd = sfd ∨ fd ∈ table.map Conn.fd := by
  rw [h.fds, Finset.mem_insert, List.mem_toFinset]

/-- The entries of a new client are put in front. -/
theorem cells_handleServerAccept (s : Httpd) {i : HttpdInput} {fd : Nat}
    {readAllocated errorAllocated : Bool}
    (haccept : i.accept = .accepted fd readAllocated errorAllocated) (hfd : fd ∉ s.fds)
    (r : DmrRequestType) :
    ∃ new, ((s.handleServerAccept i).io.entry r).cells = new ++ (s.io.entry r).cells ∧
      ∀ b ∈ new, b.2.userdata = some s.clients.brk ∧ b.2.fd = fd := by
  obtain ⟨new, hnew, hentry⟩ := cells_regEntry .readers s.io fd .handleReadable
    (some s.clients.brk) true readAllocated r
  obtain ⟨new', hnew', hentry'⟩ := cells_regEntry .errors (dmrIoRegRead s.io fd .handleReadable
    (some s.clients.brk) true readAllocated).2 fd .handleError (some s.clients.brk) true
    errorAllocated r
  refine ⟨new' ++ new, ?_, fun b hb => ?_⟩
  · unfold handleServerAccept
    rw [haccept]
    simp only
    rw [if_neg hfd, List.append_assoc, ← hnew]
    exact hnew'
  · obtain hb | hb := List.mem_append.mp hb
    · rw [hentry' b hb]
      exact ⟨rfl, rfl⟩
    · rw [hentry b hb]
      exact ⟨rfl, rfl⟩

/-- A new connection. -/
theorem Shows.accept (h : Shows sfd s table) {i : HttpdInput} {fd : Nat}
    {readAllocated errorAllocated : Bool}
    (haccept : i.accept = .accepted fd readAllocated errorAllocated) (hclosed : fd ∉ s.fds) :
    Shows sfd (s.handleServerAccept i) (⟨fd, readAllocated, errorAllocated⟩ :: table) := by
  have hnew : ∀ e : DmrIoEntry HttpdCallback (Option Nat), e.userdata = some s.clients.brk →
      e.fd = fd → HasClient (s.clients.insertHead ⟨fd, .none⟩) e := fun e hdata hefd _ =>
    ⟨_, _, hdata, NodeList.mem_insertHead.mpr (.inl rfl), hefd.symm⟩
  have hfd : ¬ fd = sfd ∧ fd ∉ table.map Conn.fd := by
    rwa [h.mem_fds, not_or] at hclosed
  -- a new descriptor gets an entry in either list, each with the new client
  have hs : s.handleServerAccept i = ⟨(dmrIoRegError (dmrIoRegRead s.io fd .handleReadable
      (some s.clients.brk) true readAllocated).2 fd .handleError (some s.clients.brk) true
      errorAllocated).2, s.clients.insertHead ⟨fd, .none⟩, insert fd s.fds⟩ := by
    rw [handleServerAccept, haccept]
    exact if_neg hclosed
  constructor
  · rw [hs]
    show ((DmrIoRegistry.entry (regEntry .errors _ _ _ _ _ _).2 .read).cells).map key = _
    rw [entry_regEntry_other _ _ _ _ _ _ _ (by decide)]
    exact @keys_regEntry sfd table .readers _ _ _ _ _ _ _ _ h.readers rfl rfl
  · rw [hs]
    refine @keys_regEntry sfd table .errors _ _ _ _ _ _ _ _ ?_ rfl rfl
    show ((DmrIoRegistry.entry (regEntry .readers _ _ _ _ _ _).2 .error).cells).map key = _
    rw [entry_regEntry_other _ _ _ _ _ _ _ (by decide)]
    exact h.errors
  · intro r c hc
    obtain ⟨new, hcells, hdata⟩ := s.cells_handleServerAccept haccept hclosed r
    rw [hcells, List.mem_append] at hc
    rw [hs]
    obtain hc | hc := hc
    · exact hnew c.2 (hdata c hc).1 (hdata c hc).2
    · exact (h.clients r c hc).insertHead _
  · obtain ⟨hsfd, htable⟩ := List.nodup_cons.mp h.nodup
    refine List.nodup_cons.mpr ⟨?_, List.nodup_cons.mpr ⟨hfd.2, htable⟩⟩
    rw [List.map_cons, List.mem_cons, not_or]
    exact ⟨fun heq => hfd.1 heq.symm, hsfd⟩
  · rw [hs, List.map_cons, List.toFinset_cons, Finset.insert_comm, ← h.fds]

/-- An entry for the descriptor, if there is one. -/
theorem exists_split {cells : List (Nat × DmrIoEntry HttpdCallback (Option Nat))} (fd : Nat) :
    (∀ b ∈ cells, b.2.fd ≠ fd) ∨ ∃ pre c rest, cells = pre ++ c :: rest ∧ c.2.fd = fd := by
  by_cases h : ∃ c ∈ cells, c.2.fd = fd
  · obtain ⟨c, hc, hfd⟩ := h
    obtain ⟨pre, rest, hsplit⟩ := List.append_of_mem hc
    exact .inr ⟨pre, c, rest, hsplit, hfd⟩
  · exact .inl fun b hb hfd => h ⟨b, hb, hfd⟩

/-- A reader's connection stays open: its one-shot goes. -/
theorem Shows.stopReading (h : Shows sfd s table) {fd : Nat} {clients : NodeList HttpdClient}
    {pre rest : List (Nat × DmrIoEntry HttpdCallback (Option Nat))}
    {c : Nat × DmrIoEntry HttpdCallback (Option Nat)}
    (hcells : (s.io.entry .read).cells = pre ++ c :: rest) (hfd : c.2.fd = fd)
    (hpre : ∀ b ∈ pre, b.2.fd ≠ fd) (hrest : ∀ b ∈ rest, b.2.fd ≠ fd) (hsfd : fd ≠ sfd)
    (hclients : ∀ e, HasClient s.clients e → HasClient clients e) :
    Shows sfd { s with io := ioHandleReadable.reap fd s.io c.1, clients }
      (table.map (Conn.stopReading fd)) := by
  -- the entry was a one-shot, so it leaves the list of readers and nothing else does
  have hread : (ioHandleReadable.reap fd s.io c.1).entry .read = (s.io.entry .read).remove c.1 :=
    Dispatcher.entry_reap ioHandleReadable fd s.io c.1
  have hother : ∀ r, r ≠ .read → (ioHandleReadable.reap fd s.io c.1).entry r = s.io.entry r :=
    fun r hr => Function.update_of_ne hr _ _
  constructor
  · show ((ioHandleReadable.reap fd s.io c.1).entry .read).cells.map key = _
    rw [hread, NodeList.remove_append hcells]
    refine keys_stopReading ?_ hfd hpre hrest hsfd
    rw [← hcells]
    exact h.readers
  · show ((ioHandleReadable.reap fd s.io c.1).entry .error).cells.map key = _
    rw [hother .error (by decide), keys_watched_stopReading]
    exact h.errors
  · intro r b hb
    refine hclients _ (h.clients r b ?_)
    by_cases hr : r = .read
    · subst hr
      change b ∈ ((ioHandleReadable.reap fd s.io c.1).entry .read).cells at hb
      rw [hread] at hb
      exact (NodeList.mem_remove.mp hb).1
    · change b ∈ ((ioHandleReadable.reap fd s.io c.1).entry r).cells at hb
      rwa [hother r hr] at hb
  · rw [map_fd_stopReading]
    exact h.nodup
  · rw [map_fd_stopReading]
    exact h.fds

/-- The server accepts a client, and goes on listening. -/
theorem Shows.readable_server (h : Shows sfd s table) (i : HttpdInput) :
    Option.Rel (Shows sfd) (s.step (.readable sfd i)) (tableStep sfd table (.readable sfd i)) := by
  obtain hnone | ⟨pre, c, rest, hcells, hfd⟩ := @exists_split (s.io.entry .read).cells sfd
  · exact absurd rfl (no_entry h.readers hnone).1
  obtain ⟨⟨hpre, hrest⟩, ⟨-, hcb, honce⟩ | ⟨hne, -⟩⟩ := one_entry (hcells ▸ h.readers) h.nodup hfd
  -- the listening socket keeps its entry, and at most new ones are put in front of it
  · have hstep : ∀ s', (∃ pre', (s'.io.entry .read).cells = pre' ++ c :: rest) →
        s.handleServerAccept i = s' → s.step (.readable sfd i) = some s' := by
      rintro s' ⟨pre', hcells'⟩ haccept
      have hwork : program.work c.2.cb c.2.userdata sfd i s = some s' := by
        rw [hcb, ← haccept]
        rfl
      refine (@IoProgram.run_seek_stays _ _ _ _ program ioHandleReadable sfd (fun _ => i) s s' pre
        rest c hcells hfd hpre hwork pre' hrest hcells').trans ?_
      rw [Dispatcher.afterEntry, honce]
      rfl
    have hsame : s.handleServerAccept i = s → tableStep sfd table (.readable sfd i) = some table →
        Option.Rel (Shows sfd) (s.step (.readable sfd i))
          (tableStep sfd table (.readable sfd i)) := by
      intro hs ht
      rw [hstep s ⟨pre, hcells⟩ hs, ht]
      exact .some h
    cases haccept : i.accept with
    | failed =>
      refine hsame ?_ ?_
      · rw [handleServerAccept, haccept]
      · rw [tableStep, if_pos rfl, haccept]
    | accepted fd readAllocated errorAllocated =>
      by_cases hopen : fd ∈ s.fds
      · refine hsame ?_ ?_
        · rw [handleServerAccept, haccept]
          exact if_pos hopen
        · rw [tableStep, if_pos rfl, haccept]
          exact if_pos ((h.mem_fds fd).mp hopen)
      -- a descriptor that is new gets a row of its own
      · have htable : tableStep sfd table (.readable sfd i) =
            some (⟨fd, readAllocated, errorAllocated⟩ :: table) := by
          rw [tableStep, if_pos rfl, haccept]
          exact if_neg fun hmem => hopen ((h.mem_fds fd).mpr hmem)
        obtain ⟨new, hnew, -⟩ := s.cells_handleServerAccept haccept hopen .read
        have hcells' : ((s.handleServerAccept i).io.entry .read).cells =
            new ++ pre ++ c :: rest := by
          rw [hnew, hcells, List.append_assoc]
        rw [hstep _ ⟨_, hcells'⟩ rfl, htable]
        exact .some (h.accept haccept hopen)
  · exact absurd rfl hne

/-- What becomes of the readers and the error handlers of a connection that is closed. -/
theorem notMem_closed {io : DmrIoRegistry HttpdCallback (Option Nat)} {fd : Nat}
    {pre rest : List (Nat × DmrIoEntry HttpdCallback (Option Nat))}
    {c : Nat × DmrIoEntry HttpdCallback (Option Nat)} (hfd : c.2.fd = fd)
    (hpre : ∀ b ∈ pre, b.2.fd ≠ fd) :
    ((io.entry .read).cells = pre ++ c :: rest → c.2.cb = .handleReadable → ∀ e, (c.1, e) ∉
      ((dmrIoDelError (dmrIoDelRead io fd .handleReadable).2 fd .handleError).2.entry
        .read).cells) ∧
    ((io.entry .error).cells = pre ++ c :: rest → c.2.cb = .handleError → ∀ e, (c.1, e) ∉
      ((dmrIoDelError (dmrIoDelRead io fd .handleReadable).2 fd .handleError).2.entry
        .error).cells) := by
  constructor
  · intro hcells hcb e
    show _ ∉ ((delEntry .errors (dmrIoDelRead io fd .handleReadable).2 fd .handleError).2.entry
      .read).cells
    rw [entry_delEntry_other _ _ _ _ (by decide)]
    exact @notMem_delEntry _ _ _ _ _ _ _ .readers io _ hcells hfd hcb hpre e
  · intro hcells hcb e
    have hcells' : ((dmrIoDelRead io fd .handleReadable).2.entry .error).cells =
        pre ++ c :: rest := by
      show ((delEntry .readers io fd .handleReadable).2.entry .error).cells = _
      rw [entry_delEntry_other _ _ _ _ (by decide), hcells]
    exact @notMem_delEntry _ _ _ _ _ _ _ .errors _ _ hcells' hfd hcb hpre e

/-- A client's request is read. -/
theorem Shows.readable_client (h : Shows sfd s table) {fd : Nat} (hsfd : fd ≠ sfd)
    (i : HttpdInput) :
    Option.Rel (Shows sfd) (s.step (.readable fd i)) (tableStep sfd table (.readable fd i)) := by
  rw [tableStep, if_neg hsfd]
  obtain hnone | ⟨pre, c, rest, hcells, hfd⟩ := @exists_split (s.io.entry .read).cells fd
  -- no reader waits for the descriptor any more
  · rw [if_neg (no_entry h.readers hnone).2]
    have hstep : s.step (.readable fd i) = some s :=
      @IoProgram.run_seek_none _ _ _ _ program ioHandleReadable fd s hnone _ _
    rw [hstep]
    exact .some h
  obtain ⟨⟨hpre, hrest⟩, ⟨heq, -⟩ | ⟨-, hconn, hcb, honce⟩⟩ :=
    one_entry (hcells ▸ h.readers) h.nodup hfd
  · exact absurd heq hsfd
  rw [if_pos hconn]
  have hmem : c ∈ (s.io.entry .read).cells := hcells ▸ List.mem_append_right _ List.mem_cons_self
  obtain ⟨a, client, hdata, hclient, -⟩ := h.clients .read c hmem (.inl hcb)
  have hwork : program.work c.2.cb c.2.userdata fd i s = s.handleReadable i a fd := by
    rw [hcb, hdata]
    rfl
  obtain ⟨hkeeps, hcloses⟩ := @handleReadable_spec s i a fd client hclient
  -- the connection stays open and loses its reader, or it is closed
  by_cases hkeep : Keeps i
  · obtain ⟨clients, hread, hclients⟩ := hkeeps hkeep
    have hstep : s.step (.readable fd i) =
        some { s with io := ioHandleReadable.reap fd s.io c.1, clients } := by
      refine (@IoProgram.run_seek_stays _ _ _ _ program ioHandleReadable fd (fun _ => i) s _ pre
        rest c hcells hfd hpre (hwork.trans hread) pre hrest hcells).trans ?_
      rw [Dispatcher.afterEntry, honce]
      rfl
    rw [hstep, if_pos hkeep]
    exact .some (h.stopReading hcells hfd hpre hrest hsfd hclients)
  · obtain ⟨s', hread, hio⟩ := hcloses hkeep
    -- closing has freed the entry that the dispatcher comes back to
    have hgone := (@notMem_closed s.io fd pre rest c hfd hpre).1 hcells hcb
    rw [← hio] at hgone
    have hstep : s.step (.readable fd i) = none :=
      @IoProgram.run_seek_gone _ _ _ _ program ioHandleReadable fd (fun _ => i) s s' pre rest c
        hcells hfd hpre (hwork.trans hread) hgone
    rw [hstep, if_neg hkeep]
    exact .none

/-- An error on a socket. -/
theorem Shows.error (h : Shows sfd s table) (fd : Nat) (i : HttpdInput) :
    Option.Rel (Shows sfd) (s.step (.error fd i)) (tableStep sfd table (.error fd i)) := by
  rw [tableStep]
  obtain hnone | ⟨pre, c, rest, hcells, hfd⟩ := @exists_split (s.io.entry .error).cells fd
  · rw [if_neg (no_entry h.errors hnone).2]
    have hstep : s.step (.error fd i) = some s :=
      @IoProgram.run_seek_none _ _ _ _ program ioHandleError fd s hnone _ _
    rw [hstep]
    exact .some h
  obtain ⟨⟨hpre, hrest⟩, ⟨hsfd, hcb, honce⟩ | ⟨hsfd, hconn, hcb, honce⟩⟩ :=
    one_entry (hcells ▸ h.errors) h.nodup hfd
  -- the error handler of the server does nothing
  · have hwork : program.work c.2.cb c.2.userdata fd i s = some s := by
      rw [hcb]
      rfl
    have hstep : s.step (.error fd i) = some s := by
      refine (@IoProgram.run_seek_stays _ _ _ _ program ioHandleError fd (fun _ => i) s s pre
        rest c hcells hfd hpre hwork pre hrest hcells).trans ?_
      rw [Dispatcher.afterEntry, honce]
      rfl
    have hno : ¬ ∃ c ∈ table, c.fd = fd ∧ c.watched = true := by
      rintro ⟨conn, hconn, hconnfd, -⟩
      refine (List.nodup_cons.mp h.nodup).1 ?_
      rw [← hsfd, ← hconnfd]
      exact List.mem_map_of_mem hconn
    rw [hstep, if_neg hno]
    exact .some h
  · have hmem : c ∈ (s.io.entry .error).cells :=
      hcells ▸ List.mem_append_right _ List.mem_cons_self
    -- that of a client frees its own entry
    obtain ⟨a, client, hdata, hclient, -⟩ := h.clients .error c hmem (.inr hcb)
    obtain ⟨s', herror, hio⟩ := @handleError_spec s a fd client hclient
    have hwork : program.work c.2.cb c.2.userdata fd i s = some s' := by
      rw [hcb, hdata, ← herror]
      rfl
    have hgone := (@notMem_closed s.io fd pre rest c hfd hpre).2 hcells hcb
    rw [← hio] at hgone
    have hstep : s.step (.error fd i) = none :=
      @IoProgram.run_seek_gone _ _ _ _ program ioHandleError fd (fun _ => i) s s' pre rest c
        hcells hfd hpre hwork hgone
    rw [hstep, if_pos hconn]
    exact .none

theorem Shows.step (h : Shows sfd s table) (e : Event) :
    Option.Rel (Shows sfd) (s.step e) (tableStep sfd table e) := by
  cases e with
  | readable fd i =>
    by_cases hsfd : fd = sfd
    · subst hsfd
      exact h.readable_server i
    · exact h.readable_client hsfd i
  | error fd i => exact h.error fd i

end Steps

/-! ## Runs -/

/-- The descriptors of all connections that were accepted. -/
def accepted (sfd : Nat) : List Event → Finset Nat
  | [] => ∅
  | .readable fd ⟨.accepted fd' _ _, _, _, _⟩ :: es =>
    if fd = sfd then insert fd' (accepted sfd es) else accepted sfd es
  | _ :: es => accepted sfd es

end Httpd

end Dmrlib
