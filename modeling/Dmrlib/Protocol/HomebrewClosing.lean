import Dmrlib.Io.Dispatch
import Dmrlib.Protocol.HomebrewIo

/-!
# Requests for closing a Homebrew client

The reader and the ping timer ask for their client to be closed by what they return,
and no dispatcher looks at it: the entry of the reader and the timer stay where they
are. Whatever else is registered, the loop comes back to them. `ends` and `reaches` of
a `Sweep` show it for both lists, with callbacks that do as little as they can.

`Typed` holds of every loop: callbacks of clients are registered as
`homebrew_io_register` does it, and only signals interrupt a dispatch.

- `Typed.step`: the invariant is kept by every event.
- `Requests`: a step in which a callback asks for its client to be closed.
- `Honoured`: from then on no callback of that client is called.
- `CalledAgain`: a continuation in which one is.
- `throughout_honoured_iff`: requests are honoured in a run exactly if none is made.
-/

namespace Dmrlib

open Run

namespace HomebrewLoop

/-! ## What is registered

Entries with a callback of clients are persistent and stand on the list that belongs to the
callback, and so do timers.
-/

/-- The entry is one that can be in list `r`. -/
def EntryTyped (r : DmrRequestType) (e : DmrIoEntry HomebrewCallback Nat) : Prop :=
  match e.cb with
  | .pingTimer => False
  | .readable => r = .read ∧ e.once = false
  | .error => r = .error
  | .other _ => True

def TimerTyped (t : DmrIoTimerEntry HomebrewCallback Nat) : Prop :=
  match t.cb with
  | .pingTimer => t.once = false
  | .other _ => True
  | _ => False

structure IoTyped (io : DmrIoRegistry HomebrewCallback Nat) : Prop where
  entry : ∀ r, ∀ c ∈ (io.entry r).cells, EntryTyped r c.2
  timer : ∀ c ∈ io.timer.cells, TimerTyped c.2

def OpTyped : IoOp HomebrewCallback Nat → Prop
  | .regSignal sig cb userdata once _ => EntryTyped .signal ⟨sig, cb, userdata, once⟩
  | .regRead fd cb userdata once _ => EntryTyped .read ⟨fd, cb, userdata, once⟩
  | .regWrite fd cb userdata once _ => EntryTyped .write ⟨fd, cb, userdata, once⟩
  | .regError fd cb userdata once _ => EntryTyped .error ⟨fd, cb, userdata, once⟩
  | .regTimer timeout cb userdata once _ => TimerTyped ⟨⟨timeout, timeout, cb, once⟩, userdata⟩
  | _ => True

variable {io : DmrIoRegistry HomebrewCallback Nat}

theorem IoTyped.insert (h : IoTyped io) {r : DmrRequestType}
    {e : DmrIoEntry HomebrewCallback Nat} (he : EntryTyped r e) : IoTyped (io.insert r e) where
  entry r' c hc := by
    by_cases hr : r' = r
    · subst hr
      simp only [DmrIoRegistry.insert, Function.update_self, NodeList.mem_insertHead] at hc
      rcases hc with rfl | hc
      · exact he
      · exact h.entry r' c hc
    · simp only [DmrIoRegistry.insert, Function.update_of_ne hr] at hc
      exact h.entry r' c hc
  timer := h.timer

theorem IoTyped.unlink (h : IoTyped io) (r : DmrRequestType) (a : Nat) :
    IoTyped (io.unlink r a) where
  entry r' c hc := by
    by_cases hr : r' = r
    · subst hr
      simp only [DmrIoRegistry.unlink, Function.update_self, NodeList.mem_remove] at hc
      exact h.entry r' c hc.1
    · simp only [DmrIoRegistry.unlink, Function.update_of_ne hr] at hc
      exact h.entry r' c hc
  timer := h.timer

theorem IoTyped.unlinkTimer (h : IoTyped io) (a : Nat) : IoTyped (io.unlinkTimer a) where
  entry := h.entry
  timer c hc := h.timer c (NodeList.mem_remove.mp hc).1

theorem IoTyped.regEntry (h : IoTyped io) (s : FdSet) {fd : Nat} {cb : HomebrewCallback}
    {userdata : Nat} {once : Bool} (he : EntryTyped s.request ⟨fd, cb, userdata, once⟩)
    (allocated : Bool) : IoTyped (Dmrlib.regEntry s io fd cb userdata once allocated).2 := by
  unfold Dmrlib.regEntry
  split
  · exact ⟨(h.insert he).entry, h.timer⟩
  · exact h

theorem IoTyped.delEntry (h : IoTyped io) (s : FdSet) (fd : Nat) (cb : HomebrewCallback) :
    IoTyped (Dmrlib.delEntry s io fd cb).2 := by
  unfold Dmrlib.delEntry
  split
  · exact ⟨(h.unlink s.request _).entry, h.timer⟩
  · exact h

theorem IoTyped.run (h : IoTyped io) {op : IoOp HomebrewCallback Nat} (hop : OpTyped op) :
    IoTyped (op.run io) := by
  -- deregistering only removes
  cases op with
  | regSignal sig cb userdata once allocated =>
    show IoTyped (dmrIoRegSignal io sig cb userdata once allocated).2
    unfold dmrIoRegSignal
    split
    · exact h.insert hop
    · exact h
  | regRead fd cb userdata once allocated => exact h.regEntry .readers hop allocated
  | regWrite fd cb userdata once allocated => exact h.regEntry .writers hop allocated
  | regError fd cb userdata once allocated => exact h.regEntry .errors hop allocated
  | regTimer timeout cb userdata once allocated =>
    show IoTyped (io.dmrIoRegTimer timeout cb userdata once allocated).2
    unfold DmrIoRegistry.dmrIoRegTimer
    split
    · refine ⟨h.entry, fun c hc => ?_⟩
      rcases NodeList.mem_insertHead.mp hc with rfl | hc
      · exact hop
      · exact h.timer c hc
    · exact h
  | delRead fd cb => exact h.delEntry .readers fd cb
  | delWrite fd cb => exact h.delEntry .writers fd cb
  | delError fd cb => exact h.delEntry .errors fd cb
  | delTimer cb =>
    show IoTyped (io.dmrIoDelTimer cb).2
    unfold DmrIoRegistry.dmrIoDelTimer
    split
    · exact h.unlinkTimer _
    · exact h

theorem IoTyped.foldl (h : IoTyped io) {ops : List (IoOp HomebrewCallback Nat)}
    (hops : ∀ op ∈ ops, OpTyped op) : IoTyped (ops.foldl IoOp.run io) :=
  List.foldlRecOn (motive := IoTyped) _ _ h fun _ hio op hop => hio.run (hops op hop)

theorem opTyped_others (op : IoOp Nat Nat) : OpTyped op.others := by
  cases op <;> exact trivial

theorem opTyped_register (homebrew fd : Nat) (allocated : Bool × Bool × Bool) :
    ∀ op ∈ homebrewIoRegister homebrew fd allocated, OpTyped op := by
  intro op hop
  simp only [homebrewIoRegister, List.mem_cons, List.not_mem_nil, or_false] at hop
  rcases hop with rfl | rfl | rfl
  · exact rfl
  · exact ⟨rfl, rfl⟩
  · exact rfl

theorem opTyped_stop (fd : Nat) : ∀ op ∈ homebrewIoStop fd, OpTyped op := by
  intro op hop
  simp only [homebrewIoStop, List.mem_cons, List.not_mem_nil, or_false] at hop
  rcases hop with rfl | rfl | rfl <;> exact trivial

theorem IoTyped.afterEntry (h : IoTyped io) (d : Dispatcher) (fd cur : Nat)
    (e : DmrIoEntry HomebrewCallback Nat) : IoTyped (d.afterEntry fd io cur e) := by
  unfold Dispatcher.afterEntry Dispatcher.reap
  split
  · split
    · exact h.unlink _ _
    · exact ⟨(h.unlink d.request cur).entry, h.timer⟩
  · exact h

theorem IoTyped.afterTimer (h : IoTyped io) (cur : Nat)
    (t : DmrIoTimerEntry HomebrewCallback Nat) : IoTyped (Dmrlib.afterTimer io cur t) := by
  unfold Dmrlib.afterTimer
  split
  · exact h.unlinkTimer cur
  · refine ⟨h.entry, fun c hc => ?_⟩
    obtain ⟨c, hc', rfl⟩ := List.mem_map.mp hc
    have htyped := h.timer c hc'
    show TimerTyped (if c.1 = cur then _ else c.2)
    split <;> exact htyped

/-! ## Dispatches under way

A signal may interrupt a dispatch, and nothing else does, so a callback of a client runs at the
bottom of those under way.
-/

/-- The dispatch is one that the loop starts. -/
def Known : Frame → Prop
  | .entry d _ _ _ =>
    d = ioHandleReadable ∨ d = ioHandleWritable ∨ d = ioHandleError ∨ d = ioHandleSignal
  | .timer _ _ => True

/-- The dispatch may have begun while another one was under way. -/
def Interrupts : Frame → Prop
  | .entry d _ _ _ => d = ioHandleSignal
  | .timer _ _ => False

def Stacked : List Frame → Prop
  | [] => True
  | f :: fs => Known f ∧ (Interrupts f ∨ fs = []) ∧ Stacked fs

/-- What holds of every loop. -/
structure Typed (s : HomebrewLoop) : Prop where
  io : IoTyped s.loop.io
  frames : Stacked s.loop.frames

theorem typed_start (now : Timeval) (homebrew : Nat → DmrHomebrew) :
    (start now homebrew).Typed :=
  ⟨⟨fun _ _ hc => (nomatch hc), fun _ hc => (nomatch hc)⟩, trivial⟩

theorem Typed.ops {s : HomebrewLoop} (h : s.Typed) {ops : List (IoOp HomebrewCallback Nat)}
    (hops : ∀ op ∈ ops, OpTyped op) : (s.ops ops).Typed :=
  ⟨h.io.foldl hops, h.frames⟩

/-- A dispatch that finds something is on top of those under way. -/
theorem stacked_seek {κ υ : Type} {d : Dispatcher} {fd : Nat}
    {cells : List (Nat × DmrIoEntry κ υ)} {frames : List Frame}
    (hd : d = ioHandleReadable ∨ d = ioHandleWritable ∨ d = ioHandleError ∨ d = ioHandleSignal)
    (htop : d = ioHandleSignal ∨ frames = []) (h : Stacked frames) :
    Stacked ((d.seek fd cells).toList ++ frames) := by
  unfold Dispatcher.seek
  cases NodeList.seek (fun e : DmrIoEntry κ υ => decide (e.fd = fd)) cells with
  | none => exact h
  | some c => exact ⟨hd, htop, h⟩

theorem stacked_seekTimer {κ υ : Type} (io : DmrIoRegistry κ υ)
    (cells : List (Nat × DmrIoTimerEntry κ υ)) : Stacked ((seekTimer io cells).toList ++ []) := by
  unfold seekTimer
  cases NodeList.seek (fun t : DmrIoTimerEntry κ υ => timerLt t.wallclock io.wallclock) cells with
  | none => exact trivial
  | some c => exact ⟨trivial, .inr rfl, trivial⟩

theorem Typed.dispatch {s s' : HomebrewLoop} (h : s.Typed) {a : IoAction HomebrewCallback Nat}
    (ha : (∃ now, a = .timers now) ∨ ∃ fd, a = .readable fd ∨ a = .writable fd ∨ a = .error fd)
    (hstep : s.dispatch a = some s') : s'.Typed := by
  unfold HomebrewLoop.dispatch at hstep
  split at hstep
  · next hframes =>
    obtain ⟨loop, hloop, rfl⟩ := Option.map_eq_some_iff.mp hstep
    rcases ha with ⟨now, rfl⟩ | ⟨fd, rfl | rfl | rfl⟩
    · cases hloop
      refine ⟨⟨h.io.entry, h.io.timer⟩, ?_⟩
      show Stacked ((seekTimer _ _).toList ++ s.loop.frames)
      rw [hframes]
      exact stacked_seekTimer _ _
    all_goals
      cases hloop
      refine ⟨h.io, stacked_seek (by tauto) (.inr hframes) h.frames⟩
  · cases hstep

/-- The dispatch that goes on keeps its place. -/
theorem stacked_seekFrom {κ υ : Type} {d : Dispatcher} {fd cur : Nat} {next : Option Nat}
    {io : DmrIoRegistry κ υ} {frame : Option Frame} {frames : List Frame}
    (h : Stacked (.entry d fd cur next :: frames)) (hseek : d.seekFrom fd io next = some frame) :
    Stacked (frame.toList ++ frames) := by
  obtain ⟨hknown, htop, hrest⟩ := h
  rcases Dispatcher.seekFrom_cases hseek with rfl | ⟨pre, c, rest, -, -, rfl⟩
  · exact hrest
  · exact ⟨hknown, htop, hrest⟩

theorem stacked_seekTimerFrom {κ υ : Type} {cur : Nat} {next : Option Nat}
    {io : DmrIoRegistry κ υ} {frame : Option Frame} {frames : List Frame}
    (h : Stacked (.timer cur next :: frames)) (hseek : seekTimerFrom io next = some frame) :
    Stacked (frame.toList ++ frames) := by
  obtain ⟨hknown, htop, hrest⟩ := h
  rcases seekTimerFrom_cases hseek with rfl | ⟨pre, c, rest, -, rfl⟩
  · exact hrest
  · exact ⟨hknown, htop, hrest⟩

theorem Typed.ret {s s' : HomebrewLoop} (h : s.Typed) {value : Int}
    (hstep : s.act (.ret value) = some s') : s'.Typed := by
  obtain ⟨loop, hloop, rfl⟩ := Option.map_eq_some_iff.mp hstep
  obtain ⟨⟨io, frames⟩, homebrew, rxq⟩ := s
  obtain ⟨hio, hframes⟩ := h
  cases frames with
  | nil =>
    cases hloop
    exact ⟨hio, hframes⟩
  | cons f frames =>
    -- the dispatch that goes on takes the place of the one that was waiting
    cases f with
    | entry d fd cur next =>
      obtain ⟨r, hr, rfl⟩ := Option.map_eq_some_iff.mp hloop
      obtain ⟨e, -, hr₁, hseek⟩ := Dispatcher.resume_eq_some_iff.mp hr
      refine ⟨?_, stacked_seekFrom hframes hseek⟩
      show IoTyped r.1
      rw [hr₁]
      exact hio.afterEntry d fd cur e
    | timer cur next =>
      obtain ⟨r, hr, rfl⟩ := Option.map_eq_some_iff.mp hloop
      obtain ⟨t, -, hr₁, hseek⟩ := resumeTimer_eq_some_iff.mp hr
      refine ⟨?_, stacked_seekTimerFrom hframes hseek⟩
      show IoTyped r.1
      rw [hr₁]
      exact hio.afterTimer cur t

variable {c : Common}

/-- Only the callback for errors touches the registry. -/
theorem Typed.work {s : HomebrewLoop} (h : s.Typed) {i : CallbackInput} {r : Int × HomebrewLoop}
    (hwork : s.work c i = some r) : r.2.Typed := by
  unfold HomebrewLoop.work at hwork
  split at hwork
  · obtain ⟨w, -, hwork⟩ := Option.bind_eq_some_iff.mp hwork
    cases hwork
    exact ⟨h.io, h.frames⟩
  · obtain ⟨w, -, hwork⟩ := Option.bind_eq_some_iff.mp hwork
    cases hwork
    exact ⟨h.io, h.frames⟩
  · next fd _ =>
    cases hwork
    exact h.ops (opTyped_stop fd)
  · cases hwork
    exact h

theorem Typed.step {s s' : HomebrewLoop} (h : s.Typed) {e : LoopEvent}
    (hstep : s.step c e = some s') : s'.Typed := by
  cases e with
  | register homebrew fd allocated =>
    cases hstep
    exact h.ops (opTyped_register homebrew fd allocated)
  | op op =>
    cases hstep
    exact h.ops (List.forall_mem_singleton.mpr (opTyped_others op))
  | use homebrew state =>
    cases hstep
    exact ⟨h.io, h.frames⟩
  | timers now => exact h.dispatch (.inl ⟨now, rfl⟩) hstep
  | readable fd => exact h.dispatch (.inr ⟨fd, .inl rfl⟩) hstep
  | writable fd => exact h.dispatch (.inr ⟨fd, .inr (.inl rfl)⟩) hstep
  | error fd => exact h.dispatch (.inr ⟨fd, .inr (.inr rfl)⟩) hstep
  | signal sig =>
    cases hstep
    exact ⟨h.io, stacked_seek (by tauto) (.inl rfl) h.frames⟩
  | ret i =>
    obtain ⟨r, hwork, hact⟩ := Option.bind_eq_some_iff.mp hstep
    exact (h.work hwork).ret hact

/-! ## Requests and calls

What a request is, what a call is, and what it means that a request is honoured.
-/

/-- The callback that runs asks for client `h` to be closed: the reader receives a
refusal of the master, or the ping timer finds that the client is logged in and that
the last pong is more than ten seconds old. -/
def Requests (s : HomebrewLoop) (h : Nat) : LoopEvent → Prop
  | .ret i =>
    (∃ fd, s.running = some (.readable, h, fd) ∧ i.allocated = true ∧ i.env.received = true ∧
      ∃ datagram, i.recv = some datagram ∧ isNak datagram = true) ∨
    ∃ fd, s.running = some (.pingTimer, h, fd) ∧ (s.homebrew h).state = .authDone ∧
      dmrTimeSince (i.env.clock 0) (s.homebrew h).lastPong > 10
  | _ => False

/-- The dispatches that stay under way beneath one that the event begins or goes on
with. -/
def beneath (s : HomebrewLoop) : LoopEvent → List Frame
  | .ret _ => s.loop.frames.tail
  | _ => s.loop.frames

/-- The event calls a callback of client `h`. -/
def Calls (c : Common) (s : HomebrewLoop) (h : Nat) (e : LoopEvent) : Prop :=
  ∃ s' f cb fd, s.step c e = some s' ∧ s'.loop.frames = f :: s.beneath e ∧
    s'.running = some (cb, h, fd) ∧ ∀ n, cb ≠ .other n

/-- The event registers client `h`. -/
def Registers (h : Nat) : LoopEvent → Prop
  | .register homebrew _ _ => homebrew = h
  | _ => False

/-- If client `h` asks to be closed in this step, it is: nothing that happens later
calls a callback of it, at least as long as the program does not register it anew. -/
def Honoured (c : Common) (s : HomebrewLoop) (h : Nat) (e : LoopEvent) : Prop :=
  s.Requests h e → ∃ s', s.step c e = some s' ∧
    ∀ es t, (∀ e' ∈ es, ¬ Registers h e') → after (step c) s' es = some t →
      ∀ e', ¬ Calls c t h e'

/-- A refusal that the reader receives is returned as a failure. -/
theorem dmrHomebrewRead_nak {env : HomebrewEnv} {homebrew : DmrHomebrew} {datagram : List UInt8}
    (hmem : env.received = true) (hnak : isNak datagram = true) :
    dmrHomebrewRead c env homebrew (some datagram) =
      some ⟨-1, { homebrew with state := .authNone }, [], none⟩ := by
  obtain ⟨hlen, hfirst, hword⟩ := of_decide_eq_true hnak
  have hnotAck : matchesAt3 datagram ACK = false := by
    by_contra hack
    rw [Bool.not_eq_false] at hack
    rw [not_isNak_of_isAck hack] at hnak
    cases hnak
  obtain ⟨buf, hread, -, hmatch⟩ :=
    dmrHomebrewRead_master c homebrew hmem hlen.ge (by omega) hfirst
  have hack := hmatch ACK (by decide)
  have hnak := hmatch NAK (by decide)
  rw [hread, readMaster, if_pos hlen, hack, hnak, hnotAck, if_neg Bool.false_ne_true, hword,
    if_pos rfl]

/-- A request is a failure that is returned, and leaves the loop alone. -/
theorem work_of_requests {s : HomebrewLoop} {h : Nat} {i : CallbackInput}
    (hreq : s.Requests h (.ret i)) : ∃ s', s.work c i = some (-1, s') ∧ s'.loop = s.loop := by
  unfold HomebrewLoop.work
  rcases hreq with ⟨fd, hrun, halloc, hmem, datagram, hrecv, hnak⟩ | ⟨fd, hrun, hstate, hpong⟩
  · have hread : dmrHomebrewRead c { i.env with parsedOut := true } (s.homebrew h) (some datagram) =
        some ⟨-1, { s.homebrew h with state := .authNone }, [], none⟩ :=
      dmrHomebrewRead_nak hmem hnak
    simp only [hrun, homebrewIoReadable, halloc, hrecv, hread]
    exact ⟨_, rfl, rfl⟩
  · simp only [hrun, homebrewIoPingTimer, hstate, hpong]
    exact ⟨_, rfl, rfl⟩

/-! ## Callbacks that do little

Inputs with which every callback returns and registers nothing: they bring any dispatch to its
end.
-/

/-- Nothing is received, and there is no memory. -/
def quiet : CallbackInput :=
  ⟨⟨false, false, false, false, [], fun _ => ⟨0, 0⟩, false⟩, false, false, none, 0⟩

theorem work_quiet {s : HomebrewLoop} (h : ∀ client fd, s.running ≠ some (.error, client, fd)) :
    ∃ value s', s.work c quiet = some (value, s') ∧ s'.loop = s.loop := by
  unfold HomebrewLoop.work
  split
  · exact ⟨_, _, rfl, rfl⟩
  · next client fd _ =>
    have hping : ∃ r, homebrewIoPingTimer quiet.env (s.homebrew client) = some r := by
      unfold homebrewIoPingTimer
      split
      · exact ⟨_, rfl⟩
      · split <;> exact ⟨_, rfl⟩
    obtain ⟨r, hr⟩ := hping
    rw [hr]
    exact ⟨_, _, rfl, rfl⟩
  · next client fd hrun => exact absurd hrun (h client fd)
  · exact ⟨_, _, rfl, rfl⟩

/-- The return of a callback that left the loop alone. -/
theorem step_ret {s s' : HomebrewLoop} {i : CallbackInput} {value : Int}
    (hwork : s.work c i = some (value, s')) (hloop : s'.loop = s.loop) {loop : IoLoop _ _}
    (hstep : s.loop.step (.ret value) = some loop) :
    s.step c (.ret i) = some { s' with loop := loop } := by
  show (s.work c i).bind (fun r => r.2.act (.ret r.1)) = _
  rw [hwork, Option.bind_some, act, hloop, hstep]
  rfl

/-! ## Who is running

From the callback that runs, the dispatch it runs in and the entry it was called for.
-/

theorem running_entry {s : HomebrewLoop} {d : Dispatcher} {fd cur : Nat} {next : Option Nat}
    {frames : List Frame} {e : DmrIoEntry HomebrewCallback Nat}
    (hframes : s.loop.frames = .entry d fd cur next :: frames)
    (hmem : (cur, e) ∈ (s.loop.io.entry d.request).cells) :
    s.running = some (e.cb, e.userdata, fd) := by
  unfold running
  rw [hframes]
  show ((s.loop.io.entry d.request).get? cur).map _ = _
  rw [NodeList.get?_eq_some_iff.mpr hmem]
  rfl

theorem running_timer {s : HomebrewLoop} {cur : Nat} {next : Option Nat} {frames : List Frame}
    {t : DmrIoTimerEntry HomebrewCallback Nat} (hframes : s.loop.frames = .timer cur next :: frames)
    (hmem : (cur, t) ∈ s.loop.io.timer.cells) : s.running = some (t.cb, t.userdata, 0) := by
  unfold running
  rw [hframes]
  show (s.loop.io.timer.get? cur).map _ = _
  rw [NodeList.get?_eq_some_iff.mpr hmem]
  rfl

/-- A reader that runs was found by the dispatcher of readers, beneath which nothing is
under way, and it is not a one-shot entry. -/
theorem Typed.of_readable {s : HomebrewLoop} (h : s.Typed) {client fd : Nat}
    (hrun : s.running = some (.readable, client, fd)) :
    ∃ cur next e, s.loop.frames = [.entry ioHandleReadable fd cur next] ∧
      (cur, e) ∈ (s.loop.io.entry .read).cells ∧ e.cb = .readable ∧ e.userdata = client ∧
        e.once = false := by
  obtain ⟨⟨io, frames⟩, homebrew, rxq⟩ := s
  obtain ⟨hio, hframes⟩ := h
  cases frames with
  | nil => cases hrun
  | cons f frames =>
    obtain ⟨hknown, htop, -⟩ := hframes
    cases f with
    | entry d fd' cur next =>
      obtain ⟨e, he, heq⟩ := Option.map_eq_some_iff.mp hrun
      obtain ⟨hcb, huserdata, hfd⟩ := Prod.mk.injEq .. ▸ Prod.mk.injEq .. ▸ heq
      have hmem := NodeList.get?_eq_some_iff.mp he
      have htyped := hio.entry _ _ hmem
      simp only [EntryTyped, hcb] at htyped
      obtain ⟨hread, honce⟩ := htyped
      -- of the dispatchers, only one searches the readers
      have hd : d = ioHandleReadable := by
        rcases hknown with rfl | rfl | rfl | rfl
        · rfl
        all_goals cases hread
      subst hd hfd
      have hframes : frames = [] := by
        rcases htop with htop | htop
        · cases htop
        · exact htop
      subst hframes
      exact ⟨cur, next, e, rfl, hmem, hcb, huserdata, honce⟩
    | timer cur next =>
      obtain ⟨t, ht, heq⟩ := Option.map_eq_some_iff.mp hrun
      obtain ⟨hcb, -⟩ := Prod.mk.injEq .. ▸ heq
      have htyped := hio.timer _ (NodeList.get?_eq_some_iff.mp ht)
      simp only [TimerTyped, hcb] at htyped

/-- The same of the ping timer. -/
theorem Typed.of_pingTimer {s : HomebrewLoop} (h : s.Typed) {client fd : Nat}
    (hrun : s.running = some (.pingTimer, client, fd)) :
    ∃ cur next t, s.loop.frames = [.timer cur next] ∧ (cur, t) ∈ s.loop.io.timer.cells ∧
      t.cb = .pingTimer ∧ t.userdata = client ∧ t.once = false := by
  obtain ⟨⟨io, frames⟩, homebrew, rxq⟩ := s
  obtain ⟨hio, hframes⟩ := h
  cases frames with
  | nil => cases hrun
  | cons f frames =>
    obtain ⟨-, htop, -⟩ := hframes
    -- the callback is of a timer, so the dispatch is one of timers
    cases f with
    | entry d fd' cur next =>
      obtain ⟨e, he, heq⟩ := Option.map_eq_some_iff.mp hrun
      obtain ⟨hcb, -⟩ := Prod.mk.injEq .. ▸ heq
      have htyped := hio.entry _ _ (NodeList.get?_eq_some_iff.mp he)
      simp only [EntryTyped, hcb] at htyped
    | timer cur next =>
      obtain ⟨t, ht, heq⟩ := Option.map_eq_some_iff.mp hrun
      obtain ⟨hcb, huserdata, -⟩ := Prod.mk.injEq .. ▸ Prod.mk.injEq .. ▸ heq
      have hmem := NodeList.get?_eq_some_iff.mp ht
      have htyped := hio.timer _ hmem
      simp only [TimerTyped, hcb] at htyped
      have hframes : frames = [] := by
        rcases htop with htop | htop
        · exact htop.elim
        · exact htop
      subst hframes
      exact ⟨cur, next, t, rfl, hmem, hcb, huserdata, htyped⟩

/-! ## Sweeps

A dispatch of readers and one of timers are sweeps over their lists, so they end, and come to
every entry.
-/

/-- The dispatch of the readers for `fd` is the only one. -/
def AtReader (fd : Nat) (s : HomebrewLoop) (o : Option (Nat × Option Nat)) : Prop :=
  s.Typed ∧ s.loop.frames = (o.map fun x => Frame.entry ioHandleReadable fd x.1 x.2).toList

/-- The dispatch of the timers is the only one. -/
def AtTimer (now : Timeval) (s : HomebrewLoop) (o : Option (Nat × Option Nat)) : Prop :=
  s.Typed ∧ s.loop.io.wallclock = now ∧
    s.loop.frames = (o.map fun x => Frame.timer x.1 x.2).toList

theorem sweep_readers (c : Common) (fd : Nat) :
    Sweep (step c) (.ret quiet) (fun s => (s.loop.io.entry .read).cells)
      (fun e => decide (e.fd = fd)) (fun e => !e.once) Eq (AtReader fd) where
  refl _ := rfl
  trans _ _ _ := Eq.trans
  kept_same _ _ h hkept := h ▸ hkept
  round := by
    rintro s pre cell rest hcells ⟨htyped, hframes⟩
    have hmem : cell ∈ (s.loop.io.entry .read).cells :=
      hcells ▸ List.mem_append_right _ List.mem_cons_self
    have hrun := running_entry hframes hmem
    -- a reader is never the callback for errors, so it can do nothing and return
    have hnot : ∀ client fd', s.running ≠ some (.error, client, fd') := by
      intro client fd' hrun'
      obtain ⟨hcb, -⟩ := Prod.mk.injEq .. ▸ Option.some.inj (hrun.symm.trans hrun')
      have hentry := htyped.io.entry .read cell hmem
      simp only [EntryTyped, hcb, reduceCtorEq] at hentry
    obtain ⟨value, s₁, hwork, hloop⟩ := work_quiet (c := c) hnot
    obtain ⟨io', hresume, hcells'⟩ :=
      Dispatcher.resume_append (d := ioHandleReadable) rfl fd hcells
    have hret : s.loop.step (.ret value) =
        some (IoLoop.goOn [] (io', ioHandleReadable.seek fd rest)) := by
      unfold IoLoop.step
      rw [hframes]
      exact congrArg (Option.map _) hresume
    have hstep := step_ret hwork hloop hret
    have hkeeps : Sweep.Keeps (fun e : DmrIoEntry HomebrewCallback Nat => !e.once) Eq
        (pre ++ [cell]) (if cell.2.once then pre else pre ++ [cell]) :=
      Sweep.keeps_append (fun _ => rfl) rfl rfl
    exact ⟨_, hstep, ⟨htyped.step hstep, List.append_nil _⟩, _, hcells', hkeeps⟩

/-- Timers are told apart by what does not change when they are set again. -/
def SameTimer (t t' : DmrIoTimerEntry HomebrewCallback Nat) : Prop :=
  t.cb = t'.cb ∧ t.userdata = t'.userdata ∧ t.once = t'.once

theorem sweep_timers (c : Common) (now : Timeval) :
    Sweep (step c) (.ret quiet) (fun s => s.loop.io.timer.cells)
      (fun t => timerLt t.wallclock now) (fun t => !t.once) SameTimer (AtTimer now) where
  refl _ := ⟨rfl, rfl, rfl⟩
  trans _ _ _ h h' := ⟨h.1.trans h'.1, h.2.1.trans h'.2.1, h.2.2.trans h'.2.2⟩
  kept_same _ _ h hkept := h.2.2 ▸ hkept
  round := by
    rintro s pre cell rest hcells ⟨htyped, rfl, hframes⟩
    have hmem : cell ∈ s.loop.io.timer.cells :=
      hcells ▸ List.mem_append_right _ List.mem_cons_self
    have hrun := running_timer hframes hmem
    have hnot : ∀ client fd', s.running ≠ some (.error, client, fd') := by
      intro client fd' hrun'
      obtain ⟨hcb, -⟩ := Prod.mk.injEq .. ▸ Option.some.inj (hrun.symm.trans hrun')
      have htimer := htyped.io.timer cell hmem
      simp only [TimerTyped, hcb] at htimer
    obtain ⟨value, s₁, hwork, hloop⟩ := work_quiet (c := c) hnot
    obtain ⟨io', hresume, hclock, hcells'⟩ := resumeTimer_append hcells
    -- the timer is set again, the others are as they were
    have hret : s.loop.step (.ret value) =
        some (IoLoop.goOn [] (io', seekTimer s.loop.io rest)) := by
      unfold IoLoop.step
      rw [hframes]
      exact congrArg (Option.map _) hresume
    have hstep := step_ret hwork hloop hret
    have hkeeps : Sweep.Keeps (fun t : DmrIoTimerEntry HomebrewCallback Nat => !t.once) SameTimer
        (pre ++ [cell]) (if cell.2.once then pre else pre ++ [(cell.1,
          { cell.2 with wallclock := timeradd s.loop.io.wallclock cell.2.timeout })]) :=
      Sweep.keeps_append (fun _ => ⟨rfl, rfl, rfl⟩) rfl ⟨rfl, rfl, rfl⟩
    exact ⟨_, hstep, ⟨htyped.step hstep, hclock, List.append_nil _⟩, _, hcells', hkeeps⟩

/-! ## Coming back

From a state between dispatches the loop can come to any entry of a client that is registered.
-/

/-- Client `h` is called again, without being registered anew. -/
def CalledAgain (c : Common) (s : HomebrewLoop) (h : Nat) : Prop :=
  ∃ es t e, (∀ e' ∈ es, ¬ Registers h e') ∧ after (step c) s es = some t ∧ Calls c t h e

theorem CalledAgain.of_after {s s' : HomebrewLoop} {h n : Nat} {i : CallbackInput}
    (hs' : after (step c) s (List.replicate n (.ret i)) = some s') (hagain : CalledAgain c s' h) :
    CalledAgain c s h := by
  obtain ⟨es', t, e, hnot, ht, hcalls⟩ := hagain
  refine ⟨List.replicate n (.ret i) ++ es', t, e, ?_, ?_, hcalls⟩
  · intro e' he'
    rcases List.mem_append.mp he' with he' | he'
    · obtain rfl := List.eq_of_mem_replicate he'
      exact not_false
    · exact hnot e' he'
  · rw [after_append, hs', Option.bind_some]
    exact ht

theorem dispatch_idle {s : HomebrewLoop} (hframes : s.loop.frames = [])
    (a : IoAction HomebrewCallback Nat) : s.dispatch a = s.act a := by
  unfold HomebrewLoop.dispatch
  rw [hframes]

/-- A dispatch of readers begins with the first one for the descriptor. -/
theorem step_readable (c : Common) {s : HomebrewLoop} (hframes : s.loop.frames = []) (fd : Nat) :
    ∃ s', s.step c (.readable fd) = some s' ∧ s'.loop.io = s.loop.io ∧
      s'.loop.frames = ((NodeList.seek (fun e => decide (e.fd = fd))
        (s.loop.io.entry .read).cells).map fun x =>
          Frame.entry ioHandleReadable fd x.1 x.2).toList := by
  refine ⟨{ s with loop := s.loop.dispatch ioHandleReadable fd }, ?_, rfl, ?_⟩
  · exact dispatch_idle hframes _
  · show (Dispatcher.seek _ _ _).toList ++ s.loop.frames = _
    rw [hframes, List.append_nil]
    rfl

/-- A dispatch of timers begins with the first one that is due. -/
theorem step_timers (c : Common) {s : HomebrewLoop} (hframes : s.loop.frames = [])
    (now : Timeval) :
    ∃ s', s.step c (.timers now) = some s' ∧ s'.loop.io = { s.loop.io with wallclock := now } ∧
      s'.loop.frames = ((NodeList.seek (fun t => timerLt t.wallclock now)
        s.loop.io.timer.cells).map fun x => Frame.timer x.1 x.2).toList := by
  refine ⟨{ s with loop := ⟨{ s.loop.io with wallclock := now },
    (seekTimer { s.loop.io with wallclock := now } s.loop.io.timer.cells).toList ++
      s.loop.frames⟩ }, ?_, rfl, ?_⟩
  · exact dispatch_idle hframes _
  · show (seekTimer _ _).toList ++ s.loop.frames = _
    rw [hframes, List.append_nil]
    rfl

/-- A reader that is registered is called when its descriptor can be read. -/
theorem calledAgain_of_reader {s : HomebrewLoop} (h : s.Typed) (hframes : s.loop.frames = [])
    {cur : Nat} {e : DmrIoEntry HomebrewCallback Nat}
    (hmem : (cur, e) ∈ (s.loop.io.entry .read).cells) (hcb : e.cb = .readable) :
    CalledAgain c s e.userdata := by
  obtain ⟨s', hstep, hio, hseek⟩ := step_readable c hframes e.fd
  rw [← hio] at hmem hseek
  obtain ⟨es, t, e', t', pre, rest, hes, hafter, hstep', hcells, ⟨-, hframes'⟩, hcase⟩ :=
    (sweep_readers c e.fd).visits hstep ⟨h.step hstep, hseek⟩ hmem (decide_eq_true rfl)
  have hmem' : (cur, e) ∈ (t'.loop.io.entry .read).cells :=
    hcells ▸ List.mem_append_right _ List.mem_cons_self
  -- the call begins a dispatch, or goes on with one that is alone
  have hbeneath : t.beneath e' = [] := by
    rcases hcase with ⟨rfl, rfl⟩ | ⟨⟨o, -, ho⟩, rfl⟩
    · exact hframes
    · show t.loop.frames.tail = []
      rw [ho]
      rfl
  have hnot : ∀ e'' ∈ es, ¬ Registers e.userdata e'' := by
    intro e'' hmem
    rcases hes e'' hmem with rfl | rfl <;> exact not_false
  refine ⟨es, t, e', hnot, hafter, t',
    .entry ioHandleReadable e.fd cur (rest.head?.map Prod.fst), e.cb,
    e.fd, hstep', ?_, running_entry hframes' hmem', ?_⟩
  · rw [hbeneath]
    exact hframes'
  · rw [hcb]
    exact nofun

theorem timerLt_succ (t : Timeval) : timerLt t ⟨t.sec + 1, 0⟩ = true := by
  unfold timerLt
  rw [if_neg (by show ¬ t.sec = t.sec + 1; omega)]
  exact decide_eq_true (by show t.sec < t.sec + 1; omega)

/-- A ping timer that is set is called when it is due. -/
theorem calledAgain_of_pingTimer {s : HomebrewLoop} (h : s.Typed) (hframes : s.loop.frames = [])
    {cur : Nat} {t : DmrIoTimerEntry HomebrewCallback Nat}
    (hmem : (cur, t) ∈ s.loop.io.timer.cells) (hcb : t.cb = .pingTimer) :
    CalledAgain c s t.userdata := by
  -- the clock moves on past the time the timer is set to
  obtain ⟨now, hnow⟩ : ∃ now, timerLt t.wallclock now = true := ⟨_, timerLt_succ t.wallclock⟩
  obtain ⟨s', hstep, hio, hseek⟩ := step_timers c hframes now
  have hmem' : (cur, t) ∈ s'.loop.io.timer.cells := hio ▸ hmem
  have hclock : s'.loop.io.wallclock = now := hio ▸ rfl
  have hat : AtTimer now s' (NodeList.seek (fun t' => timerLt t'.wallclock now)
      s'.loop.io.timer.cells) := ⟨h.step hstep, hclock, by rw [hio]; exact hseek⟩
  obtain ⟨es, u, e', u', pre, rest, hes, hafter, hstep', hcells, ⟨-, -, hframes'⟩, hcase⟩ :=
    (sweep_timers c now).visits hstep hat hmem' hnow
  have hmem' : (cur, t) ∈ u'.loop.io.timer.cells :=
    hcells ▸ List.mem_append_right _ List.mem_cons_self
  have hbeneath : u.beneath e' = [] := by
    rcases hcase with ⟨rfl, rfl⟩ | ⟨⟨o, -, -, ho⟩, rfl⟩
    · exact hframes
    · show u.loop.frames.tail = []
      rw [ho]
      rfl
  have hnot : ∀ e'' ∈ es, ¬ Registers t.userdata e'' := by
    intro e'' hmem
    rcases hes e'' hmem with rfl | rfl <;> exact not_false
  refine ⟨es, u, e', hnot, hafter, u', .timer cur (rest.head?.map Prod.fst), t.cb, 0, hstep', ?_,
    running_timer hframes' hmem', ?_⟩
  · rw [hbeneath]
    exact hframes'
  · rw [hcb]
    exact nofun

/-! ## After a request

The entry of the callback that made the request stays on its list, so the loop can come back to
it.
-/

/-- The step in which a callback that left the loop alone returns. -/
theorem of_step_ret {s s₁ s' : HomebrewLoop} {i : CallbackInput} {value : Int}
    (hwork : s.work c i = some (value, s₁)) (hloop : s₁.loop = s.loop)
    (hstep : s.step c (.ret i) = some s') : s.loop.step (.ret value) = some s'.loop := by
  obtain ⟨r, hr, hact⟩ := Option.bind_eq_some_iff.mp hstep
  cases hwork.symm.trans hr
  obtain ⟨loop, hret, rfl⟩ := Option.map_eq_some_iff.mp hact
  rw [← hloop]
  exact hret

/-- The reader is called again, since what it returns is not looked at. -/
theorem calledAgain_of_readable {s s₁ s' : HomebrewLoop} (h : s.Typed) {client fd : Nat}
    (hrun : s.running = some (.readable, client, fd)) {i : CallbackInput} {value : Int}
    (hwork : s.work c i = some (value, s₁)) (hloop : s₁.loop = s.loop)
    (hstep : s.step c (.ret i) = some s') : CalledAgain c s' client := by
  obtain ⟨cur, next, e, hframes, hmem, hcb, rfl, honce⟩ := h.of_readable hrun
  have hret := of_step_ret hwork hloop hstep
  unfold IoLoop.step at hret
  rw [hframes] at hret
  obtain ⟨⟨io', frame⟩, hresume, hgoOn⟩ := Option.map_eq_some_iff.mp hret
  obtain ⟨e', he', hio', hseek⟩ := Dispatcher.resume_eq_some_iff.mp hresume
  -- the entry stays, since it is not a one-shot entry
  have hio : io' = s.loop.io := by
    have hee' : (cur, e) = (cur, e') := NodeList.eq_of_address _ hmem he' rfl
    cases hee'
    exact hio'.trans (if_neg (by rw [honce]; exact Bool.false_ne_true))
  subst hio
  have hio₁ : s'.loop.io = s.loop.io := by rw [← hgoOn]; rfl
  have hframes₁ : s'.loop.frames = frame.toList := by
    rw [← hgoOn]
    exact List.append_nil _
  have htyped := h.step hstep
  rw [← hio₁] at hmem hseek
  rcases Dispatcher.seekFrom_cases hseek with rfl | ⟨pre, cell, rest, hcells, -, rfl⟩
  · exact calledAgain_of_reader htyped hframes₁ hmem hcb
  -- the dispatch that goes on comes to its end
  · obtain ⟨n, t, ht, ⟨htyped', hframes'⟩, hkeeps⟩ :=
      (sweep_readers c fd).ends hcells ⟨htyped, hframes₁⟩
    have hkept : (!e.once) = true := by rw [honce]; rfl
    obtain ⟨v, hv, rfl⟩ := hkeeps _ hmem hkept
    exact (calledAgain_of_reader htyped' hframes' hv hcb).of_after ht

/-- So is the ping timer, which is set again. -/
theorem calledAgain_of_ping {s s₁ s' : HomebrewLoop} (h : s.Typed) {client fd : Nat}
    (hrun : s.running = some (.pingTimer, client, fd)) {i : CallbackInput} {value : Int}
    (hwork : s.work c i = some (value, s₁)) (hloop : s₁.loop = s.loop)
    (hstep : s.step c (.ret i) = some s') : CalledAgain c s' client := by
  obtain ⟨cur, next, t, hframes, hmem, hcb, rfl, honce⟩ := h.of_pingTimer hrun
  have hret := of_step_ret hwork hloop hstep
  unfold IoLoop.step at hret
  rw [hframes] at hret
  obtain ⟨⟨io', frame⟩, hresume, hgoOn⟩ := Option.map_eq_some_iff.mp hret
  obtain ⟨t', ht', hio', hseek⟩ := resumeTimer_eq_some_iff.mp hresume
  have htt' : (cur, t) = (cur, t') := NodeList.eq_of_address _ hmem ht' rfl
  cases htt'
  have hio₁ : s'.loop.io = afterTimer s.loop.io cur t := by
    rw [← hgoOn]
    exact hio'
  have hframes₁ : s'.loop.frames = frame.toList := by
    rw [← hgoOn]
    exact List.append_nil _
  obtain ⟨t₁, hmem₁, hsame⟩ : ∃ t₁, (cur, t₁) ∈ s'.loop.io.timer.cells ∧ SameTimer t t₁ := by
    refine ⟨{ t with wallclock := timeradd s.loop.io.wallclock t.timeout }, ?_, rfl, rfl, rfl⟩
    rw [hio₁, afterTimer, if_neg (by rw [honce]; exact Bool.false_ne_true)]
    exact NodeList.mem_modify hmem _
  have htyped := h.step hstep
  rw [hio', ← hio₁] at hseek
  -- the dispatch is through, or goes on to a timer behind this one
  rcases seekTimerFrom_cases hseek with rfl | ⟨pre, cell, rest, hcells, rfl⟩
  · rw [hsame.2.1]
    exact calledAgain_of_pingTimer htyped hframes₁ hmem₁ (hsame.1 ▸ hcb)
  · obtain ⟨n, u, hu, ⟨htyped', -, hframes'⟩, hkeeps⟩ :=
      (sweep_timers c s'.loop.io.wallclock).ends hcells ⟨htyped, rfl, hframes₁⟩
    have hkept : (!t₁.once) = true := by rw [← hsame.2.2, honce]; rfl
    obtain ⟨t₂, hmem₂, hsame'⟩ := hkeeps _ hmem₁ hkept
    rw [hsame.2.1, hsame'.2.1]
    exact (calledAgain_of_pingTimer htyped' hframes' hmem₂ (hsame'.1 ▸ hsame.1 ▸ hcb)).of_after hu

/-- **Steps.** Exactly the requests are not honoured. -/
theorem honoured_iff {s : HomebrewLoop} (h : s.Typed) (client : Nat) (e : LoopEvent) :
    Honoured c s client e ↔ ¬ s.Requests client e := by
  constructor
  · intro hhon hreq
    obtain ⟨s', hstep, hnever⟩ := hhon hreq
    have hagain : CalledAgain c s' client := by
      -- only the return of a callback can be a request
      cases e with
      | ret i =>
        obtain ⟨s₁, hwork, hloop⟩ := work_of_requests (c := c) hreq
        rcases hreq with ⟨fd, hrun, -⟩ | ⟨fd, hrun, -⟩
        · exact calledAgain_of_readable h hrun hwork hloop hstep
        · exact calledAgain_of_ping h hrun hwork hloop hstep
      | _ => exact hreq.elim
    obtain ⟨es, t, e', hnot, hafter, hcalls⟩ := hagain
    exact hnever es t hnot hafter e' hcalls
  · intro hnot hreq
    exact absurd hreq hnot

/-- **Runs.** Requests are honoured throughout a run exactly when there are none. -/
theorem throughout_honoured_iff (c : Common) (now : Timeval) (homebrew : Nat → DmrHomebrew)
    (es : List LoopEvent) :
    Throughout (step c) (fun s e => ∀ h, Honoured c s h e) (start now homebrew) es ↔
      Throughout (step c) (fun s e => ∀ h, ¬ s.Requests h e) (start now homebrew) es := by
  have hsteps : ∀ s e, Typed s → ((∀ h, Honoured c s h e) ↔ ∀ h, ¬ s.Requests h e) :=
    fun s e htyped => forall_congr' fun h => honoured_iff htyped h e
  exact throughout_congr hsteps (fun s e s' htyped hstep => htyped.step hstep)
    (typed_start now homebrew) es

/-- A client whose reader receives `MSTNAK` is called when its socket can be read again. -/
theorem not_honoured_nak :
    let c : Common :=
      ⟨id, fun _ => .replicate 32 0, fun _ => 0, fun _ => 0, fun _ _ => [], [], [], []⟩
    let homebrew : Nat → DmrHomebrew := fun _ =>
      .new ⟨none, 2042214, 4385, 4310, 25, 1, 0, 0, 0, none, none, none, none, none⟩
    let nak : CallbackInput :=
      ⟨⟨true, true, true, true, [], fun _ => ⟨0, 0⟩, true⟩, true, true,
        some [0x4d, 0x53, 0x54, 0x4e, 0x41, 0x4b, 0, 0, 0, 0, 0, 0, 0, 0], 0⟩
    ¬ Throughout (step c) (fun s e => ∀ h, Honoured c s h e) (start ⟨0, 0⟩ homebrew)
      [.register 0 5 (true, true, true), .readable 5, .ret nak] := by
  intro c homebrew nak hrun
  have hhon := ((hrun.2 _ rfl).2 _ rfl).1 0
  have htyped := ((typed_start ⟨0, 0⟩ homebrew).step (c := c)
    (e := .register 0 5 (true, true, true)) rfl).step (c := c) (e := .readable 5) rfl
  exact (honoured_iff htyped 0 _).mp hhon (.inl ⟨5, rfl, rfl, rfl, _, rfl, by decide⟩)

end HomebrewLoop

end Dmrlib
