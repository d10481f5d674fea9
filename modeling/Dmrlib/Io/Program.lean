import Dmrlib.Io.Dispatch

/-!
# Programs on the I/O loop

A program keeps a registry in its state, and its callbacks work on that state. A dispatch
is run to its end here: each callback does its work when its turn comes, and the dispatcher
goes on from there.

Where the callbacks leave the list of readers alone and no entry is a one-shot, a dispatch
calls the entries of its descriptor in the order of the list, each once
(`IoProgram.readable_eq`). What all callbacks keep, a dispatch of timers keeps
(`IoProgram.timers_inv`).

- `IoProgram`: where a program keeps its registry, and the work of each callback.
- `IoProgram.readable`, `IoProgram.error`, `IoProgram.timers`: whole dispatches.
- `KeepsReaders`, `readable_eq`: the dispatch of a descriptor as a fold over its entries.
- `TimersFrom`: the timers after a dispatch were there before it.
-/

namespace Dmrlib

/-- From the return of a callback to the next call. -/
def Frame.resume {κ υ : Type} (io : DmrIoRegistry κ υ) :
    Frame → Option (DmrIoRegistry κ υ × Option Frame)
  | .entry d fd cur next => d.resume fd io cur next
  | .timer cur next => resumeTimer io cur next

/-- What the callbacks of a program do: the one registered with `cb` and `userdata`, when it is
called for `fd` and finds `i` around it. `none` is a call that the program does not survive. -/
structure IoProgram (κ υ ι σ : Type) where
  io : σ → DmrIoRegistry κ υ
  setIo : σ → DmrIoRegistry κ υ → σ
  io_setIo : ∀ s io', io (setIo s io') = io'
  setIo_io : ∀ s, setIo s (io s) = s
  work : (cb : κ) → (userdata : υ) → (fd : Nat) → (i : ι) → σ → Option σ

namespace IoProgram

variable {κ υ ι σ : Type}

/-- A dispatch from the call of `frame` on. Its `k`-th callback finds `input k`, and it calls
at most `fuel` of them. -/
def run (p : IoProgram κ υ ι σ) : (fuel : Nat) → (input : Nat → ι) → Option Frame → σ → Option σ
  | _, _, none, s => some s
  | 0, _, some _, _ => none
  | fuel + 1, input, some frame, s => do
    let (cb, userdata, fd) ← frame.callback (p.io s)
    let s ← p.work cb userdata fd (input 0) s
    let (io, frame) ← frame.resume (p.io s)
    run p fuel (fun k => input (k + 1)) frame (p.setIo s io)

/-- `io_handle_readable` -/
def readable (p : IoProgram κ υ ι σ) (fd : Nat) (input : Nat → ι) (s : σ) : Option σ :=
  let cells := ((p.io s).entry .read).cells
  p.run cells.length input (ioHandleReadable.seek fd cells) s

/-- `io_handle_error` -/
def error (p : IoProgram κ υ ι σ) (fd : Nat) (input : Nat → ι) (s : σ) : Option σ :=
  let cells := ((p.io s).entry .error).cells
  p.run cells.length input (ioHandleError.seek fd cells) s

/-- `io_handle_timers`, when the clock reads `now` -/
def timers (p : IoProgram κ υ ι σ) (now : Timeval) (input : Nat → ι) (s : σ) : Option σ :=
  let io := { p.io s with wallclock := now }
  p.run io.timer.cells.length input (seekTimer io io.timer.cells) (p.setIo s io)

/-- The callbacks of some entries, one after the other. -/
def calls (p : IoProgram κ υ ι σ) (fd : Nat) :
    List (DmrIoEntry κ υ) → (input : Nat → ι) → σ → Option σ
  | [], _, s => some s
  | e :: entries, input, s => do
    let s ← p.work e.cb e.userdata fd (input 0) s
    calls p fd entries (fun k => input (k + 1)) s

/-! ## A dispatch calls the entries of its descriptor -/

/-- A callback leaves the readers alone. -/
def KeepsReaders (p : IoProgram κ υ ι σ) : Prop :=
  ∀ cb userdata fd i s s', p.work cb userdata fd i s = some s' →
    (p.io s').entry .read = (p.io s).entry .read

/-- After the call of an entry that stays, the dispatcher looks at the rest of the list. -/
theorem resume_readable {io : DmrIoRegistry κ υ} {pre rest : List (Nat × DmrIoEntry κ υ)}
    {c : Nat × DmrIoEntry κ υ} (fd : Nat) (hcells : (io.entry .read).cells = pre ++ c :: rest)
    (honce : c.2.once = false) :
    ioHandleReadable.resume fd io c.1 (rest.head?.map Prod.fst) =
      some (io, ioHandleReadable.seek fd rest) := by
  obtain ⟨io', hresume, -⟩ := Dispatcher.resume_append (d := ioHandleReadable) rfl fd hcells
  obtain ⟨e, he, hio, -⟩ := Dispatcher.resume_eq_some_iff.mp hresume
  have hmem : c ∈ (io.entry .read).cells := hcells ▸ List.mem_append_right _ List.mem_cons_self
  have hec : (c.1, e) = c := NodeList.eq_of_address _ he hmem rfl
  have hsame : io' = io := by
    rw [show io' = ioHandleReadable.afterEntry fd io c.1 e from hio, Dispatcher.afterEntry,
      show e = c.2 from congrArg Prod.snd hec, honce]
    rfl
  rw [hresume, hsame]

theorem run_seek {p : IoProgram κ υ ι σ} (hkeeps : p.KeepsReaders) (fd : Nat) {fuel : Nat}
    {pre rest : List (Nat × DmrIoEntry κ υ)} {input : Nat → ι} {s : σ}
    (hcells : ((p.io s).entry .read).cells = pre ++ rest) (honce : ∀ c ∈ rest, c.2.once = false)
    (hfuel : rest.length ≤ fuel) :
    p.run fuel input (ioHandleReadable.seek fd rest) s =
      p.calls fd ((rest.map Prod.snd).filter fun e => e.fd = fd) input s := by
  induction fuel generalizing pre rest input s with
  | zero =>
    obtain rfl : rest = [] := List.eq_nil_of_length_eq_zero (Nat.le_zero.mp hfuel)
    rfl
  | succ fuel ih =>
    unfold Dispatcher.seek
    obtain ⟨hnone, hall⟩ | ⟨skip, c, rest, rfl, hskip, hfd, hsome⟩ :=
      NodeList.seek_cases (fun e : DmrIoEntry κ υ => decide (e.fd = fd)) rest
    · have hfilter : (rest.map Prod.snd).filter (fun e => decide (e.fd = fd)) = [] := by
        rw [List.filter_eq_nil_iff, List.forall_mem_map]
        intro c hc
        simp [hall c hc]
      rw [hnone, hfilter]
      rfl
    · have hnone : (skip.map Prod.snd).filter (fun e => decide (e.fd = fd)) = [] := by
        rw [List.filter_eq_nil_iff, List.forall_mem_map]
        intro d hd
        simp [hskip d hd]
      have hfilter : ((skip ++ c :: rest).map Prod.snd).filter (fun e => decide (e.fd = fd)) =
          c.2 :: (rest.map Prod.snd).filter fun e => decide (e.fd = fd) := by
        rw [List.map_append, List.filter_append, hnone, List.nil_append, List.map_cons]
        exact List.filter_cons_of_pos hfd
      rw [hsome, hfilter]
      rw [← List.append_assoc] at hcells
      have hget : ((p.io s).entry .read).get? c.1 = some c.2 :=
        NodeList.get?_eq_some_iff.mpr (hcells ▸ List.mem_append_right _ List.mem_cons_self)
      have hcallback : (Frame.entry ioHandleReadable fd c.1 (rest.head?.map Prod.fst)).callback
          (p.io s) = some (c.2.cb, c.2.userdata, fd) := by
        show (((p.io s).entry .read).get? c.1).map _ = _
        rw [hget]
        rfl
      show (Frame.callback _ _).bind _ = _
      rw [hcallback]
      show (p.work c.2.cb c.2.userdata fd (input 0) s).bind _ =
        (p.work c.2.cb c.2.userdata fd (input 0) s).bind _
      refine Option.bind_congr fun s' hs' => ?_
      -- the list is the same after the call, so the saved successor is still the next node
      rw [← hkeeps _ _ _ _ _ _ hs'] at hcells
      have hresume := resume_readable fd hcells (honce c (by simp))
      show (ioHandleReadable.resume fd (p.io s') c.1 (rest.head?.map Prod.fst)).bind _ = _
      rw [hresume]
      show p.run fuel _ (ioHandleReadable.seek fd rest) (p.setIo s' (p.io s')) = _
      rw [p.setIo_io]
      have hcells' : ((p.io s').entry .read).cells = (pre ++ skip ++ [c]) ++ rest := by
        rw [hcells, List.append_assoc (pre ++ skip)]
        rfl
      refine ih hcells' (fun d hd => honce d (by simp [hd])) ?_
      simp only [List.length_append, List.length_cons] at hfuel
      omega

/-- **Dispatches.** Each entry of the descriptor is called once, in the order of the list. -/
theorem readable_eq {p : IoProgram κ υ ι σ} (hkeeps : p.KeepsReaders) (fd : Nat)
    (input : Nat → ι) {s : σ} (honce : ∀ c ∈ ((p.io s).entry .read).cells, c.2.once = false) :
    p.readable fd input s =
      p.calls fd ((((p.io s).entry .read).cells.map Prod.snd).filter fun e => e.fd = fd) input s :=
  run_seek hkeeps fd (List.nil_append _).symm honce (Nat.le_refl _)

/-- The first entry of a descriptor is called, and the dispatcher goes on from it. -/
theorem run_seek_first {p : IoProgram κ υ ι σ} {d : Dispatcher} {fd : Nat}
    {pre rest : List (Nat × DmrIoEntry κ υ)} {c : Nat × DmrIoEntry κ υ} {input : Nat → ι} {s : σ}
    (hcells : ((p.io s).entry d.request).cells = pre ++ c :: rest) (hfd : c.2.fd = fd)
    (hpre : ∀ b ∈ pre, b.2.fd ≠ fd) :
    p.run ((p.io s).entry d.request).cells.length input
        (d.seek fd ((p.io s).entry d.request).cells) s =
      (p.work c.2.cb c.2.userdata fd (input 0) s).bind fun s' =>
        (d.resume fd (p.io s') c.1 (rest.head?.map Prod.fst)).bind fun r =>
          p.run (pre ++ rest).length (fun k => input (k + 1)) r.2 (p.setIo s' r.1) := by
  have hget : ((p.io s).entry d.request).get? c.1 = some c.2 :=
    NodeList.get?_eq_some_iff.mpr (hcells ▸ List.mem_append_right _ List.mem_cons_self)
  -- the search comes past the entries of other descriptors
  have hseek : d.seek fd (pre ++ c :: rest) = some (.entry d fd c.1 (rest.head?.map Prod.fst)) := by
    clear hcells hget
    unfold Dispatcher.seek
    induction pre with
    | nil =>
      show (NodeList.seek _ (c :: rest)).map _ = _
      rw [NodeList.seek, if_pos (decide_eq_true hfd)]
      rfl
    | cons b pre ih =>
      obtain ⟨hb, hpre⟩ := List.forall_mem_cons.mp hpre
      rw [List.cons_append, NodeList.seek, if_neg (by simpa using hb)]
      exact ih hpre
  have hlen : (pre ++ c :: rest).length = (pre ++ rest).length + 1 := by
    rw [List.length_append, List.length_append, List.length_cons, Nat.add_assoc]
  have hcallback : (Frame.entry d fd c.1 (rest.head?.map Prod.fst)).callback (p.io s) =
      some (c.2.cb, c.2.userdata, fd) := by
    show (((p.io s).entry d.request).get? c.1).map _ = _
    rw [hget]
    rfl
  rw [hcells, hseek, hlen]
  show (Frame.callback _ _).bind _ = _
  rw [hcallback]
  rfl

theorem run_none (p : IoProgram κ υ ι σ) (fuel : Nat) (input : Nat → ι) (s : σ) :
    p.run fuel input none s = some s := by
  cases fuel <;> rfl

/-- A descriptor without an entry is not dispatched. -/
theorem run_seek_none {p : IoProgram κ υ ι σ} {d : Dispatcher} {fd : Nat} {s : σ}
    (hnone : ∀ b ∈ ((p.io s).entry d.request).cells, b.2.fd ≠ fd) (fuel : Nat) (input : Nat → ι) :
    p.run fuel input (d.seek fd ((p.io s).entry d.request).cells) s = some s := by
  rw [d.seek_none hnone, run_none]

section OneEntry

variable {p : IoProgram κ υ ι σ} {d : Dispatcher} {fd : Nat} {input : Nat → ι} {s s' : σ}
  {pre rest : List (Nat × DmrIoEntry κ υ)} {c : Nat × DmrIoEntry κ υ}
  (hcells : ((p.io s).entry d.request).cells = pre ++ c :: rest) (hfd : c.2.fd = fd)
  (hpre : ∀ b ∈ pre, b.2.fd ≠ fd)
  (hwork : p.work c.2.cb c.2.userdata fd (input 0) s = some s')

include hcells hfd hpre hwork

/-- A callback that leaves its entry, and what is behind it, on the list ends the dispatch. -/
theorem run_seek_stays {pre' : List (Nat × DmrIoEntry κ υ)} (hrest : ∀ b ∈ rest, b.2.fd ≠ fd)
    (hcells' : ((p.io s').entry d.request).cells = pre' ++ c :: rest) :
    p.run ((p.io s).entry d.request).cells.length input
        (d.seek fd ((p.io s).entry d.request).cells) s =
      some (p.setIo s' (d.afterEntry fd (p.io s') c.1 c.2)) := by
  rw [run_seek_first hcells hfd hpre, hwork, Option.bind_some,
    Dispatcher.resume_stays hcells' hrest, Option.bind_some, run_none]

/-- A callback that takes its own entry off the list is not survived. -/
theorem run_seek_gone (hgone : ∀ e, (c.1, e) ∉ ((p.io s').entry d.request).cells) :
    p.run ((p.io s).entry d.request).cells.length input
        (d.seek fd ((p.io s).entry d.request).cells) s = none := by
  rw [run_seek_first hcells hfd hpre, hwork, Option.bind_some, Dispatcher.resume_gone hgone]
  rfl

end OneEntry

/-! ## A dispatch of timers -/

/-- The timers of `io'` are some of those of `io`, set to other times perhaps. -/
def TimersFrom (io io' : DmrIoRegistry κ υ) : Prop :=
  ∀ c' ∈ io'.timer.cells, ∃ c ∈ io.timer.cells, c'.2.cb = c.2.cb

theorem TimersFrom.refl (io : DmrIoRegistry κ υ) : TimersFrom io io := fun c hc => ⟨c, hc, rfl⟩

theorem timersFrom_afterTimer (io : DmrIoRegistry κ υ) (cur : Nat) (t : DmrIoTimerEntry κ υ) :
    TimersFrom io (afterTimer io cur t) := by
  intro c' hc'
  unfold afterTimer at hc'
  split at hc'
  · exact ⟨c', (NodeList.mem_remove.mp hc').1, rfl⟩
  · obtain ⟨c, hc, rfl⟩ := List.mem_map.mp hc'
    refine ⟨c, hc, ?_⟩
    show (if c.1 = cur then _ else c.2).toDmrIoTimer.cb = c.2.cb
    split <;> rfl

theorem resumeTimer_spec {io : DmrIoRegistry κ υ} {cur : Nat} {next : Option Nat}
    {r : DmrIoRegistry κ υ × Option Frame} (h : resumeTimer io cur next = some r) :
    r.1.entry = io.entry ∧ TimersFrom io r.1 ∧
      ∀ frame, r.2 = some frame → ∃ cur next, frame = .timer cur next := by
  obtain ⟨t, -, hio, hframe⟩ := resumeTimer_eq_some_iff.mp h
  refine ⟨?_, ?_, ?_⟩
  · rw [hio, afterTimer]
    split <;> rfl
  · rw [hio]
    exact timersFrom_afterTimer io cur t
  · intro frame hsome
    rw [hsome] at hframe
    obtain hnone | ⟨pre, c, rest, -, heq⟩ := seekTimerFrom_cases hframe
    · cases hnone
    · exact ⟨c.1, _, Option.some.inj heq⟩

/-- Rounds of a dispatch of timers keep what the callbacks of the timers keep and what a change of
the timers keeps: only timers are called, so the callback is that of an entry of the list. -/
theorem run_timers_inv {p : IoProgram κ υ ι σ} {I : σ → Prop}
    (hwork : ∀ s, I s → ∀ c ∈ (p.io s).timer.cells, ∀ fd i s',
      p.work c.2.cb c.2.userdata fd i s = some s' → I s')
    (hio : ∀ s io', I s → io'.entry = (p.io s).entry → TimersFrom (p.io s) io' → I (p.setIo s io'))
    {fuel : Nat} {input : Nat → ι} {frame : Option Frame} {s s' : σ} (hs : I s)
    (hframe : ∀ f, frame = some f → ∃ cur next, f = .timer cur next)
    (h : p.run fuel input frame s = some s') : I s' := by
  -- the induction is on the rounds that are left
  induction fuel generalizing input frame s with
  | zero =>
    cases frame with
    | none =>
      cases h
      exact hs
    | some frame => cases h
  | succ fuel ih =>
    cases frame with
    | none =>
      cases h
      exact hs
    | some frame =>
      obtain ⟨cur, next, rfl⟩ := hframe _ rfl
      rw [run] at h
      simp only [bind, Option.bind_eq_some_iff] at h
      obtain ⟨call, hcall, s₁, hs₁, ⟨io', frame⟩, hresume, h⟩ := h
      obtain ⟨t, ht, rfl⟩ := Option.map_eq_some_iff.mp hcall
      have hinv := hwork s hs _ (NodeList.get?_eq_some_iff.mp ht) _ _ _ hs₁
      obtain ⟨hentry, hfrom, htimer⟩ := resumeTimer_spec hresume
      exact ih (hio s₁ io' hinv hentry hfrom) htimer h

/-- And so does the dispatch. -/
theorem timers_inv {p : IoProgram κ υ ι σ} {I : σ → Prop}
    (hwork : ∀ s, I s → ∀ c ∈ (p.io s).timer.cells, ∀ fd i s',
      p.work c.2.cb c.2.userdata fd i s = some s' → I s')
    (hio : ∀ s io', I s → io'.entry = (p.io s).entry → TimersFrom (p.io s) io' → I (p.setIo s io'))
    {now : Timeval} {input : Nat → ι} {s s' : σ} (hs : I s) (h : p.timers now input s = some s') :
    I s' := by
  have hstart : I (p.setIo s { p.io s with wallclock := now }) :=
    hio s { p.io s with wallclock := now } hs rfl (.refl _)
  refine run_timers_inv hwork hio hstart ?_ h
  intro frame hframe
  obtain ⟨c, -, rfl⟩ := Option.map_eq_some_iff.mp hframe
  exact ⟨c.1, c.2, rfl⟩

end IoProgram

end Dmrlib
