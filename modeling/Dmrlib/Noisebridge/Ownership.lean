import Dmrlib.Noisebridge.Delivery

/-!
# Who owns the packets

Packets go from a reader through a queue of references to `push_proto`, and no function says who
frees them. The reader of the modem frees a packet that it has just queued, so the poll finds a
reference to nothing (`throughout_shiftsAlive_iff`). On the side of the Homebrew clients, where the
reader does not, no one frees the packet or the clones that are sent; and the receive buffer stays
behind when receiving fails or the datagram is short (`throughout_noLeak_iff`).

- `shifts`: the references that a poll takes out of its queue, with the state at that moment.
- `ShiftsAlive`: none of them leads to something that was freed.
- `QueuesNoFrame`: the reader of the modem has nothing to queue.
- `NoLeak`: after the dispatch only what waits in the queues is on the heap.
- `GivesBack`: the reader of a client frees what it allocates.
-/

namespace Dmrlib

open Lua Run

namespace Noisebridge

variable (setup : BridgeSetup)

/-! ## References that are shifted out of a queue -/

/-- What `dmr_packetq_shift` returns to a poll, each time with the bridge as it is then. -/
def shifts (h src : Nat) (srcProto : Proto) :
    List Queued → (push : Nat → PushInput) → Noisebridge → List (Queued × Noisebridge)
  | [], _, _ => []
  | q :: rest, push, s =>
    let s := { s with rxq := Function.update s.rxq h rest }
    (q, s) :: match s.pushProto setup (push 0) src srcProto q.ref with
      | none => []
      | some s => shifts h src srcProto rest (fun k => push (k + 1)) s

/-- In a dispatch on the line of a modem, every reference that the poll gets is that of a packet
which is still there, as the reader stored it. -/
def ShiftsAlive (s : Noisebridge) : BridgeEvent → Prop
  | .readable fd input => ∀ h proto, setup.protos[h]? = some proto →
    proto.type = DMR_PROTOCOL_MMDVM → setup.fd h = fd →
    ∀ s₁, s.mmdvmIoReadable setup h (input 0) = some s₁ →
      ∀ x ∈ shifts setup h h proto (s₁.rxq h) (input 1).push s₁, x.2.Alive x.1
  | .timers .. => True

/-- A dispatch on the line of a modem completes no frame of DMR data, or there is no memory to
parse or to queue it. -/
def QueuesNoFrame (s : Noisebridge) : BridgeEvent → Prop
  | .readable fd input => ∀ h proto, setup.protos[h]? = some proto →
    proto.type = DMR_PROTOCOL_MMDVM → setup.fd h = fd → ¬ s.QueuesFrame h (input 0)
  | .timers .. => True

variable {setup}

theorem shiftsAlive_iff {s : Noisebridge} (hs : s.Idle setup) (e : BridgeEvent) :
    s.ShiftsAlive setup e ↔ s.QueuesNoFrame setup e := by
  cases e with
  | timers now input => exact Iff.rfl
  | readable fd input =>
    refine forall_congr' fun h => forall_congr' fun proto => forall_congr' fun hproto =>
      forall_congr' fun htype => forall_congr' fun hfd => ?_
    obtain ⟨hqueues, mmdvm, port, q, hread, hdangling⟩ | ⟨hno, hidle⟩ :=
      @mmdvmIoReadable_spec setup h (input 0) s
    · -- the first reference that the poll gets is that of the packet which was freed
      refine iff_of_false (fun halive => ?_) (not_not.mpr hqueues)
      have hqueue : ({ s with mmdvm, port }.enqueue h q).rxq h = [q] :=
        rxq_enqueue (s := { s with mmdvm, port }) (hs.rxq h) q
      have hshift := halive _ hread
      rw [hqueue] at hshift
      have hget := packet?_eq_some_iff.mp (hshift _ List.mem_cons_self)
      change s.heap.get? q.ref = _ at hget
      rw [hdangling] at hget
      cases hget
    · refine iff_of_true (fun s₁ hread x hx => ?_) hno
      obtain ⟨mmdvm, port, rfl⟩ := hidle s₁ hread
      change x ∈ shifts setup h h proto (s.rxq h) _ _ at hx
      rw [hs.rxq h] at hx
      cases hx

/-- **Packets of the modem.** In every run of dispatches the polls get references to packets that
are still there if and only if no dispatch queues a frame of the modem. -/
theorem throughout_shiftsAlive_iff (setup : BridgeSetup) (now : Timeval)
    (homebrew : Nat → DmrHomebrew) (mmdvm : Nat → DmrMmdvm) (events : List BridgeEvent) :
    Throughout (step setup) (ShiftsAlive setup) (start setup now homebrew mmdvm) events ↔
      Throughout (step setup) (QueuesNoFrame setup) (start setup now homebrew mmdvm) events :=
  throughout_congr (fun _ e hs => shiftsAlive_iff hs e) (fun _ _ _ hs hstep => hs.step hstep)
    (idle_start now homebrew mmdvm) events

/-- One modem. -/
def modemSetup : BridgeSetup := smallSetup [⟨"modem", DMR_PROTOCOL_MMDVM⟩] (by decide)

/-- Its line delivers a burst in a frame of 37 bytes. -/
def burstEvent : BridgeEvent :=
  .readable 5 fun _ => smallInput none [.data ([0xe0, 37, 0x18, 0] ++ List.replicate 33 0)]

theorem not_shiftsAlive_burst :
    ¬ Throughout (step modemSetup) (ShiftsAlive modemSetup) (smallStart modemSetup)
      [burstEvent] := by
  intro hall
  have hno := (shiftsAlive_iff (idle_start _ _ _) burstEvent).mp hall.1
  refine hno 0 ⟨"modem", DMR_PROTOCOL_MMDVM⟩ rfl rfl rfl ⟨rfl, rfl, rfl, ?_⟩
  show DataFrame (fun _ => 0) .new [.data ([0xe0, 37, 0x18, 0] ++ List.replicate 33 0)]
  decide +kernel

/-! ## Objects that no one frees -/

/-- The packets that wait in the queues. -/
def waiting (setup : BridgeSetup) (s : Noisebridge) : Nat :=
  ((List.range setup.protos.length).map fun h => (s.rxq h).length).sum

/-- After the dispatch as many objects are allocated as packets wait. -/
def NoLeak (setup : BridgeSetup) (s : Noisebridge) (e : BridgeEvent) : Prop :=
  ∀ s', s.step setup e = some s' → s'.heap.live.card = s'.waiting setup

/-- If the dispatch gets to its end and is one on the socket of a client, the reader gives back
what it takes. -/
def GivesBack (setup : BridgeSetup) (s : Noisebridge) (e : BridgeEvent) : Prop :=
  (s.step setup e).isSome = true →
    match e with
    | .readable fd input => ∀ h proto, setup.protos[h]? = some proto →
      proto.type = DMR_PROTOCOL_HOMEBREW → setup.fd h = fd → (input 0).GivesBack
    | .timers .. => True

theorem Idle.waiting {s : Noisebridge} (hs : s.Idle setup) : s.waiting setup = 0 := by
  refine List.sum_eq_zero fun n hn => ?_
  obtain ⟨h, -, rfl⟩ := List.mem_map.mp hn
  rw [hs.rxq h]
  rfl

/-- The bridge between two dispatches, without anything allocated. -/
structure Clean (setup : BridgeSetup) (s : Noisebridge) : Prop extends s.Idle setup where
  heap : s.heap.live.card = 0

theorem noLeak_iff {s : Noisebridge} (hs : s.Clean setup) (e : BridgeEvent) :
    s.NoLeak setup e ↔ s.GivesBack setup e := by
  unfold NoLeak GivesBack
  cases hstep : s.step setup e with
  | none => exact iff_of_true (fun s' hs' => by cases hs') fun hsome => by cases hsome
  | some s' =>
    have hwaiting : s'.waiting setup = 0 := (hs.toIdle.step hstep).waiting
    have hcount : (∀ s'', some s' = some s'' → s''.heap.live.card = s''.waiting setup) ↔
        s'.heap.live.card = 0 := by
      rw [← hwaiting]
      exact ⟨fun h => h s' rfl, fun h s'' hs'' => by cases hs''; exact h⟩
    rw [hcount]
    refine Iff.trans ?_ (forall_prop_of_true rfl).symm
    cases e with
    | timers now input =>
      obtain ⟨-, -, -, hheap⟩ := timers_spec hs.registered hstep
      rw [hheap]
      exact iff_of_true hs.heap trivial
    | readable fd input =>
      -- nothing is left where no client listens to the descriptor
      have hother : s'.heap = s.heap → (∀ h proto, setup.protos[h]? = some proto →
          proto.type = DMR_PROTOCOL_HOMEBREW → setup.fd h ≠ fd) →
          (s'.heap.live.card = 0 ↔ ∀ h proto, setup.protos[h]? = some proto →
            proto.type = DMR_PROTOCOL_HOMEBREW → setup.fd h = fd → (input 0).GivesBack) := by
        intro hheap hno
        rw [hheap]
        exact iff_of_true hs.heap fun h proto hproto htype hfd =>
          absurd hfd (hno h proto hproto htype)
      obtain ⟨h, proto, hproto, rfl⟩ | hnone := fd_cases setup fd
      · by_cases htype : proto.type = DMR_PROTOCOL_HOMEBREW
        · obtain ⟨-, -, ⟨hback, hheap⟩ | ⟨hback, hlt⟩⟩ :=
            homebrew_dispatch hs.toIdle hproto htype hstep
          · rw [hheap]
            exact iff_of_true hs.heap fun _ _ _ _ _ => hback
          · refine iff_of_false (by omega) fun hall => ?_
            exact hback (hall h proto hproto htype rfl)
        · obtain ⟨-, -, hheap⟩ := mmdvm_dispatch hs.toIdle hproto htype hstep
          refine hother hheap fun h' proto' hproto' htype' hfd => htype ?_
          rw [(BridgeSetup.proto_of_fd hproto hproto' hfd.symm).2]
          exact htype'
      · rw [readable_other hs.registered hnone] at hstep
        cases hstep
        refine hother rfl fun h proto hproto _ => ?_
        exact hnone h (List.getElem?_eq_some_iff.mp hproto).1

theorem Clean.step {s s' : Noisebridge} (hs : s.Clean setup) {e : BridgeEvent}
    (hleak : s.NoLeak setup e) (hstep : s.step setup e = some s') : s'.Clean setup := by
  have hidle := hs.toIdle.step hstep
  exact ⟨hidle, (hleak s' hstep).trans hidle.waiting⟩

/-- **Leaks.** In every run of dispatches as many objects are allocated after each one as packets
wait in the queues if and only if each dispatch on the socket of a client that gets to its end
either lacks memory for the buffer, or receives a datagram of 14 bytes or more from which no packet
is parsed. -/
theorem throughout_noLeak_iff (setup : BridgeSetup) (now : Timeval)
    (homebrew : Nat → DmrHomebrew) (mmdvm : Nat → DmrMmdvm) (events : List BridgeEvent) :
    Throughout (step setup) (NoLeak setup) (start setup now homebrew mmdvm) events ↔
      Throughout (step setup) (GivesBack setup) (start setup now homebrew mmdvm) events := by
  have hstart : (start setup now homebrew mmdvm).Clean setup :=
    ⟨idle_start now homebrew mmdvm, rfl⟩
  constructor
  · refine Throughout.mono (I := Clean setup) (fun s e hs hleak => (noLeak_iff hs e).mp hleak)
      (fun s e s' hs hleak hstep => hs.step hleak hstep) hstart
  · refine Throughout.mono (I := Clean setup) (fun s e hs hback => (noLeak_iff hs e).mpr hback)
      (fun s e s' hs hback hstep => hs.step ((noLeak_iff hs e).mpr hback) hstep) hstart

/-- After a frame was relayed from one client to another, the packet and its clone are still
there. -/
theorem not_noLeak_frame :
    ¬ Throughout (step pairSetup) (NoLeak pairSetup) (smallStart pairSetup) [frameEvent] := by
  intro hall
  have hcount : ((smallStart pairSetup).step pairSetup frameEvent).map
      (fun s => s.heap.live.card) = some 2 := by decide +kernel
  obtain ⟨s, hstep, hcard⟩ := Option.map_eq_some_iff.mp hcount
  have hleak := hall.1 s hstep
  rw [hcard, ((idle_start _ _ _).step hstep).waiting] at hleak
  cases hleak

end Noisebridge

end Dmrlib
