import Dmrlib.Lib.Block

/-!
# Reading lines (`src/cmd/noisebridge/config_getline.c`)

Where the platform has no `getline`, this one reads the configuration and the file of DMR ids.
The buffer grows by 128 bytes when a character no longer fits. Two things are forgotten then:

- `p`, the place of the next character, is set once and not set anew after `realloc`. Where
  `realloc` moves the block, the next character is stored to the memory that was freed.
- The terminating zero is stored without a check of the size: a line that fills the buffer to its
  last byte is terminated behind it.

A reader that comes through gets the lines of the file one by one, and it comes through exactly
when neither happens: `realloc` moves no block that it makes larger, and every line whose length
is a multiple of 128 has a longer one before it.

- `fill`, `getline`: the loop over the characters of a line, and the function.
- `readLines`: the loops of the callers, until `getline` returns -1.
- `Fits`: what has to be so for one line; `getlineInto_eq` is that it has.
- `getline_file_iff`: the result for a file.
-/

namespace Dmrlib

namespace Getline

/-- What the heap has in store: what is in memory that is new, whether there is a block of so
many bytes, and whether a block is moved when `realloc` is to make it that large. -/
structure Memory where
  junk : Nat → UInt8
  allocates : Nat → Bool
  moves : Nat → Bool

/-- What `*lineptr` points to. -/
inductive LinePtr where
  | null
  | block (cells : List UInt8)

/-- `bufptr`, `p` and `size`. -/
structure LineBuf where
  /-- the block at `bufptr` -/
  block : List UInt8
  /-- `p`, counted from where `bufptr` was when `p` was set -/
  pos : Nat
  size : Nat
  /-- whether `p` still points to where the block was before `realloc` moved it -/
  stale : Bool

/-- The `if` in the loop; `none` is a `realloc` without memory. -/
def LineBuf.grow (mem : Memory) (b : LineBuf) : Option LineBuf :=
  -- `size - 1` is a `size_t`
  if b.size ≠ 0 ∧ b.pos > b.size - 1 then
    if mem.allocates (b.size + 128) then
      some { b with
        block := Block.resize mem.junk b.block (b.size + 128)
        size := b.size + 128
        stale := mem.moves (b.size + 128) }
    else none
  else some b

/-- `*p++ = c`, which is no store to the block when `p` is stale. -/
def LineBuf.put (b : LineBuf) (c : UInt8) : Option LineBuf :=
  if b.stale then none
  else (Block.store b.block b.pos c).map fun block => { b with block, pos := b.pos + 1 }

/-- The loop, from the character `c` on: the buffer, whether memory was sufficient, and the
rest of the stream. -/
def fill (mem : Memory) : (stream : List UInt8) → (c : UInt8) → LineBuf →
    Option (LineBuf × Bool × List UInt8)
  | stream, c, b =>
    match b.grow mem with
    | none => some (b, false, stream)
    | some b => do
      let b ← b.put c
      if c = 0x0a then return (b, true, stream)
      else
        match stream with
        | [] => return (b, true, [])
        | c :: stream => fill mem stream c b

/-- The outcome of a call: its return value, `*lineptr` and `*n`, and the stream. -/
structure Result where
  ret : Int
  lineptr : LinePtr
  n : Nat
  stream : List UInt8

/-- `getline` behind the allocation of the first block. Without memory for a larger one, the
block that the caller has stays as it was filled, and one of `getline` itself is lost. -/
def getlineInto (mem : Memory) (lineptr : LinePtr) (n : Nat) (c : UInt8) (stream : List UInt8)
    (b : LineBuf) : Option Result := do
  let (b, enough, stream) ← fill mem stream c b
  if enough then
    let b' ← b.put 0
    return ⟨b.pos, .block b'.block, b'.size, stream⟩
  else
    return ⟨-1, match lineptr with
      | .block _ => .block b.block
      | .null => .null, n, stream⟩

/-- `getline` -/
def getline (mem : Memory) (lineptr : LinePtr) (n : Nat) : (stream : List UInt8) → Option Result
  | [] => some ⟨-1, lineptr, n, []⟩
  | c :: stream =>
    match lineptr with
    | .null =>
      if mem.allocates 128 then
        getlineInto mem .null n c stream ⟨Block.resize mem.junk [] 128, 0, 128, false⟩
      else some ⟨-1, .null, n, stream⟩
    | .block cells => getlineInto mem (.block cells) n c stream ⟨cells, 0, n, false⟩

/-- `while ((ret = getline(&line, &len, fp)) != -1)`: what `line` holds in each round, with the
terminating zero. The body of the loop cuts the line up where it is; `body` is what it leaves. -/
def readLines (mem : Memory) (body : (line : List UInt8) → (i : Nat) → UInt8) :
    (fuel : Nat) → LinePtr → (n : Nat) → (file : List UInt8) → Option (List (List UInt8))
  | 0, _, _, _ => none
  | fuel + 1, lineptr, n, file => do
    let r ← getline mem lineptr n file
    match r.lineptr, r.ret with
    | .block line, .ofNat len =>
      let left := (List.range line.length).map (body line)
      let lines ← readLines mem body fuel (.block left) r.n r.stream
      return line.take (len + 1) :: lines
    | _, _ => return []

/-! ## The lines of a file

A line ends with its newline, and the last one with the file. Joined, the lines are the file.
-/

/-- The lines, each with the newline that ends it. -/
def lines : List UInt8 → List (List UInt8)
  | [] => []
  | c :: s =>
    if c = 0x0a then [c] :: lines s
    else
      match lines s with
      | [] => [[c]]
      | l :: ls => (c :: l) :: ls

theorem flatten_lines (s : List UInt8) : (lines s).flatten = s := by
  induction s with
  | nil => rfl
  | cons c s ih =>
    rw [lines]
    split
    · rw [List.flatten_cons, ih]
      rfl
    · split
      · next hnil =>
        rw [hnil] at ih
        rw [← ih]
        rfl
      · next l ls hcons =>
        rw [hcons] at ih
        rw [← ih]
        rfl

/-- A line is not empty. -/
theorem ne_nil_of_mem_lines {s l : List UInt8} (h : l ∈ lines s) : l ≠ [] := by
  induction s generalizing l with
  | nil => cases h
  | cons c s ih =>
    rw [lines] at h
    split at h
    · obtain rfl | h := List.mem_cons.mp h
      · exact List.cons_ne_nil _ _
      · exact ih h
    · split at h
      · rw [List.mem_singleton.mp h]
        exact List.cons_ne_nil _ _
      · next l' ls hcons =>
        obtain rfl | h := List.mem_cons.mp h
        · exact List.cons_ne_nil _ _
        · exact ih (hcons ▸ List.mem_cons_of_mem l' h)

/-- The first line by its first character: a newline is a line of its own, and any other
character stands in front of what follows, if anything does. -/
theorem lines_cons_cases {c : UInt8} {s l : List UInt8} {ls : List (List UInt8)}
    (h : lines (c :: s) = l :: ls) :
    (c = 0x0a ∧ l = [c] ∧ ls = lines s) ∨
      (c ≠ 0x0a ∧ s = [] ∧ l = [c] ∧ ls = []) ∨
      (c ≠ 0x0a ∧ ∃ l', lines s = l' :: ls ∧ l = c :: l') := by
  rw [lines] at h
  split at h
  · next hc =>
    cases h
    exact .inl ⟨hc, rfl, rfl⟩
  · next hc =>
    split at h
    · next hnil =>
      cases h
      have hflat := flatten_lines s
      rw [hnil] at hflat
      exact .inr (.inl ⟨hc, hflat.symm, rfl, rfl⟩)
    · next l' ls' hcons =>
      cases h
      exact .inr (.inr ⟨hc, l', hcons, rfl⟩)

/-- Where something is left there is a first line, and less is left behind it. -/
theorem exists_lines_cons (c : UInt8) (s : List UInt8) :
    ∃ l ls, lines (c :: s) = l :: ls ∧ 0 < l.length ∧ ls.flatten.length ≤ s.length := by
  have hflat := flatten_lines (c :: s)
  cases hlines : lines (c :: s) with
  | nil =>
    rw [hlines] at hflat
    cases hflat
  | cons l ls =>
    have hl : 0 < l.length :=
      List.length_pos_iff.mpr (ne_nil_of_mem_lines (hlines ▸ List.mem_cons_self))
    have hlength := congrArg List.length hflat
    rw [hlines, List.flatten_cons, List.length_append, List.length_cons] at hlength
    exact ⟨l, ls, rfl, hl, by omega⟩

/-- What is behind the first line has the other lines. -/
theorem lines_rest {s l : List UInt8} {ls : List (List UInt8)} (h : lines s = l :: ls) :
    lines ls.flatten = ls := by
  induction s generalizing l ls with
  | nil => cases h
  | cons c s ih =>
    obtain ⟨-, -, rfl⟩ | ⟨-, -, -, rfl⟩ | ⟨-, l', hcons, -⟩ := lines_cons_cases h
    · rw [flatten_lines]
    · rfl
    · exact ih hcons

/-! ## One line

The condition under which one call comes through, and what it hands on then.
-/

/-- `n` rounded up to what the buffer can be. -/
def roundUp (n : Nat) : Nat := 128 * ((n + 127) / 128)

/-- No `realloc` on the way from a buffer of `n` bytes to one for `len` characters moves it. -/
def Stays (moves : Nat → Bool) (n len : Nat) : Prop :=
  ∀ size, 128 ∣ size → n ≤ size → size < len → moves (size + 128) = false

/-- A line of `len` characters, and the zero behind it, can be stored by way of a buffer of `n`
bytes: it is not moved, and the line does not fill it to the last byte. -/
def Fits (moves : Nat → Bool) (n len : Nat) : Prop :=
  Stays moves n len ∧ ¬ (128 ∣ len ∧ n ≤ len)

/-- One character after the other. -/
theorem stays_iff {moves : Nat → Bool} {n pos : Nat} (hdvd : 128 ∣ n) (hpos : pos ≤ n)
    (len : Nat) : Stays moves n (pos + (len + 1)) ↔
      (pos = n → moves (n + 128) = false) ∧
        Stays moves (max n (roundUp (pos + 1))) (pos + 1 + len) := by
  obtain ⟨k, hk⟩ := hdvd
  constructor
  · intro h
    refine ⟨fun heq => h n ⟨k, hk⟩ le_rfl (by omega), fun size hsize hle hlt => ?_⟩
    exact h size hsize (le_of_max_le_left hle) (by omega)
  · rintro ⟨hfull, hrest⟩ size ⟨m, hm⟩ hle hlt
    by_cases hsame : size = n ∧ pos = n
    · rw [hsame.1]
      exact hfull hsame.2
    · refine hrest size ⟨m, hm⟩ ?_ (by omega)
      unfold roundUp
      omega

/-- The last character. -/
theorem stays_last_iff {moves : Nat → Bool} {n pos : Nat} (hdvd : 128 ∣ n) (hpos : pos ≤ n) :
    Stays moves n (pos + 1) ↔ (pos = n → moves (n + 128) = false) := by
  refine (stays_iff hdvd hpos 0).trans (and_iff_left fun size _ hle hlt => ?_)
  unfold roundUp at hle
  omega

/-- A buffer of the caller, or a new one. -/
structure LineBuf.Ok (b : LineBuf) : Prop where
  length : b.block.length = b.size
  pos : b.pos ≤ b.size
  ne_zero : b.size ≠ 0
  dvd : 128 ∣ b.size
  fresh : b.stale = false

section Line

variable {junk : Nat → UInt8} {moves : Nat → Bool}

/-- A store to the block. -/
theorem LineBuf.put_of_lt {b : LineBuf} (hfresh : b.stale = false) (hlt : b.pos < b.block.length)
    (c : UInt8) : b.put c = some { b with block := b.block.set b.pos c, pos := b.pos + 1 } := by
  rw [LineBuf.put, if_neg (by rw [hfresh]; exact Bool.false_ne_true), Block.store_of_lt hlt]
  rfl

theorem take_set_append {block : List UInt8} {pos : Nat} (hlt : pos < block.length) (c : UInt8) :
    (block.set pos c).take (pos + 1) = block.take pos ++ [c] := by
  rw [List.take_succ_eq_append_getElem (by rwa [List.length_set]), List.getElem_set_self,
    List.take_set_of_le le_rfl]

/-- Where `realloc` moves the block for the next character, the store goes into the block that was
freed. -/
theorem LineBuf.Ok.fill_moved {b : LineBuf} (h : b.Ok) (hfull : b.pos = b.size)
    (hmoves : moves (b.size + 128) = true) (stream : List UInt8) (c : UInt8) :
    fill ⟨junk, fun _ => true, moves⟩ stream c b = none := by
  have hne := h.ne_zero
  have hgrow : b.grow ⟨junk, fun _ => true, moves⟩ = some { b with
      block := Block.resize junk b.block (b.size + 128), size := b.size + 128
      stale := moves (b.size + 128) } := if_pos ⟨hne, by omega⟩
  rw [fill, hgrow]
  simp only [LineBuf.put, hmoves, if_true, Option.bind_eq_bind, Option.bind_none]

/-- Else the character is stored, in a larger buffer if it has to be. -/
theorem LineBuf.Ok.put {b : LineBuf} (h : b.Ok)
    (hstays : b.pos = b.size → moves (b.size + 128) = false) (c : UInt8) :
    ∃ b' b'', b.grow ⟨junk, fun _ => true, moves⟩ = some b' ∧ b'.put c = some b'' ∧ b''.Ok ∧
      b''.pos = b.pos + 1 ∧ b''.block.take b''.pos = b.block.take b.pos ++ [c] ∧
      b''.size = max b.size (roundUp (b.pos + 1)) := by
  obtain ⟨k, hk⟩ := h.dvd
  have hpos := h.pos
  have hne := h.ne_zero
  have hlength := h.length
  unfold LineBuf.grow
  -- a full block grows first, and must not move as `p` would be left behind
  by_cases hfull : b.pos > b.size - 1
  · have hlength' : (Block.resize junk b.block (b.size + 128)).length = b.size + 128 :=
      Block.length_resize _ _ _
    have hlt : b.pos < (Block.resize junk b.block (b.size + 128)).length := by omega
    have hfresh : moves (b.size + 128) = false := hstays (by omega)
    rw [if_pos ⟨hne, hfull⟩]
    refine ⟨_, _, rfl, LineBuf.put_of_lt hfresh hlt c, ⟨?_, ?_, ?_, ?_, hfresh⟩, rfl, ?_, ?_⟩
    · rw [List.length_set, hlength']
    · show b.pos + 1 ≤ b.size + 128
      omega
    · show b.size + 128 ≠ 0
      omega
    · show 128 ∣ b.size + 128
      omega
    · show (List.set _ _ _).take (b.pos + 1) = _
      rw [take_set_append hlt, Block.take_resize junk (by omega) (by omega)]
    · show b.size + 128 = max b.size (roundUp (b.pos + 1))
      unfold roundUp
      omega
  · have hlt : b.pos < b.block.length := by omega
    rw [if_neg fun hand => hfull hand.2]
    refine ⟨b, _, rfl, LineBuf.put_of_lt h.fresh hlt c, ⟨?_, ?_, hne, h.dvd, h.fresh⟩, rfl,
      take_set_append hlt c, ?_⟩
    · rw [List.length_set, hlength]
    · show b.pos + 1 ≤ b.size
      omega
    · show b.size = max b.size (roundUp (b.pos + 1))
      unfold roundUp
      omega

/-- So the loop ends with the character stored, or goes on. -/
theorem LineBuf.Ok.fill_stays {b : LineBuf} (h : b.Ok)
    (hstays : b.pos = b.size → moves (b.size + 128) = false) (c : UInt8) :
    ∃ b', (∀ stream, c = 0x0a ∨ stream = [] →
        fill ⟨junk, fun _ => true, moves⟩ stream c b = some (b', true, stream)) ∧
      (c ≠ 0x0a → ∀ d stream, fill ⟨junk, fun _ => true, moves⟩ (d :: stream) c b =
        fill ⟨junk, fun _ => true, moves⟩ stream d b') ∧
      b'.Ok ∧ b'.pos = b.pos + 1 ∧ b'.block.take b'.pos = b.block.take b.pos ++ [c] ∧
      b'.size = max b.size (roundUp (b.pos + 1)) := by
  obtain ⟨b', b'', hgrow, hput, hok⟩ := @LineBuf.Ok.put junk moves b h hstays c
  refine ⟨b'', fun stream hlast => ?_, fun hc d stream => ?_, hok⟩
  · rw [fill, hgrow]
    simp only [hput, Option.bind_eq_bind, Option.bind_some]
    obtain hc | rfl := hlast
    · exact if_pos hc
    · split <;> rfl
  · rw [fill, hgrow]
    simp only [hput, Option.bind_eq_bind, Option.bind_some]
    exact if_neg hc

/-- The loop reads a line, unless `realloc` moves the block on the way. -/
theorem fill_eq {b : LineBuf} (h : b.Ok) {stream : List UInt8} {c : UInt8} {l : List UInt8}
    {ls : List (List UInt8)} (hlines : lines (c :: stream) = l :: ls) :
    (Stays moves b.size (b.pos + l.length) → ∃ b',
      fill ⟨junk, fun _ => true, moves⟩ stream c b = some (b', true, ls.flatten) ∧ b'.Ok ∧
      b'.pos = b.pos + l.length ∧ b'.block.take b'.pos = b.block.take b.pos ++ l ∧
      b'.size = max b.size (roundUp b'.pos)) ∧
    (¬ Stays moves b.size (b.pos + l.length) →
      fill ⟨junk, fun _ => true, moves⟩ stream c b = none) := by
  -- the induction is on what follows the byte `c`, which is not stored yet
  induction stream generalizing c l b with
  | nil =>
    obtain ⟨rfl, rfl⟩ : l = [c] ∧ ls = [] := by
      obtain ⟨-, hl, hls⟩ | ⟨-, -, hl, hls⟩ | ⟨-, l', hcons, -⟩ := lines_cons_cases hlines
      · exact ⟨hl, hls⟩
      · exact ⟨hl, hls⟩
      · cases hcons
    rw [List.length_singleton, stays_last_iff h.dvd h.pos]
    refine ⟨fun hstays => ?_, fun hmoved => ?_⟩
    · obtain ⟨b', hlast, -, hok, hpos, htake, hsize⟩ :=
        @LineBuf.Ok.fill_stays junk moves b h hstays c
      exact ⟨b', hlast [] (.inr rfl), hok, hpos, htake, by rw [hsize, hpos]⟩
    · rw [Classical.not_imp, Bool.not_eq_false] at hmoved
      exact h.fill_moved hmoved.1 hmoved.2 [] c
  | cons d stream ih =>
    by_cases hstays : b.pos = b.size → moves (b.size + 128) = false
    · obtain ⟨b', hlast, hnext, hok, hpos, htake, hsize⟩ :=
        @LineBuf.Ok.fill_stays junk moves b h hstays c
      -- the line ends here, or goes on with the next byte
      obtain ⟨hc, rfl, rfl⟩ | ⟨-, hnil, -⟩ | ⟨hc, l', hcons, rfl⟩ := lines_cons_cases hlines
      · rw [List.length_singleton, stays_last_iff h.dvd h.pos, flatten_lines]
        refine ⟨fun _ => ?_, absurd hstays⟩
        exact ⟨b', hlast _ (.inl hc), hok, hpos, htake, by rw [hsize, hpos]⟩
      · cases hnil
      · obtain ⟨ihstays, ihmoved⟩ := ih hok hcons
        rw [hpos, hsize] at ihstays ihmoved
        rw [List.length_cons, stays_iff h.dvd h.pos, and_iff_right hstays, hnext hc]
        refine ⟨fun hrest => ?_, ihmoved⟩
        obtain ⟨b₁, hfill, hok', hpos', htake', hsize'⟩ := ihstays hrest
        refine ⟨b₁, hfill, hok', by omega, ?_, ?_⟩
        · rw [htake', ← hpos, htake, List.append_assoc]
          rfl
        · rw [hsize']
          unfold roundUp
          omega
    -- a line has a character, so it does not get past this one
    · have hlength : 0 < l.length :=
        List.length_pos_iff.mpr (ne_nil_of_mem_lines (hlines ▸ List.mem_cons_self))
      refine ⟨fun hall => absurd (fun hfull => ?_) hstays, fun _ => ?_⟩
      · exact hall b.size h.dvd le_rfl (by omega)
      · rw [Classical.not_imp, Bool.not_eq_false] at hstays
        exact h.fill_moved hstays.1 hstays.2 (d :: stream) c

/-- The zero is stored behind what the loop has read. -/
theorem getlineInto_of_fill {mem : Memory} {lineptr : LinePtr} {n : Nat} {c : UInt8}
    {stream rest : List UInt8} {b b' : LineBuf}
    (h : fill mem stream c b = some (b', true, rest)) :
    getlineInto mem lineptr n c stream b =
      (b'.put 0).map fun b'' => ⟨b'.pos, .block b''.block, b''.size, rest⟩ := by
  rw [getlineInto, h, Option.map_eq_bind]
  rfl

/-- A line is read where it fits. -/
theorem getlineInto_eq {lineptr : LinePtr} {n : Nat} {b : LineBuf} (h : b.Ok) (hpos : b.pos = 0)
    {stream : List UInt8} {c : UInt8} {l : List UInt8} {ls : List (List UInt8)}
    (hlines : lines (c :: stream) = l :: ls) :
    (¬ Fits moves b.size l.length →
      getlineInto ⟨junk, fun _ => true, moves⟩ lineptr n c stream b = none) ∧
    (Fits moves b.size l.length → ∃ block,
      getlineInto ⟨junk, fun _ => true, moves⟩ lineptr n c stream b =
        some ⟨l.length, .block block, max b.size (roundUp l.length), ls.flatten⟩ ∧
      block.take (l.length + 1) = l ++ [0] ∧
      block.length = max b.size (roundUp l.length)) := by
  obtain ⟨hstays, hmoved⟩ := @fill_eq junk moves b h _ _ _ _ hlines
  rw [hpos, Nat.zero_add] at hstays hmoved
  by_cases hstay : Stays moves b.size l.length
  · obtain ⟨b', hfill, hok, hpos', htake, hsize⟩ := hstays hstay
    rw [List.take_zero, List.nil_append, hpos'] at htake
    rw [hpos'] at hsize
    have hlength := hok.length
    obtain ⟨k, hk⟩ := h.dvd
    have hcurrent : ¬ b'.stale = true := Bool.eq_false_iff.mp hok.fresh
    rw [getlineInto_of_fill hfill, LineBuf.put, if_neg hcurrent, hpos', Fits,
      and_iff_right hstay, not_not]
    constructor
    -- the line fills its block, so the zero behind it has no place
    · rintro ⟨⟨m, hm⟩, hle⟩
      have hfull : b'.block.length ≤ l.length := by
        rw [hlength, hsize]
        unfold roundUp
        omega
      rw [Block.store_of_le hfull]
      rfl
    · intro hroom
      have hlt : l.length < b'.block.length := by
        rw [hlength, hsize]
        unfold roundUp
        by_contra hge
        exact hroom ⟨⟨(l.length + 127) / 128, by omega⟩, by omega⟩
      refine ⟨b'.block.set l.length 0, ?_, ?_, ?_⟩
      · rw [Block.store_of_lt hlt]
        show some (Result.mk _ _ b'.size _) = _
        rw [hsize]
      · rw [take_set_append hlt, htake]
      · rw [List.length_set, hlength, hsize]
  · refine ⟨fun _ => ?_, fun hfits => absurd hfits.1 hstay⟩
    rw [getlineInto, hmoved hstay]
    rfl

end Line

/-! ## All lines

The calls share one block, which never shrinks: the condition is about the lines before as well.
-/

/-- Every line fits into the buffer, which has `n` bytes before the first of them. -/
def FitsFrom (moves : Nat → Bool) : (n : Nat) → List (List UInt8) → Prop
  | _, [] => True
  | n, l :: ls => Fits moves n l.length ∧ FitsFrom moves (max n (roundUp l.length)) ls

/-- The buffer is larger than a full one only where a longer line was read into it; and it is not
made as large twice. -/
theorem fitsFrom_iff {moves : Nat → Bool} {n : Nat} {ls : List (List UInt8)} :
    FitsFrom moves n ls ↔ (∀ l ∈ ls, Stays moves n l.length) ∧
      ∀ pre l post, ls = pre ++ l :: post → 128 ∣ l.length →
        l.length < n ∨ ∃ l' ∈ pre, l.length < l'.length := by
  induction ls generalizing n with
  | nil =>
    refine iff_of_true trivial ⟨List.forall_mem_nil _, fun pre l post hsplit => ?_⟩
    cases pre <;> cases hsplit
  | cons l ls ih =>
    have hround : ∀ l' : List UInt8, 128 ∣ l'.length →
        (l'.length < max n (roundUp l.length) ↔ l'.length < n ∨ l'.length < l.length) := by
      rintro l' ⟨k, hk⟩
      unfold roundUp
      omega
    -- what is asked of the sizes up to that of `l` is asked by `l` itself
    have hstays : Stays moves n l.length → ∀ l' : List UInt8,
        (Stays moves (max n (roundUp l.length)) l'.length ↔ Stays moves n l'.length) := by
      refine fun hstay l' => ⟨fun h size hdvd hle hlt => ?_, fun h size hdvd hle => ?_⟩
      · by_cases hlarge : max n (roundUp l.length) ≤ size
        · exact h size hdvd hlarge hlt
        · obtain ⟨k, hk⟩ := hdvd
          unfold roundUp at hlarge
          exact hstay size ⟨k, hk⟩ hle (by omega)
      · exact h size hdvd (le_of_max_le_left hle)
    rw [FitsFrom, ih, List.forall_mem_cons]
    constructor
    · rintro ⟨⟨hstay, hroom⟩, hrest, hlonger⟩
      refine ⟨⟨hstay, fun l' hl' => (hstays hstay l').mp (hrest l' hl')⟩, ?_⟩
      intro pre l' post hsplit hdvd
      cases pre with
      | nil =>
        obtain ⟨rfl, rfl⟩ := List.cons.inj hsplit
        exact .inl (Nat.not_le.mp fun hle => hroom ⟨hdvd, hle⟩)
      | cons l₀ pre =>
        obtain ⟨rfl, htail⟩ := List.cons.inj hsplit
        obtain hlt | ⟨l₁, hmem, hlt⟩ := hlonger pre l' post htail hdvd
        · obtain hlt | hlt := (hround l' hdvd).mp hlt
          · exact .inl hlt
          · exact .inr ⟨l, List.mem_cons_self, hlt⟩
        · exact .inr ⟨l₁, List.mem_cons_of_mem l hmem, hlt⟩
    · rintro ⟨⟨hstay, hrest⟩, h⟩
      refine ⟨⟨hstay, ?_⟩, fun l' hl' => (hstays hstay l').mpr (hrest l' hl'), ?_⟩
      · rintro ⟨hdvd, hle⟩
        obtain hlt | ⟨l', hmem, -⟩ := h [] l ls rfl hdvd
        · exact Nat.not_lt.mpr hle hlt
        · cases hmem
      · intro pre l' post hsplit hdvd
        obtain hlt | ⟨l₁, hmem, hlt⟩ := h (l :: pre) l' post (by rw [hsplit]; rfl) hdvd
        · exact .inl ((hround l' hdvd).mpr (.inl hlt))
        · obtain rfl | hmem := List.mem_cons.mp hmem
          · exact .inl ((hround l' hdvd).mpr (.inr hlt))
          · exact .inr ⟨l₁, hmem, hlt⟩

section File

variable {junk : Nat → UInt8} {moves : Nat → Bool} {body : List UInt8 → Nat → UInt8}

/-- A call takes the first line, whether the buffer is there already or not. -/
theorem getline_eq {lineptr : LinePtr} {n size : Nat} {c : UInt8} {stream l : List UInt8}
    {ls : List (List UInt8)}
    (hptr : lineptr = .null ∧ size = 128 ∨
      ∃ cells, lineptr = .block cells ∧ cells.length = size ∧ n = size ∧ size ≠ 0 ∧ 128 ∣ size)
    (hlines : lines (c :: stream) = l :: ls) :
    (¬ Fits moves size l.length →
      getline ⟨junk, fun _ => true, moves⟩ lineptr n (c :: stream) = none) ∧
    (Fits moves size l.length → ∃ block,
      getline ⟨junk, fun _ => true, moves⟩ lineptr n (c :: stream) =
        some ⟨l.length, .block block, max size (roundUp l.length), ls.flatten⟩ ∧
      block.take (l.length + 1) = l ++ [0] ∧
      block.length = max size (roundUp l.length)) := by
  obtain ⟨rfl, rfl⟩ | ⟨cells, rfl, hlength, rfl, hne, hdvd⟩ := hptr
  · have hok : (LineBuf.mk (Block.resize junk [] 128) 0 128 false).Ok :=
      ⟨Block.length_resize _ _ _, Nat.zero_le _, Nat.succ_ne_zero 127, dvd_rfl, rfl⟩
    exact @getlineInto_eq junk moves .null n _ hok rfl _ _ _ _ hlines
  · have hok : (LineBuf.mk cells 0 n false).Ok := ⟨hlength, Nat.zero_le _, hne, hdvd, rfl⟩
    exact @getlineInto_eq junk moves (.block cells) n _ hok rfl _ _ _ _ hlines

/-- The induction is on what is left of the file; the buffer only grows. -/
theorem readLines_eq {lineptr : LinePtr} {n size fuel : Nat} {file : List UInt8}
    (hptr : lineptr = .null ∧ size = 128 ∨
      ∃ cells, lineptr = .block cells ∧ cells.length = size ∧ n = size ∧ size ≠ 0 ∧ 128 ∣ size)
    (hfuel : file.length < fuel) :
    (FitsFrom moves size (lines file) →
      readLines ⟨junk, fun _ => true, moves⟩ body fuel lineptr n file =
        some ((lines file).map (· ++ [0]))) ∧
    (¬ FitsFrom moves size (lines file) →
      readLines ⟨junk, fun _ => true, moves⟩ body fuel lineptr n file = none) := by
  -- each call takes a line out of the file, so the file gets shorter
  induction fuel generalizing lineptr n size file with
  | zero => exact absurd hfuel (Nat.not_lt_zero _)
  | succ fuel ih =>
    cases file with
    | nil =>
      refine ⟨fun _ => ?_, fun h => absurd trivial h⟩
      cases lineptr <;> rfl
    | cons c stream =>
      obtain ⟨l, ls, hlines, hl, hle⟩ := exists_lines_cons c stream
      rw [hlines]
      have hrest : ls.flatten.length < fuel := by
        rw [List.length_cons] at hfuel
        omega
      obtain ⟨hfull, hroom⟩ := @getline_eq junk moves _ n _ _ _ _ _ hptr hlines
      by_cases hfit : Fits moves size l.length
      · obtain ⟨block, hgetline, htake, hlength⟩ := hroom hfit
        have hsize : size ≠ 0 ∧ 128 ∣ size := by
          obtain ⟨-, rfl⟩ | ⟨-, -, -, -, hne, hdvd⟩ := hptr
          · decide
          · exact ⟨hne, hdvd⟩
        -- what the caller passes back is the block of the last call, with its size
        have hdvd : 128 ∣ max size (roundUp l.length) := by
          obtain ⟨k, hk⟩ := hsize.2
          unfold roundUp
          omega
        have hne : max size (roundUp l.length) ≠ 0 := by omega
        have hleft : ((List.range block.length).map (body block)).length =
            max size (roundUp l.length) := by
          rw [List.length_map, List.length_range, hlength]
        obtain ⟨ihfit, ihfull⟩ := ih (.inr ⟨_, rfl, hleft, rfl, hne, hdvd⟩) hrest
        rw [lines_rest hlines] at ihfit ihfull
        rw [readLines, hgetline]
        constructor
        · rintro ⟨-, hfits⟩
          show (readLines _ body fuel _ _ _).bind _ = _
          rw [ihfit hfits, Option.bind_some, htake]
          rfl
        · intro hnot
          show (readLines _ body fuel _ _ _).bind _ = _
          rw [ihfull fun hfits => hnot ⟨hfit, hfits⟩]
          rfl
      · refine ⟨fun h => absurd h.1 hfit, fun _ => ?_⟩
        rw [readLines, hfull hfit]
        rfl

/-- **A file is read** iff `realloc` moves the block for none of its lines, and each line whose
length is a multiple of 128 has a longer one before it; and then `line` holds in each round the
next line, terminated. -/
theorem getline_file_iff (junk : Nat → UInt8) (moves : Nat → Bool)
    (body : List UInt8 → Nat → UInt8) (n : Nat) (file : List UInt8)
    (rounds : List (List UInt8)) :
    readLines ⟨junk, fun _ => true, moves⟩ body (file.length + 1) .null n file = some rounds ↔
      rounds = (lines file).map (· ++ [0]) ∧
      (∀ l ∈ lines file, ∀ size, 128 ∣ size → 0 < size → size < l.length →
        moves (size + 128) = false) ∧
      ∀ pre l post, lines file = pre ++ l :: post → 128 ∣ l.length →
        ∃ l' ∈ pre, l.length < l'.length := by
  -- the two conditions on the lines, as the run of `getline` meets them
  have hfits : FitsFrom moves 128 (lines file) ↔
      (∀ l ∈ lines file, ∀ size, 128 ∣ size → 0 < size → size < l.length →
        moves (size + 128) = false) ∧
      ∀ pre l post, lines file = pre ++ l :: post → 128 ∣ l.length →
        ∃ l' ∈ pre, l.length < l'.length := by
    rw [fitsFrom_iff]
    refine and_congr ?_ ?_
    · refine forall_congr' fun l => forall_congr' fun _ => forall_congr' fun size =>
        forall_congr' fun hdvd => imp_congr_left ⟨fun h => by omega, fun h => ?_⟩
      exact Nat.le_of_dvd h hdvd
    · refine forall_congr' fun pre => forall_congr' fun l => forall_congr' fun post =>
        forall_congr' fun hsplit => forall_congr' fun hdvd => ⟨fun h => ?_, .inr⟩
      have hmem : l ∈ lines file := by
        rw [hsplit]
        exact List.mem_append_right pre List.mem_cons_self
      have hl : 0 < l.length := List.length_pos_iff.mpr (ne_nil_of_mem_lines hmem)
      refine h.resolve_left fun hlt => ?_
      obtain ⟨k, hk⟩ := hdvd
      omega
  obtain ⟨hread, hcrash⟩ := @readLines_eq junk moves body .null n 128 _ file (.inl ⟨rfl, rfl⟩)
    (Nat.lt_succ_self file.length)
  rw [← hfits]
  constructor
  · intro h
    by_cases hfit : FitsFrom moves 128 (lines file)
    · rw [hread hfit] at h
      exact ⟨(Option.some.inj h).symm, hfit⟩
    · rw [hcrash hfit] at h
      cases h
  · rintro ⟨rfl, hfit⟩
    exact hread hfit

end File

end Getline

end Dmrlib
