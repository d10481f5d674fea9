import Mathlib

/-!
# Paths and where they lead

A path is a string over some alphabet, with a separator and a dot. Resolving it lexically
yields the names of the directories on the way from the root: an empty piece and `.` stay
where they are, `..` goes up, anything else goes down.

The strings of two resolved paths are compared in two ways. `Below` asks for the string of
the upper one, then a separator: this is `R <+: S` on the names (`below_render_iff`). To be
a prefix of the other string is a weaker condition, which holds of the siblings as well whose
last name begins with that of the upper one (`render_prefix_iff`).

- `IsName`, `Name`: a piece that names something.
- `resolve`, `render`: from a path to names, and from names to the path that is canonical.
- `Below`, `below_render_iff`: the comparison that is right.
- `LongerSibling`, `render_prefix_iff`: what else the other one lets through.
- `render_injective`: a resolved path has one string only.
-/

namespace Paths

universe u

variable {α : Type u} [DecidableEq α] (sep dot : α)

/-- The string names an entry of a directory. -/
def IsName (s : List α) : Prop := s ≠ [] ∧ sep ∉ s ∧ s ≠ [dot] ∧ s ≠ [dot, dot]

instance (s : List α) : Decidable (IsName sep dot s) := by
  unfold IsName
  infer_instance

/-- The name of an entry of a directory. -/
abbrev Name := { s : List α // IsName sep dot s }

/-- The string cut at the separators. -/
def pieces : List α → List (List α)
  | [] => [[]]
  | c :: p =>
    if c = sep then [] :: pieces p
    else
      match pieces p with
      | [] => [[c]]
      | s :: rest => (c :: s) :: rest

/-- One piece of a path, taken in the directory `dir`. -/
def walk (dir : List (Name sep dot)) (piece : List α) : List (Name sep dot) :=
  if h : IsName sep dot piece then dir ++ [⟨piece, h⟩]
  else if piece = [dot, dot] then dir.dropLast
  else dir

/-- The directory or file that a path leads to, from the directory `cwd`. -/
def resolve (cwd : List (Name sep dot)) (path : List α) : List (Name sep dot) :=
  (pieces sep path).foldl (walk sep dot) (if path.head? = some sep then [] else cwd)

/-- The names, each behind a separator. -/
def body (dir : List (Name sep dot)) : List α := dir.flatMap fun n => sep :: n.val

/-- The absolute path, without a separator at its end, except for the root. -/
def render (dir : List (Name sep dot)) : List α := if dir = [] then [sep] else body sep dot dir

/-- `file` is `root`, or lies below it. -/
def Below (root file : List α) : Prop :=
  file = root ∨ root ++ [sep] <+: file ∨ root = [sep] ∧ [sep] <+: file

variable {sep dot}

/-! ## Cutting and resolving -/

theorem pieces_ne_nil (p : List α) : pieces sep p ≠ [] := by
  cases p with
  | nil => simp [pieces]
  | cons c p =>
    rw [pieces]
    split
    · simp
    · split <;> simp

theorem pieces_append_sep (a b : List α) :
    pieces sep (a ++ sep :: b) = pieces sep a ++ pieces sep b := by
  induction a with
  | nil => simp [pieces]
  | cons c a ih =>
    rw [List.cons_append, pieces, pieces, ih]
    by_cases hc : c = sep
    · rw [if_pos hc, if_pos hc, List.cons_append]
    · rw [if_neg hc, if_neg hc]
      cases hpieces : pieces sep a with
      | nil => exact absurd hpieces (pieces_ne_nil a)
      | cons s rest => rfl

/-- Without a separator there is one piece. -/
theorem pieces_of_notMem {s : List α} (h : sep ∉ s) : pieces sep s = [s] := by
  induction s with
  | nil => rfl
  | cons c s ih =>
    rw [List.mem_cons, not_or] at h
    rw [pieces, if_neg (Ne.symm h.1), ih h.2]

theorem pieces_append_body (dir : List (Name sep dot)) {s : List α} (h : sep ∉ s) :
    pieces sep (s ++ body sep dot dir) = s :: dir.map Subtype.val := by
  induction dir generalizing s with
  | nil => simpa [body] using pieces_of_notMem h
  | cons n dir ih =>
    have hbody : s ++ body sep dot (n :: dir) = s ++ sep :: (n.val ++ body sep dot dir) := by
      simp [body]
    rw [hbody, pieces_append_sep, pieces_of_notMem h, ih n.property.2.1, List.map_cons]
    rfl

/-- Walking along names goes down. -/
theorem foldl_walk_names (dir names : List (Name sep dot)) :
    (names.map Subtype.val).foldl (walk sep dot) dir = dir ++ names := by
  induction names generalizing dir with
  | nil => simp
  | cons n names ih =>
    have hwalk : walk sep dot dir n.val = dir ++ [n] := dif_pos n.property
    rw [List.map_cons, List.foldl_cons, hwalk, ih, List.append_assoc]
    rfl

theorem walk_nil (dir : List (Name sep dot)) : walk sep dot dir [] = dir := by
  simp [walk, IsName]

/-- An absolute path leads to where it was taken from. -/
theorem foldl_walk_render (dir : List (Name sep dot)) :
    (pieces sep (render sep dot dir)).foldl (walk sep dot) [] = dir := by
  unfold render
  split
  · next hnil => simp [pieces, walk_nil, hnil]
  · have hpieces := pieces_append_body dir (List.not_mem_nil (a := sep))
    rw [List.nil_append] at hpieces
    rw [hpieces, List.foldl_cons, walk_nil, foldl_walk_names, List.nil_append]

omit [DecidableEq α] in
theorem head?_render (dir : List (Name sep dot)) : (render sep dot dir).head? = some sep := by
  cases dir with
  | nil => rfl
  | cons n dir => simp [render, body]

/-- A path behind a directory is taken in that directory. -/
theorem resolve_render_append (cwd dir : List (Name sep dot)) (p : List α) :
    resolve sep dot cwd (render sep dot dir ++ sep :: p) =
      (pieces sep p).foldl (walk sep dot) dir := by
  have hhead : (render sep dot dir ++ sep :: p).head? = some sep := by
    rw [List.head?_append, head?_render]
    rfl
  rw [resolve, if_pos hhead, pieces_append_sep, List.foldl_append, foldl_walk_render]

/-! ## Prefixes of absolute paths -/

/-- `s` lies in a sibling of `dir` whose name begins with the last name of `dir` and goes on. -/
def LongerSibling (dir s : List (Name sep dot)) : Prop :=
  ∃ parent n m rest, dir = parent ++ [n] ∧ s = parent ++ m :: rest ∧ n.val <+: m.val ∧ n ≠ m

omit [DecidableEq α] in
/-- What follows a name in an absolute path is nothing or begins with a separator. -/
theorem body_cases (dir : List (Name sep dot)) :
    dir = [] ∧ body sep dot dir = [] ∨ dir ≠ [] ∧ ∃ p, body sep dot dir = sep :: p := by
  cases dir with
  | nil => exact .inl ⟨rfl, rfl⟩
  | cons n dir => exact .inr ⟨by simp, n.val ++ body sep dot dir, by simp [body]⟩

omit [DecidableEq α] in
/-- A name that is cut off by a separator has to agree as a whole … -/
theorem append_sep_prefix_iff {n m x y : List α} (hn : sep ∉ n) (hm : sep ∉ m)
    (hy : y = [] ∨ ∃ p, y = sep :: p) : n ++ sep :: x <+: m ++ y ↔ n = m ∧ sep :: x <+: y := by
  induction n generalizing m with
  | nil =>
    cases m with
    | nil => simp
    | cons c m =>
      rw [List.mem_cons, not_or] at hm
      refine iff_of_false (fun h => ?_) (by simp)
      exact hm.1 (List.cons_prefix_cons.mp h).1
  | cons c n ih =>
    rw [List.mem_cons, not_or] at hn
    cases m with
    | nil =>
      refine iff_of_false (fun h => ?_) (by simp)
      obtain rfl | ⟨p, rfl⟩ := hy
      · simp at h
      · exact hn.1 (List.cons_prefix_cons.mp h).1.symm
    | cons c' m =>
      rw [List.mem_cons, not_or] at hm
      rw [List.cons_append, List.cons_append, List.cons_prefix_cons, ih hn.2 hm.2,
        List.cons.injEq, and_assoc]

omit [DecidableEq α] in
/-- … and one at the end need only begin the other. -/
theorem prefix_append_iff {n m y : List α} (hn : sep ∉ n) (hy : y = [] ∨ ∃ p, y = sep :: p) :
    n <+: m ++ y ↔ n <+: m := by
  induction n generalizing m with
  | nil => simp
  | cons c n ih =>
    rw [List.mem_cons, not_or] at hn
    cases m with
    | nil =>
      refine iff_of_false (fun h => ?_) (by simp)
      obtain rfl | ⟨p, rfl⟩ := hy
      · simp at h
      · exact hn.1 (List.cons_prefix_cons.mp h).1.symm
    | cons c' m =>
      rw [List.cons_append, List.cons_prefix_cons, List.cons_prefix_cons, ih hn.2]

omit [DecidableEq α] in
theorem longerSibling_cons {n m : Name sep dot} {dir s : List (Name sep dot)} :
    LongerSibling (n :: dir) (m :: s) ↔
      dir = [] ∧ n.val <+: m.val ∧ n ≠ m ∨ n = m ∧ LongerSibling dir s := by
  constructor
  · rintro ⟨parent, n', m', rest, hdir, hs, hpre, hne⟩
    cases parent with
    | nil =>
      cases hdir
      cases hs
      exact .inl ⟨rfl, hpre, hne⟩
    | cons c parent =>
      cases hdir
      cases hs
      exact .inr ⟨rfl, parent, n', m', rest, rfl, rfl, hpre, hne⟩
  · rintro (⟨rfl, hpre, hne⟩ | ⟨rfl, parent, n', m', rest, rfl, rfl, hpre, hne⟩)
    · exact ⟨[], n, m, s, rfl, rfl, hpre, hne⟩
    · exact ⟨n :: parent, n', m', rest, rfl, rfl, hpre, hne⟩

omit [DecidableEq α] in
theorem body_prefix_iff (dir s : List (Name sep dot)) :
    body sep dot dir <+: body sep dot s ↔ dir <+: s ∨ LongerSibling dir s := by
  induction dir generalizing s with
  | nil => exact iff_of_true List.nil_prefix (.inl List.nil_prefix)
  | cons n dir ih =>
    have hn := n.property.2.1
    cases s with
    | nil =>
      refine iff_of_false (by simp [body]) ?_
      rintro (h | ⟨parent, n', m', rest, -, hs, -⟩)
      · simp at h
      · simp at hs
    | cons m s =>
      have hbody : ∀ (n : Name sep dot) dir, body sep dot (n :: dir) =
          sep :: (n.val ++ body sep dot dir) := by simp [body]
      rw [hbody, hbody, List.cons_prefix_cons, List.cons_prefix_cons, longerSibling_cons,
        and_iff_right rfl]
      have htail : body sep dot s = [] ∨ ∃ p, body sep dot s = sep :: p :=
        (body_cases s).imp And.right And.right
      obtain ⟨rfl, hnil⟩ | ⟨hne, p, hp⟩ := body_cases dir
      · -- the last name of the upper path
        rw [hnil, List.append_nil, prefix_append_iff hn htail]
        constructor
        · intro hpre
          by_cases hnm : n = m
          · exact .inl ⟨hnm, List.nil_prefix⟩
          · exact .inr (.inl ⟨rfl, hpre, hnm⟩)
        · rintro (⟨rfl, -⟩ | ⟨-, hpre, -⟩ | ⟨-, parent, n', m', rest, hdir, -⟩)
          · exact List.prefix_rfl
          · exact hpre
          · simp at hdir
      · rw [hp, append_sep_prefix_iff hn m.property.2.1 htail, ← hp, ih, Subtype.ext_iff]
        simp only [hne, false_and, false_or]
        exact and_or_left

omit [DecidableEq α] in
theorem body_append_sep_prefix_iff (dir s : List (Name sep dot)) :
    body sep dot dir ++ [sep] <+: body sep dot s ↔ dir <+: s ∧ dir ≠ s := by
  induction dir generalizing s with
  | nil =>
    cases s with
    | nil => simp [body]
    | cons m s => simp [body]
  | cons n dir ih =>
    cases s with
    | nil => simp [body]
    | cons m s =>
      have hbody : ∀ (n : Name sep dot) dir, body sep dot (n :: dir) =
          sep :: (n.val ++ body sep dot dir) := by simp [body]
      have htail : body sep dot s = [] ∨ ∃ p, body sep dot s = sep :: p :=
        (body_cases s).imp And.right And.right
      -- with the separator behind it, every name has to agree as a whole
      obtain ⟨p, hp⟩ : ∃ p, body sep dot dir ++ [sep] = sep :: p := by
        obtain ⟨-, hnil⟩ | ⟨-, p, hp⟩ := body_cases dir
        · exact ⟨[], by rw [hnil]; rfl⟩
        · exact ⟨p ++ [sep], by rw [hp]; rfl⟩
      rw [hbody, hbody, List.cons_append, List.append_assoc, List.cons_prefix_cons,
        List.cons_prefix_cons, hp, append_sep_prefix_iff n.property.2.1 m.property.2.1 htail, ← hp,
        ih, and_iff_right rfl, ← Subtype.ext_iff]
      constructor
      · rintro ⟨rfl, hpre, hne⟩
        exact ⟨⟨rfl, hpre⟩, fun h => hne (List.cons.inj h).2⟩
      · rintro ⟨⟨rfl, hpre⟩, hne⟩
        exact ⟨rfl, hpre, fun h => hne (h ▸ rfl)⟩

/-! ## Two ways to compare -/

omit [DecidableEq α] in
theorem render_root : render sep dot [] = [sep] := rfl

omit [DecidableEq α] in
theorem render_of_ne_nil {dir : List (Name sep dot)} (h : dir ≠ []) :
    render sep dot dir = body sep dot dir := if_neg h

omit [DecidableEq α] in
theorem sep_prefix_render (s : List (Name sep dot)) : [sep] <+: render sep dot s := by
  have hhead := head?_render s
  cases hs : render sep dot s with
  | nil => simp [hs] at hhead
  | cons c p =>
    rw [hs] at hhead
    cases hhead
    exact ⟨p, rfl⟩

omit [DecidableEq α] in
/-- Two names at least go into a string that is longer than the root's. -/
theorem not_render_prefix_root {dir : List (Name sep dot)} (h : dir ≠ []) :
    ¬ body sep dot dir <+: [sep] := by
  cases dir with
  | nil => exact absurd rfl h
  | cons n dir =>
    have hne := n.property.1
    intro hpre
    have hlen := hpre.length_le
    have hpos : 0 < n.val.length := List.length_pos_of_ne_nil hne
    simp only [body, List.flatMap_cons, List.length_append, List.length_cons,
      List.length_nil] at hlen
    omega

omit [DecidableEq α] in
/-- The string of one path begins that of another that lies below it or in a sibling with a
longer name. -/
theorem render_prefix_iff (dir s : List (Name sep dot)) :
    render sep dot dir <+: render sep dot s ↔ dir <+: s ∨ LongerSibling dir s := by
  by_cases hdir : dir = []
  · subst hdir
    exact iff_of_true (sep_prefix_render s) (.inl List.nil_prefix)
  by_cases hs : s = []
  · subst hs
    rw [render_of_ne_nil hdir, render_root]
    refine iff_of_false (not_render_prefix_root hdir) ?_
    rintro (h | ⟨parent, n, m, rest, -, h, -⟩)
    · exact hdir (List.prefix_nil.mp h)
    · simp at h
  · rw [render_of_ne_nil hdir, render_of_ne_nil hs, body_prefix_iff]

theorem render_injective : Function.Injective (render sep dot) := by
  intro dir s h
  rw [← foldl_walk_render dir, h, foldl_walk_render]

/-- Lying below is the prefix order on the names. -/
theorem below_render_iff (dir s : List (Name sep dot)) :
    Below sep (render sep dot dir) (render sep dot s) ↔ dir <+: s := by
  unfold Below
  rw [render_injective.eq_iff]
  by_cases hdir : dir = []
  · subst hdir
    exact iff_of_true (.inr (.inr ⟨rfl, sep_prefix_render s⟩)) List.nil_prefix
  have hroot : ¬ render sep dot dir = [sep] := fun h =>
    hdir (render_injective (h.trans render_root.symm))
  rw [and_iff_left (sep_prefix_render s), or_iff_left hroot, render_of_ne_nil hdir]
  by_cases hs : s = []
  · subst hs
    rw [render_root]
    refine iff_of_false ?_ fun h => hdir (List.prefix_nil.mp h)
    rintro (h | h)
    · exact hdir h.symm
    · exact not_render_prefix_root hdir ((List.prefix_append _ _).trans h)
  · rw [render_of_ne_nil hs, body_append_sep_prefix_iff]
    constructor
    · rintro (rfl | h)
      · exact List.prefix_rfl
      · exact h.1
    · intro h
      by_cases heq : dir = s
      · exact .inl heq.symm
      · exact .inr ⟨h, heq⟩

omit [DecidableEq α] in
/-- The two are never the case at once. -/
theorem LongerSibling.not_prefix {dir s : List (Name sep dot)} (h : LongerSibling dir s) :
    ¬ dir <+: s := by
  obtain ⟨parent, n, m, rest, rfl, rfl, -, hne⟩ := h
  rw [List.prefix_append_right_inj, List.cons_prefix_cons]
  exact fun h => hne h.1

end Paths
