import Dmrlib.Lib.Run

/-!
# Fields that are assigned once

A reader of `key = value` lines that is to refuse a second assignment of a key often keeps no
record of the keys it has seen and looks at the field: a field that is `busy` has been assigned.
The rule is right for a sequence of assignments as long as no field is busy from the start and
every value that is assigned makes its field busy, or comes last (`oneEach_iff`).

- `assign`: an assignment, which is refused where the field is busy.
- `OneEach`: the first assignment of each key is accepted and the second is refused.
- `Fits`: the condition, on the values alone.
-/

namespace Assignments

open Run

variable {κ ω α : Type} [DecidableEq κ] (key : α → κ) (value : α → ω) (busy : κ → ω → Bool)

/-- An assignment, which a busy field refuses. -/
def assign (fields : κ → ω) (a : α) : Option (κ → ω) :=
  if busy (key a) (fields (key a)) then none else some (Function.update fields (key a) (value a))

/-- The first assignment of each key is accepted and stays, and the next one of a key that has
been assigned is refused. -/
def OneEach (fields : κ → ω) (as : List α) : Prop :=
  ∀ pre a post, as = pre ++ a :: post → (pre.map key).Nodup →
    if key a ∈ pre.map key then
      (after (assign key value busy) fields pre).isSome ∧
        after (assign key value busy) fields (pre ++ [a]) = none
    else ∃ fields', after (assign key value busy) fields (pre ++ [a]) = some fields' ∧
      ∀ b ∈ pre ++ [a], fields' (key b) = value b

/-- No key is assigned whose field is busy from the start, and a value that is followed by
another one of its key makes its field busy. -/
def Fits (fields : κ → ω) (as : List α) : Prop :=
  ∀ pre a post, as = pre ++ a :: post → (pre.map key).Nodup →
    if key a ∈ pre.map key then ∀ b ∈ pre, key b = key a → busy (key b) (value b) = true
    else busy (key a) (fields (key a)) = false

variable {key value busy}

theorem assign_eq_some_iff {fields fields' : κ → ω} {a : α} :
    assign key value busy fields a = some fields' ↔
      busy (key a) (fields (key a)) = false ∧
        Function.update fields (key a) (value a) = fields' := by
  unfold assign
  cases busy (key a) (fields (key a)) <;> simp

theorem assign_eq_none_iff {fields : κ → ω} {a : α} :
    assign key value busy fields a = none ↔ busy (key a) (fields (key a)) = true := by
  unfold assign
  cases busy (key a) (fields (key a)) <;> simp

/-- What assignments of different keys leave behind. -/
theorem after_assign {fields fields' : κ → ω} {as : List α} (hnodup : (as.map key).Nodup)
    (h : after (assign key value busy) fields as = some fields') :
    (∀ b ∈ as, fields' (key b) = value b) ∧ ∀ k ∉ as.map key, fields' k = fields k := by
  induction as generalizing fields with
  | nil =>
    cases h
    exact ⟨fun b hb => (nomatch hb), fun _ _ => rfl⟩
  | cons a as ih =>
    rw [List.map_cons, List.nodup_cons] at hnodup
    obtain ⟨fields₁, hassign, h⟩ := Option.bind_eq_some_iff.mp h
    obtain ⟨-, rfl⟩ := assign_eq_some_iff.mp hassign
    obtain ⟨hassigned, hothers⟩ := ih hnodup.2 h
    refine ⟨List.forall_mem_cons.mpr ⟨?_, hassigned⟩, fun k hk => ?_⟩
    · rw [hothers _ hnodup.1, Function.update_self]
    · rw [List.map_cons, List.mem_cons, not_or] at hk
      rw [hothers k hk.2, Function.update_of_ne hk.1]

/-- Assignments of different keys to fields that are not busy are accepted. -/
theorem exists_after_assign {fields : κ → ω} {as : List α} (hnodup : (as.map key).Nodup)
    (h : ∀ b ∈ as, busy (key b) (fields (key b)) = false) :
    ∃ fields', after (assign key value busy) fields as = some fields' := by
  induction as generalizing fields with
  | nil => exact ⟨fields, rfl⟩
  | cons a as ih =>
    rw [List.map_cons, List.nodup_cons] at hnodup
    obtain ⟨ha, has⟩ := List.forall_mem_cons.mp h
    have hstep : assign key value busy fields a =
        some (Function.update fields (key a) (value a)) := assign_eq_some_iff.mpr ⟨ha, rfl⟩
    have hfields₁ : ∀ b ∈ as,
        busy (key b) (Function.update fields (key a) (value a) (key b)) = false := by
      intro b hb
      have hne : key b ≠ key a := by
        intro heq
        refine hnodup.1 ?_
        rw [← heq]
        exact List.mem_map_of_mem hb
      rw [Function.update_of_ne hne]
      exact has b hb
    obtain ⟨fields', hfields'⟩ := ih hnodup.2 hfields₁
    refine ⟨fields', ?_⟩
    rw [after, hstep]
    exact hfields'

theorem after_concat (fields : κ → ω) (pre : List α) (a : α) :
    after (assign key value busy) fields (pre ++ [a]) =
      (after (assign key value busy) fields pre).bind fun fields' =>
        assign key value busy fields' a := by
  rw [after_append]
  refine Option.bind_congr fun fields' _ => ?_
  exact Option.bind_fun_some _

theorem OneEach.fits {fields : κ → ω} {as : List α} (h : OneEach key value busy fields as) :
    Fits key value busy fields as := by
  intro pre a post has hnodup
  have hone := h pre a post has hnodup
  rw [after_concat] at hone
  by_cases hmem : key a ∈ pre.map key
  · rw [if_pos hmem] at hone ⊢
    obtain ⟨hsome, hnone⟩ := hone
    obtain ⟨fields', hfields'⟩ := Option.isSome_iff_exists.mp hsome
    rw [hfields', Option.bind_some, assign_eq_none_iff] at hnone
    intro b hb heq
    rw [← (after_assign hnodup hfields').1 b hb, heq]
    exact hnone
  · rw [if_neg hmem] at hone ⊢
    obtain ⟨fields', hsome, -⟩ := hone
    obtain ⟨fields₁, hfields₁, hassign⟩ := Option.bind_eq_some_iff.mp hsome
    rw [← (after_assign hnodup hfields₁).2 _ hmem]
    exact (assign_eq_some_iff.mp hassign).1

theorem Fits.oneEach {fields : κ → ω} {as : List α} (h : Fits key value busy fields as) :
    OneEach key value busy fields as := by
  intro pre a post has hnodup
  -- none of the fields assigned so far was busy
  have hfree : ∀ b ∈ pre, busy (key b) (fields (key b)) = false := by
    intro b hb
    obtain ⟨pre₁, pre₂, rfl⟩ := List.append_of_mem hb
    rw [List.map_append, List.map_cons, List.nodup_append] at hnodup
    obtain ⟨hnodup₁, -, hne⟩ := hnodup
    have hfits := h pre₁ b (pre₂ ++ a :: post) (by rw [has, List.append_assoc]; rfl) hnodup₁
    rwa [if_neg fun hmem => hne _ hmem _ List.mem_cons_self rfl] at hfits
  obtain ⟨fields₁, hfields₁⟩ := exists_after_assign hnodup hfree
  obtain ⟨hassigned, hothers⟩ := after_assign hnodup hfields₁
  have hfits := h pre a post has hnodup
  rw [after_concat, hfields₁, Option.bind_some]
  by_cases hmem : key a ∈ pre.map key
  · rw [if_pos hmem] at hfits ⊢
    obtain ⟨b, hb, heq⟩ := List.mem_map.mp hmem
    refine ⟨rfl, assign_eq_none_iff.mpr ?_⟩
    rw [← heq, hassigned b hb]
    exact hfits b hb heq
  · rw [if_neg hmem] at hfits ⊢
    refine ⟨_, assign_eq_some_iff.mpr ⟨(hothers _ hmem).symm ▸ hfits, rfl⟩, fun b hb => ?_⟩
    obtain hb | hb := List.mem_append.mp hb
    · have hne : key b ≠ key a := fun heq => hmem (heq ▸ List.mem_map_of_mem hb)
      rw [Function.update_of_ne hne, hassigned b hb]
    · rw [List.mem_singleton.mp hb, Function.update_self]

theorem oneEach_iff {fields : κ → ω} {as : List α} :
    OneEach key value busy fields as ↔ Fits key value busy fields as :=
  ⟨OneEach.fits, Fits.oneEach⟩

end Assignments
