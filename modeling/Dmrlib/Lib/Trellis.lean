import Dmrlib.Lib.Loop

/-!
# Trellis codes

A trellis encoder goes from state to state; the states it goes to are the message, and what it
sends is a label for each edge. Where the edges that leave one state have different labels,
every label received tells the next state, and a decoder only has to follow them: it succeeds
exactly on what an encoder can have sent (`isPath_of_follow`, `follow_of_isPath`).

- `stateAt`: the state before the `i`-th edge.
- `IsPath`: the labels of the edges are the points received.
- `followRound`: one round of the decoder.
- `isPath_of_follow`, `follow_of_isPath`: the decoder finds the path, where there is one.
- `IsPath.unique`: there is no other.
-/

namespace Trellis

open Loop

variable {σ π : Type} {n : Nat}

/-- The state after `k` edges. -/
def stateAt (start : σ) (path : Fin n → σ) : (k : Nat) → k ≤ n → σ
  | 0, _ => start
  | k + 1, hk => path ⟨k, hk⟩

/-- The edges of the path have the labels given. -/
def IsPath (label : σ → σ → π) (start : σ) (points : Fin n → π) (path : Fin n → σ) : Prop :=
  ∀ i : Fin n, label (stateAt start path i i.isLt.le) (path i) = points i

instance [DecidableEq π] (label : σ → σ → π) (start : σ) (points : Fin n → π)
    (path : Fin n → σ) : Decidable (IsPath label start points path) :=
  inferInstanceAs (Decidable (∀ i : Fin n,
    label (stateAt start path i i.isLt.le) (path i) = points i))

/-- A round of the decoder: the path so far, and the state it has come to. -/
def followRound (next : σ → π → Option σ) (points : Fin n → π) (i : Fin n)
    (s : Vector σ n × σ) : Option (Vector σ n × σ) :=
  (next s.2 (points i)).map fun t => (s.1.set i t i.isLt, t)

section Follow

variable {label : σ → σ → π} {next : σ → π → Option σ}
  (hnext : ∀ s p t, next s p = some t ↔ label s t = p)

include hnext

theorem followRound_eq_some {points : Fin n → π} {i : Fin n} {s s' : Vector σ n × σ}
    (h : followRound next points i s = some s') :
    label s.2 s'.2 = points i ∧ s'.1 = s.1.set i s'.2 i.isLt := by
  obtain ⟨t, ht, rfl⟩ := Option.map_eq_some_iff.mp h
  exact ⟨(hnext _ _ _).mp ht, rfl⟩

/-- What the decoder has followed is a path. -/
theorem isPath_of_follow {points : Fin n → π} {path : Vector σ n} {start : σ}
    {s : Vector σ n × σ} (h : tryLoop n (followRound next points) (path, start) = some s) :
    IsPath label start points fun i => getElem s.1 i i.isLt := by
  have hinv := forLoop_inv (f := fun i o => Option.bind o (followRound next points i))
    (s := some (path, start))
    (fun k o => ∀ (hk : k ≤ n) (s : Vector σ n × σ), o = some s →
      (s.2 = stateAt start (fun i => s.1[i]) k hk ∧
        ∀ i : Fin n, i.val < k →
          label (stateAt start (fun i => s.1[i]) i i.isLt.le) s.1[i] = points i))
    ?_ ?_
  · exact fun i => (hinv le_rfl s h).2 i i.isLt
  · rintro hk s hs
    cases hs
    exact ⟨rfl, fun i hi => absurd hi (Nat.not_lt_zero _)⟩
  · rintro i o ih hk s' hs'
    obtain ⟨s, rfl, hround⟩ := Option.bind_eq_some_iff.mp hs'
    obtain ⟨hstate, hpath⟩ := ih i.isLt.le s rfl
    obtain ⟨hlabel, hset⟩ := followRound_eq_some hnext hround
    -- the edges before this one are not written
    have hkeep : ∀ j : Fin n, j.val < i.val → s'.1[j] = s.1[j] := by
      intro j hj
      rw [hset]
      exact Vector.getElem_set_ne _ _ (by omega)
    have hlast : s'.1[i] = s'.2 := by
      rw [hset]
      exact Vector.getElem_set_self _
    have hbefore : ∀ (k : Nat) (hk : k ≤ n), k ≤ i.val →
        stateAt start (fun i => s'.1[i]) k hk = stateAt start (fun i => s.1[i]) k hk := by
      intro k hk hki
      cases k with
      | zero => rfl
      | succ k => exact hkeep ⟨k, hk⟩ hki
    refine ⟨hlast.symm, fun j hj => ?_⟩
    rw [hbefore j j.isLt.le (Nat.le_of_lt_succ hj)]
    obtain hlt | heq := Nat.lt_succ_iff_lt_or_eq.mp hj
    · rw [hkeep j hlt]
      exact hpath j hlt
    · obtain rfl : j = i := Fin.ext heq
      rw [hlast, ← hstate]
      exact hlabel

/-- Where there is a path, the decoder follows it. -/
theorem follow_of_isPath {points : Fin n → π} {start : σ} {t : Fin n → σ}
    (h : IsPath label start points t) (path : Vector σ n) :
    ∃ s, tryLoop n (followRound next points) (path, start) = some s ∧
      ∀ i, getElem s.1 i i.isLt = t i := by
  have hstep : ∀ (i : Fin n) (s : Vector σ n × σ),
      ((∀ hk : i.val ≤ n, s.2 = stateAt start t i hk) ∧ ∀ j : Fin n, j.val < i.val → s.1[j] = t j) →
      ∃ s', followRound next points i s = some s' ∧
        (∀ hk : i.val + 1 ≤ n, s'.2 = stateAt start t (i + 1) hk) ∧
        ∀ j : Fin n, j.val < i.val + 1 → s'.1[j] = t j := by
    rintro i s ⟨hstate, hpath⟩
    have hedge : next s.2 (points i) = some (t i) := by
      rw [hnext, hstate i.isLt.le]
      exact h i
    refine ⟨(s.1.set i (t i), t i), ?_, fun _ => rfl, fun j hj => ?_⟩
    · rw [followRound, hedge]
      rfl
    · by_cases hij : j = i
      · rw [hij]
        exact Vector.getElem_set_self _
      · have hne : i.val ≠ j.val := fun heq => hij (Fin.ext heq.symm)
        exact (Vector.getElem_set_ne i.isLt j.isLt hne).trans (hpath j (by omega))
  obtain ⟨s, hs, -, hpath⟩ := tryLoop_inv (f := followRound next points) (s := (path, start))
    (fun k s => (∀ hk : k ≤ n, s.2 = stateAt start t k hk) ∧
      ∀ i : Fin n, i.val < k → s.1[i] = t i)
    ⟨fun _ => rfl, fun i hi => absurd hi (Nat.not_lt_zero _)⟩ hstep
  exact ⟨s, hs, fun i => hpath i i.isLt⟩

/-- Edges that leave one state have different labels, so there is one path at most. -/
theorem IsPath.unique {points : Fin n → π} {start : σ} {t t' : Fin n → σ}
    (h : IsPath label start points t) (h' : IsPath label start points t') : t = t' := by
  funext i
  have path : Vector σ n := Vector.replicate n (t i)
  obtain ⟨s, hs, ht⟩ := follow_of_isPath hnext h path
  obtain ⟨s', hs', ht'⟩ := follow_of_isPath hnext h' path
  obtain rfl : s = s' := Option.some.inj (hs.symm.trans hs')
  rw [← ht i, ht' i]

/-- The decoder succeeds exactly where there is a path. -/
theorem follow_isSome_iff {points : Fin n → π} {start : σ} (path : Vector σ n) :
    (tryLoop n (followRound next points) (path, start)).isSome ↔
      ∃ t, IsPath label start points t := by
  constructor
  · intro h
    obtain ⟨s, hs⟩ := Option.isSome_iff_exists.mp h
    exact ⟨_, isPath_of_follow hnext hs⟩
  · rintro ⟨t, ht⟩
    obtain ⟨s, hs, -⟩ := follow_of_isPath hnext ht path
    rw [hs]
    rfl

end Follow

end Trellis
