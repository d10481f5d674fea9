import Dmrlib.Lib.NodeList
import Dmrlib.Lib.Run

/-!
# Sweeps over a linked list

A sweep works on every node of a linked list that has a property `p`, in order, one
event for each. It may remove the node it has worked on, or change its content, as
long as the nodes ahead stay what they are; nodes that `kept` are only changed within
`same`. Then the sweep comes to an end (`Sweep.ends`), and before that it comes to
every node ahead that has the property (`Sweep.reaches`).

- `Sweep`: the conditions on one round.
- `Sweep.ends`: after a number of rounds the sweep is over.
- `Sweep.reaches`: before that, one of them ends at a given node ahead.
- `Sweep.visits`: the same from the event that begins the sweep, for any node of the list.
-/

open Run

/-- Event `e` takes a system from one node of the sweep to the next. `At s o` says
that the system in state `s` is at the node `o`, with its saved successor, or, for
`none`, through with the sweep. -/
structure Sweep {σ ε α : Type*} (step : σ → ε → Option σ) (e : ε) (cells : σ → List (ℕ × α))
    (p kept : α → Bool) (same : α → α → Prop) (At : σ → Option (ℕ × Option ℕ) → Prop) :
    Prop where
  refl : ∀ v, same v v
  trans : ∀ u v w, same u v → same v w → same u w
  kept_same : ∀ u v, same u v → kept u = true → kept v = true
  round : ∀ s pre c rest, cells s = pre ++ c :: rest →
    At s (some (c.1, rest.head?.map Prod.fst)) →
    ∃ s', step s e = some s' ∧ At s' (NodeList.seek p rest) ∧
      ∃ pre', cells s' = pre' ++ rest ∧
        ∀ d ∈ pre ++ [c], kept d.2 = true → ∃ v, (d.1, v) ∈ pre' ∧ same d.2 v

namespace Sweep

variable {σ ε α : Type*} {step : σ → ε → Option σ} {e : ε} {cells : σ → List (ℕ × α)}
  {p kept : α → Bool} {same : α → α → Prop} {At : σ → Option (ℕ × Option ℕ) → Prop}

/-- What is kept in one list is there in the other, up to `same`. -/
def Keeps (kept : α → Bool) (same : α → α → Prop) (l l' : List (ℕ × α)) : Prop :=
  ∀ c ∈ l, kept c.2 = true → ∃ v, (c.1, v) ∈ l' ∧ same c.2 v

theorem Keeps.trans (h : Sweep step e cells p kept same At) {l l' l'' : List (ℕ × α)}
    (h₁ : Keeps kept same l l') (h₂ : Keeps kept same l' l'') : Keeps kept same l l'' := by
  intro c hc hkept
  obtain ⟨v, hv, hsame⟩ := h₁ c hc hkept
  obtain ⟨w, hw, hsame'⟩ := h₂ _ hv (h.kept_same _ _ hsame hkept)
  exact ⟨w, hw, h.trans _ _ _ hsame hsame'⟩

/-- A round that removes a node which is not kept, or changes it within `same`. -/
theorem keeps_append (hrefl : ∀ v, same v v) {pre : List (ℕ × α)} {c : ℕ × α} {v : α}
    {gone : Bool} (hgone : kept c.2 = !gone) (hsame : same c.2 v) :
    Keeps kept same (pre ++ [c]) (if gone then pre else pre ++ [(c.1, v)]) := by
  intro d hd hkept
  rcases List.mem_append.mp hd with hd | hd
  · refine ⟨d.2, ?_, hrefl d.2⟩
    split
    · exact hd
    · exact List.mem_append_left _ hd
  · obtain rfl := List.mem_singleton.mp hd
    rw [hgone, Bool.not_eq_true'] at hkept
    rw [hkept, if_neg Bool.false_ne_true]
    exact ⟨v, List.mem_append_right _ List.mem_cons_self, hsame⟩

/-- One round keeps what is to be kept. -/
theorem keeps_round (h : Sweep step e cells p kept same At) {l l' pre pre' rest : List (ℕ × α)}
    {c : ℕ × α} (hl : l = pre ++ c :: rest) (hl' : l' = pre' ++ rest)
    (hkept : ∀ d ∈ pre ++ [c], kept d.2 = true → ∃ v, (d.1, v) ∈ pre' ∧ same d.2 v) :
    Keeps kept same l l' := by
  intro d hd hdkept
  subst hl hl'
  rw [List.append_cons, List.mem_append] at hd
  rcases hd with hd | hd
  · obtain ⟨v, hv, hsame⟩ := hkept d hd hdkept
    exact ⟨v, List.mem_append_left _ hv, hsame⟩
  · exact ⟨d.2, List.mem_append_right _ hd, h.refl d.2⟩

/-- **A sweep ends**, and what is to be kept is still there. -/
theorem ends (h : Sweep step e cells p kept same At) {s : σ} {pre rest : List (ℕ × α)}
    {c : ℕ × α} (hcells : cells s = pre ++ c :: rest)
    (hat : At s (some (c.1, rest.head?.map Prod.fst))) :
    ∃ n s', after step s (List.replicate n e) = some s' ∧ At s' none ∧
      Keeps kept same (cells s) (cells s') := by
  -- the induction is on the nodes ahead
  induction hlen : rest.length using Nat.strong_induction_on generalizing s pre c rest with
  | _ len ih =>
    obtain ⟨s', hstep, hat', pre', hcells', hkept⟩ := h.round s pre c rest hcells hat
    have hkeeps := h.keeps_round hcells hcells' hkept
    rcases NodeList.seek_cases p rest with ⟨hnone, -⟩ | ⟨mid, d, rest', rfl, -, -, hsome⟩
    · refine ⟨1, s', ?_, hnone ▸ hat', hkeeps⟩
      rw [List.replicate_one, after, hstep]
      rfl
    · rw [hsome] at hat'
      have hlt : rest'.length < len := by
        rw [← hlen, List.length_append, List.length_cons]
        omega
      rw [← List.append_assoc] at hcells'
      obtain ⟨n, t, ht, hend, hkeeps'⟩ := ih _ hlt hcells' hat' rfl
      refine ⟨n + 1, t, ?_, hend, hkeeps.trans h hkeeps'⟩
      rw [List.replicate_succ, after, hstep]
      exact ht

/-- **A sweep comes to every node** that is ahead of it and has the property. -/
theorem reaches (h : Sweep step e cells p kept same At) {s : σ} {pre rest : List (ℕ × α)}
    {c : ℕ × α} (hcells : cells s = pre ++ c :: rest)
    (hat : At s (some (c.1, rest.head?.map Prod.fst))) {d : ℕ × α} (hd : d ∈ rest)
    (hp : p d.2 = true) :
    ∃ n s' s'' pre' rest', after step s (List.replicate n e) = some s' ∧ (∃ o, At s' (some o)) ∧
      step s' e = some s'' ∧ cells s'' = pre' ++ d :: rest' ∧
      At s'' (some (d.1, rest'.head?.map Prod.fst)) := by
  induction hlen : rest.length using Nat.strong_induction_on generalizing s pre c rest with
  | _ len ih =>
    obtain ⟨s', hstep, hat', pre', hcells', -⟩ := h.round s pre c rest hcells hat
    -- either the next node is the one, or it is behind that
    rcases NodeList.seek_cases p rest with ⟨-, hall⟩ | ⟨mid, d', rest', rfl, hmid, -, hsome⟩
    · rw [hall d hd] at hp
      cases hp
    · rw [hsome] at hat'
      rw [← List.append_assoc] at hcells'
      rcases List.mem_append.mp hd with hd | hd
      · rw [hmid d hd] at hp
        cases hp
      · rcases List.mem_cons.mp hd with rfl | hd
        · exact ⟨0, s, s', _, rest', rfl, ⟨_, hat⟩, hstep, hcells', hat'⟩
        · have hlt : rest'.length < len := by
            rw [← hlen, List.length_append, List.length_cons]
            omega
          obtain ⟨n, t, t', pre'', rest'', ht, hmid', ht', hcells'', hat''⟩ :=
            ih _ hlt hcells' hat' hd rfl
          refine ⟨n + 1, t, t', pre'', rest'', ?_, hmid', ht', hcells'', hat''⟩
          rw [List.replicate_succ, after, hstep]
          exact ht

/-- A sweep that event `e₀` begins, at the first node with the property, comes to every
node with the property: by `e₀` itself, or by one of the events `e` that follow it. -/
theorem visits (h : Sweep step e cells p kept same At) {s s' : σ} {e₀ : ε}
    (hstep : step s e₀ = some s') (hat : At s' (NodeList.seek p (cells s'))) {d : ℕ × α}
    (hd : d ∈ cells s') (hp : p d.2 = true) :
    ∃ es t e' t' pre' rest', (∀ e'' ∈ es, e'' = e₀ ∨ e'' = e) ∧ after step s es = some t ∧
      step t e' = some t' ∧ cells t' = pre' ++ d :: rest' ∧
      At t' (some (d.1, rest'.head?.map Prod.fst)) ∧
      (t = s ∧ e' = e₀ ∨ (∃ o, At t (some o)) ∧ e' = e) := by
  rcases NodeList.seek_cases p (cells s') with ⟨-, hall⟩ | ⟨pre, c, rest, hcells, hpre, -, hsome⟩
  · rw [hall d hd] at hp
    cases hp
  · rw [hsome] at hat
    rw [hcells, List.mem_append, List.mem_cons] at hd
    rcases hd with hd | rfl | hd
    · rw [hpre d hd] at hp
      cases hp
    · exact ⟨[], s, e₀, s', pre, rest, fun _ hmem => (nomatch hmem), rfl, hstep, hcells, hat,
        .inl ⟨rfl, rfl⟩⟩
    · obtain ⟨n, t, t', pre', rest', ht, hmid, ht', hcells', hat'⟩ := h.reaches hcells hat hd hp
      refine ⟨e₀ :: List.replicate n e, t, e, t', pre', rest', ?_, ?_, ht', hcells', hat',
        .inr ⟨hmid, rfl⟩⟩
      · intro e'' hmem
        exact (List.mem_cons.mp hmem).imp_right List.eq_of_mem_replicate
      · rw [after, hstep]
        exact ht

end Sweep
