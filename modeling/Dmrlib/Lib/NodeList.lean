import Mathlib

/-!
# Linked lists with removal while iterating

An intrusive linked list seen from outside: its nodes in order, each with its
address and content. Addresses are never used twice, so an address that is not in
the list is that of a node that was freed, and a program that follows it has left
what its language defines.

The loop of a "safe" iteration reads the successor of a node before it works on
the node. `seek` is that loop up to the first node it has work for, with the
successor it has read; `suffix` is where it goes on from a saved address, if the
node there is still in the list.

- `NodeList`: the list, with the number of addresses used so far.
- `insertHead`, `remove`, `modify`: the operations.
- `seek`, `seek_cases`: the search for the next node with work.
- `Later`: a list that has come out of another: what is old in it was there.
-/

/-- A linked list: nodes by address, in order, and the next fresh address. -/
structure NodeList (α : Type*) where
  cells : List (ℕ × α)
  brk : ℕ
  lt_brk : ∀ c ∈ cells, c.1 < brk
  nodup : (cells.map Prod.fst).Nodup

namespace NodeList

variable {α : Type*}

def empty : NodeList α := ⟨[], 0, fun _ hc => (nomatch hc), List.nodup_nil⟩

/-- A new node in front. -/
def insertHead (l : NodeList α) (v : α) : NodeList α where
  cells := (l.brk, v) :: l.cells
  brk := l.brk + 1
  lt_brk c hc := by
    rcases List.mem_cons.mp hc with rfl | hc
    · exact Nat.lt_succ_self _
    · exact Nat.lt_succ_of_lt (l.lt_brk c hc)
  nodup := by
    rw [List.map_cons, List.nodup_cons]
    refine ⟨fun hmem => ?_, l.nodup⟩
    obtain ⟨c, hc, heq⟩ := List.mem_map.mp hmem
    exact Nat.lt_irrefl _ (heq ▸ l.lt_brk c hc)

/-- The list without the node at `a`. -/
def remove (l : NodeList α) (a : ℕ) : NodeList α where
  cells := l.cells.filter fun c => c.1 ≠ a
  brk := l.brk
  lt_brk c hc := l.lt_brk c (List.mem_of_mem_filter hc)
  nodup := l.nodup.sublist (List.filter_sublist.map _)

/-- The list with the content of the node at `a` changed. -/
def modify (l : NodeList α) (a : ℕ) (f : α → α) : NodeList α where
  cells := l.cells.map fun c => (c.1, if c.1 = a then f c.2 else c.2)
  brk := l.brk
  lt_brk c hc := by
    obtain ⟨c, hc', rfl⟩ := List.mem_map.mp hc
    exact l.lt_brk c hc'
  nodup := by
    rw [List.map_map]
    exact l.nodup

/-- The content of the node at `a`, if it is in the list. -/
def get? (l : NodeList α) (a : ℕ) : Option α := (l.cells.find? fun c => c.1 = a).map Prod.snd

/-- The address of the first node whose content satisfies `p`. -/
def find? (l : NodeList α) (p : α → Bool) : Option ℕ :=
  (l.cells.find? fun c => p c.2).map Prod.fst

/-- The nodes from address `a` on, if it is in the list. -/
def suffix (l : NodeList α) (a : ℕ) : Option (List (ℕ × α)) :=
  match l.cells.dropWhile fun c => c.1 ≠ a with
  | [] => none
  | cells => some cells

/-- The first node with property `p`, and the successor saved for it. -/
def seek (p : α → Bool) : List (ℕ × α) → Option (ℕ × Option ℕ)
  | [] => none
  | c :: cells => if p c.2 then some (c.1, cells.head?.map Prod.fst) else seek p cells

/-! ## What is in the list -/

theorem mem_insertHead {l : NodeList α} {v : α} {c : ℕ × α} :
    c ∈ (l.insertHead v).cells ↔ c = (l.brk, v) ∨ c ∈ l.cells :=
  List.mem_cons

theorem mem_remove {l : NodeList α} {a : ℕ} {c : ℕ × α} :
    c ∈ (l.remove a).cells ↔ c ∈ l.cells ∧ c.1 ≠ a := by
  unfold remove
  rw [List.mem_filter, decide_eq_true_iff]

theorem length_insertHead (l : NodeList α) (v : α) :
    (l.insertHead v).cells.length = l.cells.length + 1 := rfl

theorem length_modify (l : NodeList α) (a : ℕ) (f : α → α) :
    (l.modify a f).cells.length = l.cells.length :=
  List.length_map _

/-- Changing contents moves no node. -/
theorem exists_mem_modify {l : NodeList α} {a b : ℕ} {f : α → α} :
    (∃ v, (b, v) ∈ (l.modify a f).cells) ↔ ∃ v, (b, v) ∈ l.cells := by
  constructor
  · rintro ⟨v, hv⟩
    obtain ⟨c, hc, heq⟩ := List.mem_map.mp hv
    cases heq
    exact ⟨c.2, hc⟩
  · rintro ⟨v, hv⟩
    exact ⟨_, List.mem_map_of_mem hv⟩

theorem mem_modify {l : NodeList α} {a : ℕ} {v : α} (h : (a, v) ∈ l.cells) (f : α → α) :
    (a, f v) ∈ (l.modify a f).cells := by
  refine List.mem_map.mpr ⟨(a, v), h, ?_⟩
  show (a, if a = a then f v else v) = (a, f v)
  rw [if_pos rfl]

/-- An address determines its node. -/
theorem eq_of_address (l : NodeList α) {c c' : ℕ × α} (hc : c ∈ l.cells) (hc' : c' ∈ l.cells)
    (h : c.1 = c'.1) : c = c' :=
  List.inj_on_of_nodup_map l.nodup hc hc' h

theorem length_remove (l : NodeList α) {c : ℕ × α} (hc : c ∈ l.cells) :
    (l.remove c.1).cells.length + 1 = l.cells.length := by
  classical
  have hcells : (l.remove c.1).cells = l.cells.erase c := by
    have hnodup : l.cells.Nodup := l.nodup.of_map
    rw [hnodup.erase_eq_filter]
    refine List.filter_congr fun c' hc' => ?_
    have hiff : c'.1 = c.1 ↔ c' = c := ⟨l.eq_of_address hc' hc, fun h => h ▸ rfl⟩
    by_cases h : c' = c <;> simp [hiff, h]
  have hpos : 0 < l.cells.length := List.length_pos_of_mem hc
  rw [hcells, List.length_erase_of_mem hc]
  omega

theorem get?_eq_some_iff {l : NodeList α} {a : ℕ} {v : α} :
    l.get? a = some v ↔ (a, v) ∈ l.cells := by
  unfold get?
  constructor
  · intro h
    obtain ⟨c, hc, rfl⟩ := Option.map_eq_some_iff.mp h
    have ha : c.1 = a := by simpa using List.find?_some hc
    exact ha ▸ List.mem_of_find?_eq_some hc
  · intro h
    cases hc : l.cells.find? fun c => c.1 = a with
    | none => simpa using List.find?_eq_none.mp hc _ h
    | some c =>
      have ha : c.1 = a := by simpa using List.find?_some hc
      rw [l.eq_of_address (List.mem_of_find?_eq_some hc) h ha]
      rfl

theorem find?_eq_some {l : NodeList α} {p : α → Bool} {a : ℕ} (h : l.find? p = some a) :
    ∃ v, (a, v) ∈ l.cells ∧ p v = true := by
  obtain ⟨c, hc, rfl⟩ := Option.map_eq_some_iff.mp h
  have hp : p c.2 = true := by simpa using List.find?_some hc
  exact ⟨c.2, List.mem_of_find?_eq_some hc, hp⟩

/-- Removing the first node with property `p` is erasing it … -/
theorem eraseP_of_find?_some {l : NodeList α} {p : α → Bool} {a : ℕ} (h : l.find? p = some a) :
    l.cells.eraseP (fun c => p c.2) = (l.remove a).cells := by
  obtain ⟨c, hc, rfl⟩ := Option.map_eq_some_iff.mp h
  show _ = l.cells.filter fun c' => c'.1 ≠ c.1
  have hnodup := l.nodup
  generalize l.cells = cells at hc hnodup
  induction cells with
  | nil => cases hc
  | cons c' cells ih =>
    rw [List.map_cons, List.nodup_cons] at hnodup
    rw [List.find?_cons] at hc
    cases hp : p c'.2 with
    | true =>
      rw [hp] at hc
      cases hc
      have hrest : cells.filter (fun c' => decide (c'.1 ≠ c.1)) = cells := by
        refine List.filter_eq_self.mpr fun d hd => decide_eq_true fun heq => hnodup.1 ?_
        exact heq ▸ List.mem_map_of_mem hd
      rw [List.eraseP_cons, hp, List.filter_cons_of_neg (by simp), hrest]
      rfl
    | false =>
      rw [hp] at hc
      have hmem : c.1 ∈ cells.map Prod.fst := List.mem_map_of_mem (List.mem_of_find?_eq_some hc)
      have hne : c'.1 ≠ c.1 := fun heq => hnodup.1 (heq ▸ hmem)
      rw [List.eraseP_cons, hp, List.filter_cons_of_pos (by simpa using hne), ← ih hc hnodup.2]
      rfl

/-- … and nothing is erased where there is none. -/
theorem eraseP_of_find?_none {l : NodeList α} {p : α → Bool} (h : l.find? p = none) :
    l.cells.eraseP (fun c => p c.2) = l.cells := by
  have hnone := List.find?_eq_none.mp (Option.map_eq_none_iff.mp h)
  exact List.eraseP_of_forall_not hnone

theorem dropWhile_of_suffix {l : NodeList α} {a : ℕ} {cells : List (ℕ × α)}
    (h : l.suffix a = some cells) : l.cells.dropWhile (fun c => c.1 ≠ a) = cells := by
  unfold suffix at h
  split at h
  · cases h
  · exact Option.some.inj h

theorem exists_append_of_suffix {l : NodeList α} {a : ℕ} {cells : List (ℕ × α)}
    (h : l.suffix a = some cells) : ∃ ahead, l.cells = ahead ++ cells := by
  obtain ⟨ahead, hahead⟩ := List.dropWhile_suffix (l := l.cells) fun c => c.1 ≠ a
  exact ⟨ahead, by rw [← hahead, dropWhile_of_suffix h]⟩

/-- Iteration can go on at a node exactly when it is still in the list. -/
theorem isSome_suffix_iff {l : NodeList α} {a : ℕ} :
    (l.suffix a).isSome = true ↔ ∃ v, (a, v) ∈ l.cells := by
  unfold suffix
  cases hdrop : l.cells.dropWhile (fun c => c.1 ≠ a) with
  | nil =>
    have hall := List.dropWhile_eq_nil_iff.mp hdrop
    refine iff_of_false Bool.false_ne_true ?_
    rintro ⟨v, hv⟩
    simpa using hall _ hv
  | cons c cells =>
    have hc : c ∈ l.cells := (List.dropWhile_suffix _).subset (hdrop ▸ List.mem_cons_self)
    have ha : c.1 = a := by
      have hne : l.cells.dropWhile (fun c => c.1 ≠ a) ≠ [] := by
        rw [hdrop]
        exact List.cons_ne_nil _ _
      have hhead := List.head_dropWhile_not (fun c : ℕ × α => decide (c.1 ≠ a)) hne
      simp only [hdrop, List.head_cons] at hhead
      simpa using hhead
    exact iff_of_true rfl ⟨c.2, ha ▸ hc⟩

/-! ## Around one node -/

section Around

variable {l : NodeList α} {pre rest : List (ℕ × α)} {c : ℕ × α}

theorem ne_of_append (h : l.cells = pre ++ c :: rest) :
    (∀ d ∈ pre, d.1 ≠ c.1) ∧ ∀ d ∈ rest, d.1 ≠ c.1 := by
  have hnodup := l.nodup
  rw [h, List.map_append, List.map_cons, List.nodup_append, List.nodup_cons] at hnodup
  obtain ⟨-, ⟨hrest, -⟩, hpre⟩ := hnodup
  constructor
  · intro d hd
    exact hpre _ (List.mem_map_of_mem hd) _ List.mem_cons_self
  · intro d hd heq
    exact hrest (heq ▸ List.mem_map_of_mem hd)

/-- The successor of a node is another node. -/
theorem head_ne_of_append (h : l.cells = pre ++ c :: rest) :
    rest.head?.map Prod.fst ≠ some c.1 := by
  intro hhead
  obtain ⟨d, hd, heq⟩ := Option.map_eq_some_iff.mp hhead
  exact (ne_of_append h).2 d (List.mem_of_head? hd) heq

theorem suffix_append (h : l.cells = pre ++ c :: rest) : l.suffix c.1 = some (c :: rest) := by
  obtain ⟨hpre, -⟩ := ne_of_append h
  have hdrop : l.cells.dropWhile (fun d => d.1 ≠ c.1) = c :: rest := by
    rw [h, List.dropWhile_append_of_pos fun d hd => decide_eq_true (hpre d hd)]
    exact List.dropWhile_cons_of_neg (by simp)
  unfold suffix
  rw [hdrop]

theorem remove_append (h : l.cells = pre ++ c :: rest) : (l.remove c.1).cells = pre ++ rest := by
  obtain ⟨hpre, hrest⟩ := ne_of_append h
  show l.cells.filter (fun d => decide (d.1 ≠ c.1)) = pre ++ rest
  rw [h, List.filter_append, List.filter_cons_of_neg (by simp),
    List.filter_eq_self.mpr fun d hd => decide_eq_true (hpre d hd),
    List.filter_eq_self.mpr fun d hd => decide_eq_true (hrest d hd)]

theorem modify_append (h : l.cells = pre ++ c :: rest) (f : α → α) :
    (l.modify c.1 f).cells = pre ++ (c.1, f c.2) :: rest := by
  obtain ⟨hpre, hrest⟩ := ne_of_append h
  have hsame : ∀ cells : List (ℕ × α), (∀ d ∈ cells, d.1 ≠ c.1) →
      cells.map (fun d => (d.1, if d.1 = c.1 then f d.2 else d.2)) = cells := by
    intro cells hne
    conv_rhs => rw [← List.map_id cells]
    exact List.map_congr_left fun d hd => by rw [if_neg (hne d hd)]; rfl
  show l.cells.map (fun d => (d.1, if d.1 = c.1 then f d.2 else d.2)) = _
  rw [h, List.map_append, List.map_cons, hsame pre hpre, hsame rest hrest, if_pos rfl]

end Around

/-- The loop finds nothing, or stops at the first node it has work for. -/
theorem seek_cases (p : α → Bool) (cells : List (ℕ × α)) :
    (seek p cells = none ∧ ∀ c ∈ cells, p c.2 = false) ∨
      ∃ pre c rest, cells = pre ++ c :: rest ∧ (∀ d ∈ pre, p d.2 = false) ∧ p c.2 = true ∧
        seek p cells = some (c.1, rest.head?.map Prod.fst) := by
  induction cells with
  | nil => exact .inl ⟨rfl, fun c hc => nomatch hc⟩
  | cons c cells ih =>
    cases hp : p c.2 with
    | true =>
      refine .inr ⟨[], c, cells, rfl, fun d hd => (nomatch hd), hp, ?_⟩
      rw [seek, if_pos hp]
    | false =>
      have hseek : seek p (c :: cells) = seek p cells := by
        rw [seek, if_neg (by rw [hp]; exact Bool.false_ne_true)]
      rw [hseek]
      rcases ih with ⟨hnone, hall⟩ | ⟨pre, d, rest, rfl, hpre, hd, hsome⟩
      · exact .inl ⟨hnone, List.forall_mem_cons.mpr ⟨hp, hall⟩⟩
      · exact .inr ⟨c :: pre, d, rest, rfl, List.forall_mem_cons.mpr ⟨hp, hpre⟩, hd, hsome⟩

/-! ## Lists over time -/

/-- `l'` is what may have become of `l`: nodes were removed, and new ones inserted
with addresses that were not in use. -/
structure Later (l l' : NodeList α) : Prop where
  brk_le : l.brk ≤ l'.brk
  old : ∀ c ∈ l'.cells, c.1 < l.brk → c ∈ l.cells

theorem Later.refl (l : NodeList α) : l.Later l := ⟨Nat.le_refl _, fun _ hc _ => hc⟩

theorem later_insertHead (l : NodeList α) (v : α) : l.Later (l.insertHead v) where
  brk_le := Nat.le_succ _
  old c hc hlt := by
    rcases mem_insertHead.mp hc with rfl | hc
    · exact absurd hlt (Nat.lt_irrefl _)
    · exact hc

theorem later_remove (l : NodeList α) (a : ℕ) : l.Later (l.remove a) :=
  ⟨Nat.le_refl _, fun _ hc _ => (mem_remove.mp hc).1⟩

end NodeList
