import Dmrlib.Lib.Loop

/-!
# Fields that share a buffer

Code that packs several fields into one buffer overwrites the cells of one field and has
to leave the others alone. A state `s` is known by what `get s` reads at each cell; a
function on states is described by the cells it stores to.

`Keeps` is the frame condition and `Stores` says that what ends up in the field does not
depend on what was there. A function that has both for one field `Fills` it; two that fill
disjoint fields commute.

- `Keeps`, `Stores`, `Fills`: the conditions.
- `Fills.comm`: writers of disjoint fields commute.
- `Fills.forLoop`: a loop whose rounds fill parts of a field.
- `MayFill`: a function that fills its field or does nothing, as one does that checks its argument.
-/

namespace Fields

open Loop

universe u v w

variable {σ : Type u} {ι : Type v} {α : Type w} {get : σ → ι → α} {F G H : Set ι} {f g : σ → σ}

/-- Outside `F`, `f` changes nothing. -/
def Keeps (get : σ → ι → α) (F : Set ι) (f : σ → σ) : Prop :=
  ∀ s i, i ∉ F → get (f s) i = get s i

/-- Inside `F`, `f` leaves the same whatever it finds. -/
def Stores (get : σ → ι → α) (F : Set ι) (f : σ → σ) : Prop :=
  ∀ s s' i, i ∈ F → get (f s) i = get (f s') i

/-- `f` overwrites the field `F`. -/
structure Fills (get : σ → ι → α) (F : Set ι) (f : σ → σ) : Prop where
  keeps : Keeps get F f
  stores : Stores get F f

/-- `f` overwrites the field `F`, or refuses and does nothing. -/
def MayFill (get : σ → ι → α) (F : Set ι) (f : σ → σ) : Prop :=
  (∀ s, f s = s) ∨ Fills get F f

theorem Keeps.id (F : Set ι) : Keeps get F (fun s => s) := by
  intro s i _
  rfl

theorem Keeps.mono (hf : Keeps get F f) (hFG : F ⊆ G) : Keeps get G f := by
  intro s i hi
  exact hf s i fun hF => hi (hFG hF)

theorem Stores.mono (hf : Stores get G f) (hFG : F ⊆ G) : Stores get F f := by
  intro s s' i hi
  exact hf s s' i (hFG hi)

/-- One store after another touches the cells of both. -/
theorem Keeps.comp (hg : Keeps get G g) (hf : Keeps get F f) :
    Keeps get (F ∪ G) (fun s => g (f s)) := by
  intro s i hi
  rw [Set.mem_union, not_or] at hi
  rw [hg _ i hi.2, hf s i hi.1]

/-- The later store decides what it fills, and keeps what it does not touch. -/
theorem Stores.comp (hg : Stores get G g) (hkeep : Keeps get H g) (hf : Stores get F f) :
    Stores get (F \ H ∪ G) (fun s => g (f s)) := by
  intro s s' i hi
  by_cases hG : i ∈ G
  · exact hg _ _ i hG
  · obtain ⟨hF, hH⟩ := hi.resolve_right hG
    rw [hkeep _ i hH, hkeep _ i hH, hf s s' i hF]

theorem Fills.comp (hg : Fills get G g) (hf : Fills get F f) :
    Fills get (F ∪ G) (fun s => g (f s)) := by
  constructor
  · exact hg.keeps.comp hf.keeps
  · exact (hg.stores.comp hg.keeps hf.stores).mono Set.sdiff_union_self.ge

/-- A loop whose rounds fill a field each fills all of them. -/
theorem Fills.forLoop {n : Nat} {F : Fin n → Set ι} {f : Fin n → σ → σ}
    (h : ∀ i, Fills get (F i) (f i)) : Fills get (⋃ i, F i) (forLoop n f) := by
  induction n with
  | zero =>
    rw [Set.iUnion_of_empty]
    exact ⟨Keeps.id ∅, fun _ _ i hi => absurd hi (Set.notMem_empty i)⟩
  | succ n ih =>
    have hsplit : ⋃ i, F i = (⋃ i : Fin n, F i.castSucc) ∪ F (Fin.last n) := by
      ext i
      simp only [Set.mem_iUnion, Set.mem_union, Fin.exists_fin_succ']
    rw [hsplit]
    exact (h (Fin.last n)).comp (ih fun i => h i.castSucc)

/-- Disjoint fields may be filled in either order. -/
theorem Fills.comm (hf : Fills get F f) (hg : Fills get G g) (hget : Function.Injective get)
    (hdisj : Disjoint F G) (s : σ) : f (g s) = g (f s) := by
  refine hget (funext fun i => ?_)
  by_cases hF : i ∈ F
  · have hG : i ∉ G := Set.disjoint_left.mp hdisj hF
    rw [hf.stores _ s i hF, hg.keeps _ i hG]
  · rw [hf.keeps _ i hF]
    by_cases hG : i ∈ G
    · exact hg.stores _ _ i hG
    · rw [hg.keeps _ i hG, hg.keeps _ i hG, hf.keeps _ i hF]

theorem Fills.mayFill (hf : Fills get F f) : MayFill get F f := .inr hf

theorem MayFill.keeps (hf : MayFill get F f) : Keeps get F f := by
  intro s i hi
  obtain hid | hfills := hf
  · rw [hid]
  · exact hfills.keeps s i hi

theorem MayFill.comm (hf : MayFill get F f) (hg : MayFill get G g)
    (hget : Function.Injective get) (hdisj : Disjoint F G) (s : σ) : f (g s) = g (f s) := by
  obtain hid | hf := hf
  · rw [hid, hid]
  obtain hid | hg := hg
  · rw [hid, hid]
  · exact hf.comm hg hget hdisj s

end Fields
