import Mathlib

/-!
# Counted loops over fixed-size arrays

C code that fills arrays is a nest of `for (i = 0; i < n; i++)` loops. `forLoop`
is that loop as a structurally recursive function, so it both computes and
supports induction; `tryLoop` is the same loop with an early `return` from its
body.

Two rules carry every proof about such a loop:

- `forLoop_inv`: an invariant indexed by the number of finished rounds;
- `forLoop_set`: a loop whose round `i` stores one value at index `f i` (with
  `f` injective) is described by where it stored what.
-/

namespace Loop

universe u

variable {σ : Type u} {n : Nat}

/-- `for (i = 0; i < n; i++) s = body i s;` -/
def forLoop : (n : Nat) → (Fin n → σ → σ) → σ → σ
  | 0, _, s => s
  | n + 1, body, s => body (Fin.last n) (forLoop n (fun i => body i.castSucc) s)

/-- The same loop with a body that may leave the function early (`none`). -/
def tryLoop (n : Nat) (body : Fin n → σ → Option σ) (s : σ) : Option σ :=
  forLoop n (fun i o => o.bind (body i)) (some s)

/-- The loop rule: `P k` holds after `k` rounds. -/
theorem forLoop_inv {f : Fin n → σ → σ} {s : σ} (P : Nat → σ → Prop)
    (h0 : P 0 s) (hstep : ∀ (i : Fin n) (t : σ), P i t → P (i + 1) (f i t)) :
    P n (forLoop n f s) := by
  induction n with
  | zero => exact h0
  | succ n ih =>
    have hprev : P n (forLoop n (fun i => f i.castSucc) s) :=
      ih fun i t ht => hstep i.castSucc t ht
    exact hstep (Fin.last n) _ hprev

/-- The rule for a loop in a loop: `P k` holds after `k` rounds of the inner one. -/
theorem forLoop_nested {m : Nat} {f : Fin m → Fin n → σ → σ} {s : σ} (P : Nat → σ → Prop)
    (h0 : P 0 s) (hstep : ∀ (i : Fin m) (j : Fin n) (t : σ),
      P (i * n + j) t → P (i * n + j + 1) (f i j t)) :
    P (m * n) (forLoop m (fun i s => forLoop n (f i) s) s) := by
  refine forLoop_inv (fun k t => P (k * n) t) (by rwa [Nat.zero_mul]) fun i t ht => ?_
  show P ((i + 1) * n) (forLoop n (f i) t)
  rw [Nat.succ_mul]
  exact forLoop_inv (fun k t => P (i * n + k) t) ht fun j t' => hstep i j t'

/-- A loop that may leave early, but does not, from states with the invariant. -/
theorem tryLoop_inv {f : Fin n → σ → Option σ} {s : σ} (P : Nat → σ → Prop) (h0 : P 0 s)
    (hstep : ∀ (i : Fin n) (t : σ), P i t → ∃ t', f i t = some t' ∧ P (i + 1) t') :
    ∃ t, tryLoop n f s = some t ∧ P n t := by
  refine forLoop_inv (fun k o => ∃ t, o = some t ∧ P k t) ⟨s, rfl, h0⟩ ?_
  rintro i o ⟨t, rfl, ht⟩
  exact hstep i t ht

/-- A loop with a round that always leaves. -/
theorem tryLoop_eq_none {f : Fin n → σ → Option σ} {s : σ} {i : Fin n} (h : ∀ t, f i t = none) :
    tryLoop n f s = none := by
  have hround : ∀ o : Option σ, o.bind (f i) = none := by
    intro o
    cases o with
    | none => rfl
    | some t => exact h t
  have key := forLoop_inv (f := fun i o => Option.bind o (f i)) (s := some s)
    (fun k o => i.val < k → o = none) (fun hi => absurd hi (Nat.not_lt_zero _))
    (fun j o ho hi => by
      obtain hlt | heq := Nat.lt_succ_iff_lt_or_eq.mp hi
      · rw [ho hlt]
        rfl
      · obtain rfl : i = j := Fin.ext heq
        exact hround o)
  exact key i.isLt

/-- A loop over two unrelated variables is two loops. -/
theorem forLoop_prod {τ : Type u} (f : Fin n → σ → σ) (g : Fin n → τ → τ) (s : σ × τ) :
    forLoop n (fun i s => (f i s.1, g i s.2)) s = (forLoop n f s.1, forLoop n g s.2) := by
  induction n with
  | zero => rfl
  | succ n ih => rw [forLoop, ih, forLoop, forLoop]

/-- A summing loop is a finite sum. -/
theorem forLoop_add {M : Type u} [AddCommMonoid M] (f : Fin n → M) (s : M) :
    forLoop n (fun i acc => acc + f i) s = s + ∑ i, f i := by
  induction n with
  | zero => simp [forLoop]
  | succ n ih =>
    rw [forLoop, ih, Fin.sum_univ_castSucc, add_assoc]

/-- A summing loop over machine numbers, whose addition is modulo `M`. -/
theorem forLoop_add_mod [Add σ] [Zero σ] {φ : σ → Nat} {M : Nat} (hzero : φ 0 = 0)
    (hadd : ∀ a b, φ (a + b) = (φ a + φ b) % M) (f : Fin n → σ) :
    φ (forLoop n (fun i acc => acc + f i) 0) = (∑ i, φ (f i)) % M := by
  induction n with
  | zero => rw [forLoop, hzero, Fin.sum_univ_zero, Nat.zero_mod]
  | succ n ih => rw [forLoop, hadd, ih, Fin.sum_univ_castSucc, Nat.mod_add_mod]

/-- A loop seen through `φ`. -/
theorem forLoop_hom {τ : Type u} {f : Fin n → σ → σ} {g : Fin n → τ → τ} (φ : σ → τ)
    (h : ∀ i s, φ (f i s) = g i (φ s)) (s : σ) : φ (forLoop n f s) = forLoop n g (φ s) := by
  induction n with
  | zero => rfl
  | succ n ih => rw [forLoop, h, ih fun i => h i.castSucc, forLoop]

/-- Horner's rule. -/
theorem forLoop_horner {R : Type u} [CommSemiring R] (x : R) (v : Fin n → R) :
    forLoop n (fun i acc => x * acc + v i) 0 = ∑ i : Fin n, v i * x ^ (n - 1 - i.val) := by
  induction n with
  | zero => simp [forLoop]
  | succ n ih =>
    rw [forLoop, ih, Fin.sum_univ_castSucc, Finset.mul_sum]
    congr 1
    · refine Finset.sum_congr rfl fun i _ => ?_
      have hexp : n + 1 - 1 - i.castSucc.val = n - 1 - i.val + 1 := by
        simp only [Fin.val_castSucc]
        omega
      rw [hexp, pow_succ']
      ring
    · simp

/-- A guarded loop: a body that either leaves the state alone or gives up runs
through exactly when no round gives up. -/
theorem tryLoop_guard {body : Fin n → σ → Option σ} {s : σ} (P : Fin n → Prop)
    [DecidablePred P] (h : ∀ i, body i s = if P i then some s else none) :
    tryLoop n body s = if ∀ i, P i then some s else none := by
  unfold tryLoop
  induction n with
  | zero => simp [forLoop]
  | succ n ih =>
    rw [forLoop, ih (fun i => P i.castSucc) fun i => h i.castSucc]
    by_cases hall : ∀ i : Fin n, P i.castSucc
    · rw [if_pos hall, Option.bind_some, h]
      simp only [Fin.forall_fin_succ', hall, implies_true, true_and]
    · have hnot : ¬ ∀ i, P i := fun hP => hall fun i => hP i.castSucc
      rw [if_neg hall, if_neg hnot, Option.bind_none]

/-! ## Loops that store into an array -/

variable {α : Type u} {m : Nat}

/-- A loop that rewrites each cell it visits, once. -/
theorem forLoop_modify {f : Fin n → Fin m} (hf : Function.Injective f) (v : Fin n → α → α)
    (a : Vector α m) (i : Fin n) :
    (forLoop n (fun i a => a.set (f i) (v i a[f i])) a)[f i] = v i a[f i] := by
  have key := forLoop_inv (f := fun i (a : Vector α m) => a.set (f i) (v i a[f i])) (s := a)
    (fun k t => ∀ j : Fin n, t[f j] = if j < k then v j a[f j] else a[f j])
    (fun j => (if_neg (Nat.not_lt_zero _)).symm)
    (fun i t ht j => by
      by_cases hij : i = j
      · subst hij
        have hi := ht i
        rw [if_neg (Nat.lt_irrefl _)] at hi
        simp [hi]
      · have hne : (f i : Nat) ≠ f j := fun h => hij (hf (Fin.ext h))
        have hlt : (j : Nat) < i + 1 ↔ (j : Nat) < i := by
          have : (i : Nat) ≠ j := fun h => hij (Fin.ext h)
          omega
        simpa [Vector.getElem_set, hne, hlt] using ht j)
  exact (key i).trans (if_pos i.isLt)

/-- Such a loop leaves the other cells alone. -/
theorem forLoop_modify_other {f : Fin n → Fin m} (v : Fin n → α → α) (a : Vector α m)
    {j : Nat} (hj : j < m) (hne : ∀ i, (f i : Nat) ≠ j) :
    (forLoop n (fun i a => a.set (f i) (v i a[f i])) a)[j] = a[j] :=
  forLoop_inv (fun _ t => t[j] = a[j]) rfl fun i t ht => by
    simpa [Vector.getElem_set, hne i] using ht

/-- A loop that stores `v i` at index `f i` in round `i`: each written cell
holds the value of its own round. -/
theorem forLoop_set {f : Fin n → Fin m} (hf : Function.Injective f) (v : Fin n → α)
    (a : Vector α m) (i : Fin n) :
    (forLoop n (fun i a => a.set (f i) (v i)) a)[f i] = v i :=
  forLoop_modify hf (fun i _ => v i) a i

/-- … and no other cell changes. -/
theorem forLoop_set_other {f : Fin n → Fin m} (v : Fin n → α) (a : Vector α m)
    {j : Nat} (hj : j < m) (hne : ∀ i, (f i : Nat) ≠ j) :
    (forLoop n (fun i a => a.set (f i) (v i)) a)[j] = a[j] :=
  forLoop_modify_other (fun i _ => v i) a hj hne

/-- A loop that stores into every cell of the array. -/
theorem forLoop_fill (v : Fin m → α) (a : Vector α m) :
    forLoop m (fun i a => a.set i (v i)) a = Vector.ofFn v := by
  refine Vector.ext fun j hj => ?_
  rw [Vector.getElem_ofFn]
  exact forLoop_set Function.injective_id v a ⟨j, hj⟩

/-- A loop that fills a stretch of an array of one value. -/
theorem forLoop_place (off : Nat) (hoff : n + off ≤ m) (v : Fin n → α) (x : α) :
    forLoop n (fun i a => a.set (i.val + off) (v i)) (Vector.replicate m x) =
      Vector.ofFn fun j : Fin m =>
        if h : off ≤ j.val ∧ j.val < n + off then v ⟨j.val - off, by omega⟩ else x := by
  refine Vector.ext fun j hj => ?_
  rw [Vector.getElem_ofFn]
  have hinj : Function.Injective fun i : Fin n => (⟨i.val + off, by omega⟩ : Fin m) := by
    intro a b hab
    exact Fin.ext (Nat.add_right_cancel (congrArg Fin.val hab))
  by_cases hin : off ≤ j ∧ j < n + off
  · have hset := forLoop_set hinj v (Vector.replicate m x) ⟨j - off, by omega⟩
    have hidx : j - off + off = j := Nat.sub_add_cancel hin.1
    rw [dif_pos hin]
    simpa only [Fin.getElem_fin, hidx] using hset
  · rw [dif_neg hin]
    refine (forLoop_set_other (f := fun i : Fin n => (⟨i.val + off, by omega⟩ : Fin m)) v
      (Vector.replicate m x) hj fun i hi => ?_).trans (Vector.getElem_replicate _)
    have hi : i.val + off = j := hi
    omega

/-- A loop that stores back what is already there. -/
theorem forLoop_set_self {f : Fin n → Fin m} {v : Fin n → α} {a : Vector α m}
    (h : ∀ i, v i = a[f i]) : forLoop n (fun i a => a.set (f i) (v i)) a = a :=
  forLoop_inv (fun _ t => t = a) rfl fun i t ht => by
    rw [ht, h]
    exact Vector.set_getElem_self _

/-- A loop that only rewrites cell `x` runs on that cell alone. -/
theorem forLoop_cell {f : Fin n → α → α} (x : Fin m) (a : Vector α m) :
    forLoop n (fun i a => a.set x (f i a[x])) a = a.set x (forLoop n f a[x]) := by
  induction n with
  | zero => simp [forLoop]
  | succ n ih =>
    rw [forLoop, ih]
    simp [forLoop]

/-! ## Places that carry their bound

`v.get i` is `v[i]` for an `i` whose type says that it is inside.
-/

attribute [simp] Vector.get_eq_getElem

/-! ## Block copies -/

/-- `memcpy(dst + doff, src + soff, len)` -/
def copy {k : Nat} (dst : Vector α m) (doff : Nat) (src : Vector α k) (soff len : Nat)
    (hd : doff + len ≤ m) (hs : soff + len ≤ k) : Vector α m :=
  forLoop len (fun i dst => dst.set (doff + i) src[soff + i.val]) dst

/-- The copied range holds the source. -/
theorem copy_getElem {k : Nat} (dst : Vector α m) (doff : Nat) (src : Vector α k)
    (soff len : Nat) (hd : doff + len ≤ m) (hs : soff + len ≤ k) {i : Nat} (hi : i < len) :
    (copy dst doff src soff len hd hs)[doff + i] = src[soff + i] := by
  have hinj : Function.Injective (fun i : Fin len => (⟨doff + i, by omega⟩ : Fin m)) := by
    intro a b hab
    have : doff + (a : Nat) = doff + b := congrArg (fun z : Fin m => (z : Nat)) hab
    exact Fin.ext (by omega)
  exact forLoop_set hinj (fun i => src[soff + i.val]) dst ⟨i, hi⟩

/-- Outside the copied range nothing changes. -/
theorem copy_getElem_other {k : Nat} (dst : Vector α m) (doff : Nat) (src : Vector α k)
    (soff len : Nat) (hd : doff + len ≤ m) (hs : soff + len ≤ k) {q : Nat} (hq : q < m)
    (hout : q < doff ∨ doff + len ≤ q) :
    (copy dst doff src soff len hd hs)[q] = dst[q] :=
  forLoop_set_other (f := fun i : Fin len => (⟨doff + i, by omega⟩ : Fin m))
    (fun i => src[soff + i.val]) dst hq fun i hi => by
      simp only at hi
      omega

/-! ## Loops that try again -/

/-- The first result of a stream with which a loop does not try again. -/
def FirstFinal (again : α → Bool) (results : Stream' α) (k : Nat) : Prop :=
  (∀ j < k, again (results.get j) = true) ∧ again (results.get k) = false

/-- A loop that ends at once. -/
theorem exists_firstFinal_iff_of_final {again : α → Bool} {results : Stream' α}
    (h : again results.head = false) (P : Nat → Prop) :
    (∃ k, FirstFinal again results k ∧ P k) ↔ P 0 := by
  constructor
  · rintro ⟨k, hk, hP⟩
    cases k with
    | zero => exact hP
    | succ k =>
      have hagain := hk.1 0 (Nat.succ_pos k)
      exact absurd (hagain.symm.trans h) (by decide)
  · intro hP
    exact ⟨0, ⟨fun j hj => absurd hj (Nat.not_lt_zero j), h⟩, hP⟩

/-- A loop that tries again. -/
theorem firstFinal_succ_iff {again : α → Bool} {results : Stream' α}
    (h : again results.head = true) (k : Nat) :
    FirstFinal again results (k + 1) ↔ FirstFinal again results.tail k := by
  refine and_congr_left fun _ => ?_
  constructor
  · intro hall j hj
    exact hall (j + 1) (Nat.succ_lt_succ hj)
  · intro hall j hj
    cases j with
    | zero => exact h
    | succ j => exact hall j (Nat.lt_of_succ_lt_succ hj)

theorem exists_firstFinal_iff_of_again {again : α → Bool} {results : Stream' α}
    (h : again results.head = true) (P : Nat → Prop) :
    (∃ k, FirstFinal again results k ∧ P k) ↔
      ∃ k, FirstFinal again results.tail k ∧ P (k + 1) := by
  constructor
  · rintro ⟨k, hk, hP⟩
    cases k with
    | zero => exact absurd (h.symm.trans hk.2) (by decide)
    | succ k => exact ⟨k, (firstFinal_succ_iff h k).mp hk, hP⟩
  · rintro ⟨k, hk, hP⟩
    exact ⟨k + 1, (firstFinal_succ_iff h k).mpr hk, hP⟩

/-! ## Loops that keep a log -/

section Log

variable {τ ω : Type u} {Q : ω → Prop}

/-- What may leave the function, and is followed by something that adds to the log. -/
def logBind : List ω × Option σ → (σ → List ω × Option τ) → List ω × Option τ
  | (log, none), _ => (log, none)
  | (log, some s), f => (log ++ (f s).1, (f s).2)

/-- `tryLoop`, with what its rounds write to a log. -/
def logLoop (n : Nat) (body : Fin n → σ → List ω × Option σ) (s : σ) : List ω × Option σ :=
  forLoop n (fun i r => logBind r (body i)) ([], some s)

/-- The log makes no difference. -/
theorem logBind_snd (r : List ω × Option σ) (f : σ → List ω × Option τ) :
    (logBind r f).2 = r.2.bind fun s => (f s).2 := by
  obtain ⟨log, o⟩ := r
  cases o with
  | none => rfl
  | some s => rfl

theorem logLoop_snd (body : Fin n → σ → List ω × Option σ) (s : σ) :
    (logLoop n body s).2 = tryLoop n (fun i s => (body i s).2) s :=
  forLoop_hom (g := fun i o => Option.bind o fun s => (body i s).2) Prod.snd
    (fun i r => logBind_snd r (body i)) _

/-- What is in the log stays there. -/
theorem mem_logBind {r : List ω × Option σ} (f : σ → List ω × Option τ) {x : ω} (hx : x ∈ r.1) :
    x ∈ (logBind r f).1 := by
  obtain ⟨log, o⟩ := r
  cases o with
  | none => exact hx
  | some s => exact List.mem_append_left _ hx

theorem logBind_forall {r : List ω × Option σ} {f : σ → List ω × Option τ} (hr : ∀ x ∈ r.1, Q x)
    (hf : ∀ s, r.2 = some s → ∀ x ∈ (f s).1, Q x) : ∀ x ∈ (logBind r f).1, Q x := by
  intro x hx
  obtain ⟨log, o⟩ := r
  cases o with
  | none => exact hr x hx
  | some s =>
    obtain hx | hx := List.mem_append.mp hx
    · exact hr x hx
    · exact hf s rfl x hx

/-- Nothing else is in the log than what the rounds write, from states with the invariant. -/
theorem logLoop_forall {body : Fin n → σ → List ω × Option σ} {s : σ} {I : σ → Prop}
    (hs : I s) (hI : ∀ i s s', I s → (body i s).2 = some s' → I s')
    (hQ : ∀ i s, I s → ∀ x ∈ (body i s).1, Q x) : ∀ x ∈ (logLoop n body s).1, Q x := by
  have key := forLoop_inv (f := fun i r => logBind r (body i)) (s := ([], some s))
    (fun _ r => (∀ x ∈ r.1, Q x) ∧ ∀ t, r.2 = some t → I t)
    ⟨fun x hx => (nomatch hx), fun t ht => by
      cases ht
      exact hs⟩
    (fun i r hr => by
      refine ⟨logBind_forall hr.1 fun t ht => hQ i t (hr.2 t ht), fun t' ht' => ?_⟩
      rw [logBind_snd] at ht'
      obtain ⟨t, ht, hbody⟩ := Option.bind_eq_some_iff.mp ht'
      exact hI i t t' (hr.2 t ht) hbody)
  exact key.1

/-- The first round always writes. -/
theorem mem_logLoop {body : Fin n → σ → List ω × Option σ} {s : σ} (hn : 0 < n) {x : ω}
    (hx : x ∈ (body ⟨0, hn⟩ s).1) : x ∈ (logLoop n body s).1 := by
  have key := forLoop_inv (f := fun i r => logBind r (body i)) (s := ([], some s))
    (fun m r => if m = 0 then r = ([], some s) else x ∈ r.1) (by rw [if_pos rfl])
    (fun i r hr => by
      rw [if_neg (Nat.succ_ne_zero i)]
      by_cases hi : i.val = 0
      · rw [if_pos hi] at hr
        subst hr
        obtain rfl : i = ⟨0, hn⟩ := Fin.ext hi
        exact List.mem_append_right _ hx
      · rw [if_neg hi] at hr
        exact mem_logBind (body i) hr)
  rwa [if_neg hn.ne'] at key

end Log

end Loop
