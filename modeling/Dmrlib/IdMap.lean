import Dmrlib.Noisebridge.DmrIdFile
import Dmrlib.TreeShape

/-!
# DMR ids in memory (`src/dmr/id.c`)

The ids and their names are in a red-black tree, the highest id first. The parser of the
configuration and `dmr_id_name` are modelled over a list of ids (`Dmrlib.dmrIdAdd` and
`Dmrlib.dmrIdName`); here it is shown that the tree does what the list does, in every order of
calls and whichever allocations fail: `ids_refine`. A search looks at no more than
`DMR_IDMAP_HEIGHT` nodes, however many ids there are.

- `SharedIds`: the map that the library keeps in a static variable, and the heap it is in.
- `dmrIdInit`, `dmrIdFree`, `dmrIdAdd`, `dmrIdName`, `dmrIdSize`: the functions.
- `Call`, `step`, `run`: calls of `dmr_id_init`, `dmr_id_free` and `dmr_id_add`, in any order.
- `Mirrors`: the tree is balanced and ordered and has the names of a list of ids.
- `search_within_height`, `visited_descending`: what this means for a search, and for a walk over
  all ids.
-/

namespace Dmrlib

open CString
open RbTree (Color Path before after fill)

/-- `dmr_idnode`, without the field that is the tree's. -/
structure DmrIdnode where
  id : DmrId
  name : Option CStr

/-- `DMR_IDMAP_HEIGHT` -/
def dmrIdmapHeight : Nat := 64

/-- `dmr_idmap` -/
abbrev DmrIdmap := DmrRbHead DmrIdnode

/-- `idcmp` -/
def idcmp (a b : DmrIdnode) : Int :=
  if a.id > b.id then -1
  else if a.id < b.id then 1
  else 0

/-- Which allocations succeed. -/
structure IdMemory where
  map : Bool
  node : Bool
  name : Bool

namespace DmrIdmap

/-- `dmr_idmap_new`, where the allocation succeeds. -/
def new : DmrIdmap := ⟨Heap.empty, none⟩

/-- `dmr_idmap_add`, what it returns and the map. A node whose name cannot be copied stays
allocated, outside of the tree. -/
def add (A : Allocator) (mem : IdMemory) (map : DmrIdmap) (id : DmrId) (name : CStr) :
    Option (Int × DmrIdmap) := do
  if (← map.find idcmp ⟨id, none⟩).isSome then
    return (0, map)
  else if !mem.node then
    return (-1, map)
  else
    let np := map.heap.alloc A
      ⟨⟨id, if mem.name then some name else none⟩, ⟨none, none, none, .black⟩⟩
    let map : DmrIdmap := { map with heap := np.2 }
    if !mem.name then
      return (-1, map)
    else
      let (_, map) ← map.insert idcmp np.1
      return (0, map)

/-- `dmr_idmap_get` -/
def get (map : DmrIdmap) (id : DmrId) : Option (Option CStr) := do
  match ← map.find idcmp ⟨id, none⟩ with
  | none => return none
  | some np =>
    let e ← map.heap.get? np
    return e.val.name

end DmrIdmap

/-! ## The shared map

The library's own map, which is set up by the first call that needs it.
-/

/-- `shared` -/
abbrev SharedIds := Option DmrIdmap

namespace SharedIds

/-- `dmr_id_init` -/
def dmrIdInit (mem : IdMemory) : SharedIds → Int × SharedIds
  | some map => (0, some map)
  | none => if mem.map then (0, some DmrIdmap.new) else (-1, none)

/-- `dmr_id_free` -/
def dmrIdFree (_ : SharedIds) : SharedIds := none

/-- `dmr_id_add` -/
def dmrIdAdd (A : Allocator) (mem : IdMemory) (shared : SharedIds) (id : DmrId) (name : CStr) :
    Option (Int × SharedIds) :=
  match dmrIdInit mem shared with
  | (0, some map) => (DmrIdmap.add A mem map id name).map fun ret => (ret.1, some ret.2)
  | (_, shared) => some (-1, shared)

/-- `dmr_id_name` -/
def dmrIdName (shared : SharedIds) (id : DmrId) : Option (Option CStr) :=
  match shared with
  | none => some none
  | some map => DmrIdmap.get map id

/-- The nodes that the loop of `dmr_id_size` comes to. -/
def visited (shared : SharedIds) : Option (List Nat) :=
  match shared with
  | none => some []
  | some map => do map.foreach map.fuel (← map.minmax .left)

/-- `dmr_id_size` -/
def dmrIdSize (shared : SharedIds) : Option Nat := (visited shared).map List.length

end SharedIds

/-! ## The tree and the list

The tree has the ids of the list, each once, with the names that the list has first.
-/

theorem cut_idcmp (key : DmrIdnode) (v : ℕ × DmrIdnode) :
    DmrRbHead.cut idcmp key v = compare v.2.id.toNat key.id.toNat := by
  unfold DmrRbHead.cut idcmp
  rw [Nat.compare_eq_ite_lt]
  simp only [gt_iff_lt, UInt32.lt_iff_toNat_lt]
  split_ifs <;> first | rfl | omega

/-- The highest id first. -/
theorem agrees_idcmp (key : DmrIdnode) :
    RbTree.Agrees (DmrRbHead.cut idcmp key) fun a b => b.2.id.toNat < a.2.id.toNat where
  left a b hab hb := by
    rw [cut_idcmp, Ne, Nat.compare_eq_lt] at hb
    rw [cut_idcmp, Nat.compare_eq_gt]
    omega
  right a b hab ha := by
    rw [cut_idcmp, Ne, Nat.compare_eq_gt] at ha
    rw [cut_idcmp, Nat.compare_eq_lt]
    omega

namespace DmrIdmap

/-- The map has the ids and the names of the list, in a red-black tree. -/
structure Mirrors (map : DmrIdmap) (ids : List (DmrId × CStr)) (t : RbTree (ℕ × DmrIdnode)) :
    Prop where
  represents : map.Represents t
  balanced : ∃ n, t.Balanced .black n
  sorted : t.toList.Pairwise fun a b => b.2.id.toNat < a.2.id.toNat
  perm : (t.toList.map fun v => (v.2.id, v.2.name)).Perm (ids.map fun e => (e.1, some e.2))

theorem mirrors_new : Mirrors new [] .nil where
  represents := ⟨rfl, trivial, List.nodup_nil⟩
  balanced := ⟨0, .nil⟩
  sorted := .nil
  perm := .nil

variable {map : DmrIdmap} {ids : List (DmrId × CStr)} {t : RbTree (ℕ × DmrIdnode)}

theorem Mirrors.nodup (h : Mirrors map ids t) : (ids.map Prod.fst).Nodup := by
  have hperm := h.perm.map Prod.fst
  rw [List.map_map, List.map_map] at hperm
  have hids : (t.toList.map fun v => v.2.id).Nodup :=
    List.Pairwise.map _ (fun a b hab heq => absurd (congrArg UInt32.toNat heq) hab.ne') h.sorted
  exact hperm.nodup_iff.mp hids

theorem Mirrors.dmrIdName_eq (h : Mirrors map ids t) {v : ℕ × DmrIdnode} (hv : v ∈ t.toList) :
    Dmrlib.dmrIdName ids v.2.id = v.2.name := by
  have hmem : (v.2.id, v.2.name) ∈ ids.map fun e => (e.1, some e.2) :=
    h.perm.mem_iff.mp (List.mem_map_of_mem hv)
  obtain ⟨e, he, heq⟩ := List.mem_map.mp hmem
  obtain ⟨hid, hname⟩ := Prod.mk.inj heq
  rw [Dmrlib.dmrIdName, ← hname, ← hid]
  cases hfind : ids.find? fun e' => e'.1 = e.1 with
  | none => exact absurd (List.find?_eq_none.mp hfind e he) (by simp)
  | some e' =>
    have he' : e' = e := List.inj_on_of_nodup_map h.nodup (List.mem_of_find?_eq_some hfind) he
      (by simpa using List.find?_some hfind)
    rw [he', Option.map_some]

/-- An id is in the list if it is in the tree. -/
theorem Mirrors.any_iff (h : Mirrors map ids t) (id : DmrId) :
    (ids.any fun e => e.1 = id) = true ↔ ∃ v ∈ t.toList, v.2.id = id := by
  have hperm := h.perm.map Prod.fst
  rw [List.map_map, List.map_map] at hperm
  have hmem := hperm.mem_iff (a := id)
  simpa using hmem.symm

/-- The search ends at the node with the id, or at the place for one. -/
theorem Mirrors.descend_cases (h : Mirrors map ids t) (key : DmrIdnode) :
    (∃ path, RbTree.descend (DmrRbHead.cut idcmp key) t [] = (.nil, path) ∧
      (∀ v ∈ t.toList, v.2.id ≠ key.id)) ∨
    ∃ c l v r path, RbTree.descend (DmrRbHead.cut idcmp key) t [] = (.node c l v r, path) ∧
      v ∈ t.toList ∧ v.2.id = key.id := by
  have hfill := RbTree.fill_descend (DmrRbHead.cut idcmp key) t []
  obtain ⟨hbefore, hafter⟩ := RbTree.descend_between_root (agrees_idcmp key) h.sorted
  -- an empty place: everything in the tree lies before it or behind it
  rcases hdescend : RbTree.descend (DmrRbHead.cut idcmp key) t [] with ⟨_ | ⟨c, l, v, r⟩, path⟩
  · rw [hdescend] at hfill hbefore hafter
    simp only [cut_idcmp, Nat.compare_eq_gt, Nat.compare_eq_lt] at hbefore hafter
    refine .inl ⟨path, rfl, fun v hv hid => ?_⟩
    have hlist : t.toList = before path ++ after path := by
      rw [show t = fill path .nil from hfill.symm, RbTree.toList_fill, RbTree.toList]
      simp
    rw [hlist, List.mem_append] at hv
    rcases hv with hv | hv
    · exact absurd (hbefore v hv) (by rw [hid]; exact Nat.lt_irrefl _)
    · exact absurd (hafter v hv) (by rw [hid]; exact Nat.lt_irrefl _)
  -- a node that the search stops at has the id
  · rcases RbTree.descend_fst (DmrRbHead.cut idcmp key) t [] with hnil | ⟨c', l', v', r', hnode, hv⟩
    · rw [hdescend] at hnil
      cases hnil
    · rw [hdescend] at hnode
      obtain ⟨rfl, rfl, rfl, rfl⟩ := RbTree.node.inj hnode
      rw [cut_idcmp, Nat.compare_eq_eq] at hv
      refine .inr ⟨c, l, v, r, path, rfl, ?_, UInt32.toNat_inj.mp hv⟩
      rw [hdescend] at hfill
      show v ∈ (fill [] t).toList
      rw [← hfill, RbTree.toList_fill, RbTree.toList]
      simp

theorem Mirrors.get_eq (h : Mirrors map ids t) (id : DmrId) :
    map.get id = some (Dmrlib.dmrIdName ids id) := by
  rw [get, h.represents.find_eq]
  rcases h.descend_cases ⟨id, none⟩ with
    ⟨path, hdescend, hnone⟩ | ⟨c, l, v, r, path, hdescend, hv, rfl⟩
  · have hany := mt (h.any_iff id).mp (by simpa using hnone)
    rw [hdescend, Dmrlib.dmrIdName, List.find?_eq_none.mpr fun e he heq =>
      hany (List.any_eq_true.mpr ⟨e, he, heq⟩)]
    rfl
  · obtain ⟨field, hget⟩ := h.represents.holds.exists_get hv
    rw [hdescend, h.dmrIdName_eq hv]
    simp only [RbTree.root, Option.bind_eq_bind, Option.bind_some, hget]
    rfl

/-- A call of `dmr_idmap_add` with the list: what it returns, and the list. -/
def addName (mem : IdMemory) (ids : List (DmrId × CStr)) (id : DmrId) (name : CStr) :
    Int × List (DmrId × CStr) :=
  if (ids.any fun e => e.1 = id) || (mem.node && mem.name) then (0, Dmrlib.dmrIdAdd ids id name)
  else (-1, ids)

/-- What is allocated and not linked does not matter to the tree. -/
theorem Mirrors.extends (h : Mirrors map ids t) {heap : Heap (DmrRbElem DmrIdnode)}
    (hext : map.heap.Extends heap) : Mirrors { map with heap := heap } ids t where
  represents := ⟨h.represents.root, h.represents.holds.extends hext, h.represents.nodup⟩
  balanced := h.balanced
  sorted := h.sorted
  perm := h.perm

/-- A node with a new id goes into the tree. -/
theorem Mirrors.exists_insert (h : Mirrors map ids t) {id : DmrId} {name : CStr}
    (hnew : ∀ v ∈ t.toList, v.2.id ≠ id) {np : ℕ} {field : DmrRbEntry}
    (hnp : map.heap.get? np = some ⟨⟨id, some name⟩, field⟩) (hfresh : np ∉ t.addrs) :
    ∃ found map' t', map.insert idcmp np = some (found, map') ∧
      Mirrors map' (ids ++ [(id, name)]) t' := by
  obtain ⟨n, hbalanced⟩ := h.balanced
  obtain ⟨map', hinsert, hrep⟩ := h.represents.exists_insert idcmp hbalanced hnp hfresh
  refine ⟨_, map', _, hinsert, hrep, hbalanced.insert, ?_, ?_⟩
  · refine RbTree.pairwise_insert (agrees_idcmp _) ?_ ?_ h.sorted
    · intro a ha
      rwa [cut_idcmp, Nat.compare_eq_gt] at ha
    · intro a ha
      rwa [cut_idcmp, Nat.compare_eq_lt] at ha
  · have hnil : (RbTree.descend (DmrRbHead.cut idcmp ⟨id, some name⟩) t []).1 = .nil := by
      rcases h.descend_cases ⟨id, some name⟩ with
        ⟨path, hdescend, -⟩ | ⟨c, l, v, r, path, -, hv, hid⟩
      · rw [hdescend]
      · exact absurd hid (hnew v hv)
    refine ((RbTree.insert_perm hnil).map _).trans ?_
    rw [List.map_append]
    exact (h.perm.cons _).trans (List.perm_append_singleton _ _).symm

theorem Mirrors.exists_add (h : Mirrors map ids t) (A : Allocator) (mem : IdMemory) (id : DmrId)
    (name : CStr) :
    ∃ map' t', map.add A mem id name = some ((addName mem ids id name).1, map') ∧
      Mirrors map' (addName mem ids id name).2 t' := by
  rcases h.descend_cases ⟨id, none⟩ with
    ⟨path, hdescend, hnone⟩ | ⟨c, l, v, r, path, hdescend, hv, rfl⟩
  · have hany : (ids.any fun e => e.1 = id) = false :=
      Bool.eq_false_iff.mpr (mt (h.any_iff id).mp (by simpa using hnone))
    rw [add, h.represents.find_eq, hdescend, addName, hany, Bool.false_or]
    simp only [RbTree.root, Option.bind_eq_bind, Option.bind_some, Option.isSome_none,
      Bool.false_eq_true, if_false]
    -- a node without a name is left behind, and the tree stays what it was
    cases mem.node with
    | false => exact ⟨map, t, rfl, h⟩
    | true =>
      have hext := h.extends (Heap.extends_alloc A map.heap
        ⟨⟨id, if mem.name then some name else none⟩, ⟨none, none, none, .black⟩⟩)
      cases hname : mem.name with
      | false =>
        rw [hname] at hext
        exact ⟨_, t, rfl, hext⟩
      | true =>
        rw [hname, if_pos rfl] at hext
        -- the new node is none of those in the tree
        have hfresh :
            (map.heap.alloc A ⟨⟨id, some name⟩, ⟨none, none, none, .black⟩⟩).1 ∉ t.addrs := by
          intro hmem
          obtain ⟨v, hv, hnp⟩ := List.mem_map.mp hmem
          obtain ⟨field, hget⟩ := h.represents.holds.exists_get hv
          rw [hnp, Heap.get?_alloc_fresh] at hget
          cases hget
        obtain ⟨found, map', t', hinsert, h'⟩ :=
          hext.exists_insert hnone (Heap.get?_alloc_self A map.heap _) hfresh
        refine ⟨map', t', ?_, ?_⟩
        · simp only [hinsert, Bool.not_true, Bool.false_eq_true, if_false, if_true,
            Option.bind_some]
          rfl
        · rw [Bool.and_self, if_pos rfl, Dmrlib.dmrIdAdd, hany]
          exact h'
  -- an id that is there already keeps its first name
  · have hany := (h.any_iff v.2.id).mpr ⟨v, hv, rfl⟩
    refine ⟨map, t, ?_, ?_⟩
    · rw [add, h.represents.find_eq, hdescend, addName, hany]
      rfl
    · rw [addName, hany, Bool.true_or, if_pos rfl, Dmrlib.dmrIdAdd, if_pos hany]
      exact h

/-- There are no more ids than 32 bits tell apart. -/
theorem Mirrors.size_le (h : Mirrors map ids t) : t.size ≤ 2 ^ 32 := by
  have hnodup : (t.toList.map fun v => v.2.id.toNat).Nodup :=
    List.Pairwise.map _ (fun a b hab => hab.ne') h.sorted
  have hsubset : (t.toList.map fun v => v.2.id.toNat).toFinset ⊆ Finset.range (2 ^ 32) := by
    intro a ha
    obtain ⟨v, -, rfl⟩ := List.mem_map.mp (List.mem_toFinset.mp ha)
    exact Finset.mem_range.mpr v.2.id.toNat_lt
  have hcard := Finset.card_le_card hsubset
  rwa [List.toFinset_card_of_nodup hnodup, Finset.card_range, List.length_map,
    RbTree.length_toList] at hcard

end DmrIdmap

namespace SharedIds

/-- A call of a function that changes the shared map, and which allocations succeed in it. -/
inductive Call where
  | init (mem : IdMemory)
  | add (mem : IdMemory) (id : DmrId) (name : CStr)
  | free

/-- A call, what it returns (0, where it is nothing) and the shared map. -/
def step (A : Allocator) (shared : SharedIds) : Call → Option (Int × SharedIds)
  | .init mem => some (dmrIdInit mem shared)
  | .add mem id name => dmrIdAdd A mem shared id name
  | .free => some (0, dmrIdFree shared)

/-- The calls one after the other. -/
def run (A : Allocator) : SharedIds → List Call → Option (List Int × SharedIds)
  | shared, [] => some ([], shared)
  | shared, call :: calls => do
    let (ret, shared) ← step A shared call
    let (rets, shared) ← run A shared calls
    return (ret :: rets, shared)

/-- A call with a list of ids, or with none where there is no map yet. -/
def stepNames (ids : Option (List (DmrId × CStr))) : Call → Int × Option (List (DmrId × CStr))
  | .init mem => if ids.isNone && !mem.map then (-1, none) else (0, some (ids.getD []))
  | .add mem id name =>
    if ids.isNone && !mem.map then (-1, none)
    else
      let added := DmrIdmap.addName mem (ids.getD []) id name
      (added.1, some added.2)
  | .free => (0, none)

def runNames : Option (List (DmrId × CStr)) → List Call → List Int × Option (List (DmrId × CStr))
  | ids, [] => ([], ids)
  | ids, call :: calls =>
    let (ret, ids) := stepNames ids call
    let (rets, ids) := runNames ids calls
    (ret :: rets, ids)

/-- The shared map has what is in the list, or there is neither. -/
def Mirrors : SharedIds → Option (List (DmrId × CStr)) → Prop
  | none, none => True
  | some map, some ids => ∃ t, map.Mirrors ids t
  | _, _ => False

theorem Mirrors.exists_step {shared : SharedIds} {ids : Option (List (DmrId × CStr))}
    (h : Mirrors shared ids) (A : Allocator) (call : Call) :
    ∃ shared', step A shared call = some ((stepNames ids call).1, shared') ∧
      Mirrors shared' (stepNames ids call).2 := by
  cases call with
  | free => exact ⟨none, rfl, trivial⟩
  | init mem =>
    match shared, ids, h with
    | none, none, _ =>
      rw [step, dmrIdInit, stepNames]
      cases mem.map with
      | false => exact ⟨none, rfl, trivial⟩
      | true => exact ⟨some DmrIdmap.new, rfl, .nil, DmrIdmap.mirrors_new⟩
    | some map, some ids, h => exact ⟨some map, rfl, h⟩
  | add mem id name =>
    match shared, ids, h with
    -- `dmr_id_add` sets the map up by itself
    | none, none, _ =>
      rw [step, dmrIdAdd, dmrIdInit, stepNames]
      cases mem.map with
      | false => exact ⟨none, rfl, trivial⟩
      | true =>
        obtain ⟨map', t', hadd, h'⟩ := DmrIdmap.mirrors_new.exists_add A mem id name
        refine ⟨some map', ?_, t', h'⟩
        simp only [if_true, hadd]
        rfl
    | some map, some ids, ⟨t, h⟩ =>
      obtain ⟨map', t', hadd, h'⟩ := h.exists_add A mem id name
      refine ⟨some map', ?_, t', h'⟩
      rw [step, dmrIdAdd, dmrIdInit, stepNames]
      simp only [hadd]
      rfl

theorem Mirrors.exists_run {shared : SharedIds} {ids : Option (List (DmrId × CStr))}
    (h : Mirrors shared ids) (A : Allocator) (calls : List Call) :
    ∃ shared', run A shared calls = some ((runNames ids calls).1, shared') ∧
      Mirrors shared' (runNames ids calls).2 := by
  induction calls generalizing shared ids with
  | nil => exact ⟨shared, rfl, h⟩
  | cons call calls ih =>
    obtain ⟨shared₁, hstep, h₁⟩ := h.exists_step A call
    obtain ⟨shared₂, hrun, h₂⟩ := ih h₁
    refine ⟨shared₂, ?_, h₂⟩
    simp only [run, hstep, Option.bind_eq_bind, Option.bind_some, hrun]
    rfl

/-- Before the first call there is no map. -/
theorem exists_run (A : Allocator) (calls : List Call) :
    ∃ shared, run A none calls = some ((runNames none calls).1, shared) ∧
      Mirrors shared (runNames none calls).2 := by
  have hnone : Mirrors none none := trivial
  exact hnone.exists_run A calls

theorem Mirrors.dmrIdName_eq {shared : SharedIds} {ids : Option (List (DmrId × CStr))}
    (h : Mirrors shared ids) (id : DmrId) :
    dmrIdName shared id = some (Dmrlib.dmrIdName (ids.getD []) id) := by
  match shared, ids, h with
  | none, none, _ => rfl
  | some map, some ids, ⟨t, h⟩ => exact h.get_eq id

/-- The loop visits the nodes from left to right. -/
theorem visited_eq {map : DmrIdmap} {ids : List (DmrId × CStr)} {t : RbTree (ℕ × DmrIdnode)}
    (h : map.Mirrors ids t) : visited (some map) = some (t.toList.map Prod.fst) := by
  have hfuel : t.toList.length ≤ map.fuel := by
    have hsize := h.represents.size_le
    rw [t.length_toList]
    unfold DmrRbHead.fuel
    omega
  rw [visited, h.represents.minmax_eq, Option.bind_eq_bind, Option.bind_some]
  exact h.represents.foreach_eq [] rfl hfuel

theorem Mirrors.dmrIdSize_eq {shared : SharedIds} {ids : Option (List (DmrId × CStr))}
    (h : Mirrors shared ids) : dmrIdSize shared = some (ids.getD []).length := by
  match shared, ids, h with
  | none, none, _ => rfl
  | some map, some ids, ⟨t, h⟩ =>
    have hlength := h.perm.length_eq
    rw [List.length_map, List.length_map] at hlength
    rw [dmrIdSize, visited_eq h, Option.map_some, List.length_map, hlength]
    rfl

/-- **The tree does what the list does.** In every order of calls, whichever references the
allocator hands out and whichever allocations fail, no call follows a pointer to nothing, every
loop comes to an end, and the calls return what they return for the list; then every id has the
name that it has in the list, and there are as many ids. -/
theorem ids_refine (A : Allocator) (calls : List Call) :
    ∃ shared, run A none calls = some ((runNames none calls).1, shared) ∧
      (∀ id, dmrIdName shared id =
        some (Dmrlib.dmrIdName ((runNames none calls).2.getD []) id)) ∧
      dmrIdSize shared = some ((runNames none calls).2.getD []).length := by
  obtain ⟨shared, hrun, h⟩ := exists_run A calls
  exact ⟨shared, hrun, h.dmrIdName_eq, h.dmrIdSize_eq⟩

/-- **Height.** After every run of calls the pointers draw a red-black tree, and a search in it
comes to its end in twice as many rounds as the number of ids has binary digits, which is no more
than `DMR_IDMAP_HEIGHT`. -/
theorem search_within_height (A : Allocator) (calls : List Call) :
    ∃ rets shared, run A none calls = some (rets, shared) ∧
      ∀ map, shared = some map → ∃ t size, map.Represents t ∧ (∃ n, t.Balanced .black n) ∧
        dmrIdSize shared = some size ∧ 2 * Nat.log 2 (size + 1) ≤ dmrIdmapHeight ∧
        ∀ key, ∃ found,
          DmrRbHead.search idcmp map key (2 * Nat.log 2 (size + 1)) map.rbhRoot none 0 =
            some found ∧ map.find idcmp key = some found.1 := by
  obtain ⟨shared, hrun, h⟩ := exists_run A calls
  refine ⟨_, shared, hrun, ?_⟩
  rintro map rfl
  match hids : (runNames none calls).2, h with
  | some ids, h =>
    obtain ⟨t, h⟩ : ∃ t, map.Mirrors ids t := h
    obtain ⟨n, hbalanced⟩ := h.balanced
    have hlog : Nat.log 2 (t.size + 1) < 33 :=
      Nat.log_lt_of_lt_pow (by omega) (by have := h.size_le; omega)
    refine ⟨t, t.size, h.represents, h.balanced, ?_, by unfold dmrIdmapHeight; omega, fun key => ?_⟩
    · rw [dmrIdSize, visited_eq h, Option.map_some, List.length_map, RbTree.length_toList]
    · have hroot : map.Represents (fill [] t) := h.represents
      obtain ⟨parent, comp, hsearch, -⟩ :
          ∃ parent comp,
            DmrRbHead.search idcmp map key _ t.root none 0 = some (_, parent, comp) ∧ _ :=
        hroot.exists_search rfl nofun hbalanced.depth_le
      rw [← h.represents.root] at hsearch
      exact ⟨_, hsearch, h.represents.find_eq⟩

/-- **The loop over the ids.** `DMR_RB_FOREACH` comes to every node of the map once, the highest
id first. -/
theorem visited_descending (A : Allocator) (calls : List Call) :
    ∃ rets shared, run A none calls = some (rets, shared) ∧
      ∃ (nps : List ℕ) (nodes : List DmrIdnode), visited shared = some nps ∧ nps.Nodup ∧
        (nps.map fun np => shared.bind fun map => (map.heap.get? np).map (·.val)) =
          nodes.map some ∧
        (nodes.Pairwise fun a b => b.id.toNat < a.id.toNat) ∧
        (nodes.map fun n => (n.id, n.name)).Perm
          (((runNames none calls).2.getD []).map fun e => (e.1, some e.2)) := by
  obtain ⟨shared, hrun, h⟩ := exists_run A calls
  refine ⟨_, shared, hrun, ?_⟩
  match shared, hids : (runNames none calls).2, h with
  | none, none, _ => exact ⟨[], [], rfl, .nil, rfl, .nil, .nil⟩
  | some map, some ids, h =>
    obtain ⟨t, h⟩ : ∃ t, map.Mirrors ids t := h
    refine ⟨_, t.toList.map Prod.snd, visited_eq h, h.represents.nodup, ?_, ?_, ?_⟩
    · rw [List.map_map, List.map_map]
      refine List.map_congr_left fun v hv => ?_
      obtain ⟨field, hget⟩ := h.represents.holds.exists_get hv
      show (map.heap.get? v.1).map (·.val) = some v.2
      rw [hget]
      rfl
    · exact List.Pairwise.map _ (fun a b hab => hab) h.sorted
    · rw [List.map_map]
      exact h.perm

end SharedIds

end Dmrlib
