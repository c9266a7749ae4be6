import Mathlib.Data.List.Perm.Subperm
import Mathlib.Data.List.Nodup
import Mathlib.Data.List.Range
/-!
# RandomSubList — rejection sampling into an insertion-ordered set

`CollectionUtils.kt`.  The generator is an explicit list of draws: `Random.nextInt(0, size)` takes the next one, which
is below `size`, and a loop still running when the list ends has not returned.  What a finished loop returns is a part
of the list read at distinct positions, a `Subperm` of it.
-/
namespace Riddles

/-- `MutableSet.add` on an insertion-ordered set. -/
def setAdd (set : List Nat) (d : Nat) : List Nat := if d ∈ set then set else set ++ [d]

theorem nodup_setAdd {set : List Nat} (h : set.Nodup) (d : Nat) : (setAdd set d).Nodup := by
  unfold setAdd
  by_cases hmem : d ∈ set
  · rw [if_pos hmem]
    exact h
  · rw [if_neg hmem, ← List.concat_eq_append]
    exact h.concat hmem

theorem mem_setAdd {set : List Nat} {d i : Nat} : i ∈ setAdd set d ↔ i = d ∨ i ∈ set := by
  unfold setAdd
  by_cases hmem : d ∈ set
  · rw [if_pos hmem]
    constructor
    · exact Or.inr
    · rintro (rfl | hi)
      · exact hmem
      · exact hi
  · rw [if_neg hmem, List.mem_append, List.mem_singleton, or_comm]

theorem length_setAdd_le (set : List Nat) (d : Nat) : (setAdd set d).length ≤ set.length + 1 := by
  unfold setAdd
  split <;> simp

/-- The loop of `randomSubList`: the index set and the draws left, `none` while it is still drawing. -/
def drawIndexes (size : Nat) (randomSize : Int) : List Nat → List Nat → Option (List Nat × List Nat)
  | set, [] => if (set.length : Int) < randomSize then none else some (set, [])
  | set, d :: ds =>
    if (set.length : Int) < randomSize then
      if d < size then drawIndexes size randomSize (setAdd set d) ds else none
    else some (set, d :: ds)

def randomSubList {α : Type} (l : List α) (length : Int) (draws : List Nat) : Option (List α × List Nat) :=
  (drawIndexes l.length (min length l.length) [] draws).map (fun r => (r.1.filterMap (fun i => l[i]?), r.2))

/-- **The loop invariant**: distinct indexes of the list, no more of them than asked for. -/
structure IndexSet (size : Nat) (randomSize : Int) (set : List Nat) : Prop where
  nodup : set.Nodup
  lt    : ∀ i ∈ set, i < size
  le    : (set.length : Int) ≤ max 0 randomSize

theorem indexSet_nil (size : Nat) (randomSize : Int) : IndexSet size randomSize [] :=
  ⟨List.nodup_nil, by simp, by rw [List.length_nil]; omega⟩

theorem indexSet_setAdd {size : Nat} {randomSize : Int} {set : List Nat} {d : Nat} (h : IndexSet size randomSize set)
    (hlt : (set.length : Int) < randomSize) (hd : d < size) : IndexSet size randomSize (setAdd set d) where
  nodup := nodup_setAdd h.nodup d
  lt i hi := by
    rcases mem_setAdd.1 hi with rfl | hi
    · exact hd
    · exact h.lt i hi
  le := by
    have hlen := length_setAdd_le set d
    omega

/-- **What a finished loop leaves**: the invariant, and exactly as many indexes as asked for. -/
theorem drawIndexes_spec {size : Nat} {randomSize : Int} {out : List Nat × List Nat} :
    ∀ (draws set : List Nat), IndexSet size randomSize set → drawIndexes size randomSize set draws = some out →
      IndexSet size randomSize out.1 ∧ (out.1.length : Int) = max 0 randomSize
  | [], set, hs, h => by
    unfold drawIndexes at h
    split at h
    · cases h
    · cases h
      have := hs.le
      refine ⟨hs, ?_⟩
      show (set.length : Int) = _
      omega
  | d :: ds, set, hs, h => by
    unfold drawIndexes at h
    split at h
    · rename_i hlt
      split at h
      · rename_i hd
        exact drawIndexes_spec ds _ (indexSet_setAdd hs hlt hd) h
      · cases h
    · cases h
      have := hs.le
      refine ⟨hs, ?_⟩
      show (set.length : Int) = _
      omega

theorem filterMap_range_getElem? {α : Type} : ∀ (l : List α), (List.range l.length).filterMap (fun i => l[i]?) = l
  | [] => rfl
  | a :: l => by
    rw [List.length_cons, List.range_succ_eq_map, List.filterMap_cons_some (b := a) (by simp), List.filterMap_map]
    congr 1
    exact filterMap_range_getElem? l

/-- **A list read at distinct positions is a part of it**, of the length of the positions. -/
theorem subperm_filterMap_getElem? {α : Type} (l : List α) {idx : List Nat} (hnd : idx.Nodup)
    (hlt : ∀ i ∈ idx, i < l.length) :
    (idx.filterMap (fun i => l[i]?)).Subperm l ∧ (idx.filterMap (fun i => l[i]?)).length = idx.length := by
  constructor
  · obtain ⟨m, hm, hs⟩ : idx.Subperm (List.range l.length) :=
      List.subperm_of_subset hnd (fun i hi => List.mem_range.2 (hlt i hi))
    refine ⟨m.filterMap (fun i => l[i]?), hm.filterMap _, ?_⟩
    have := hs.filterMap (fun i => l[i]?)
    rwa [filterMap_range_getElem?] at this
  · rw [List.filterMap_length_eq_length]
    intro i hi
    simp [hlt i hi]

/-- **A finished `randomSubList` reads the list at distinct positions**, as many as asked for or as there are. -/
theorem randomSubList_indexes {α : Type} {l r : List α} {length : Int} {draws rest : List Nat}
    (h : randomSubList l length draws = some (r, rest)) :
    ∃ idx, IndexSet l.length (min length l.length) idx ∧ (idx.length : Int) = max 0 (min length l.length) ∧
      idx.filterMap (fun i => l[i]?) = r := by
  unfold randomSubList at h
  obtain ⟨out, hout, hr⟩ := Option.map_eq_some_iff.1 h
  obtain ⟨hset, hlen⟩ := drawIndexes_spec draws [] (indexSet_nil _ _) hout
  simp only [Prod.mk.injEq] at hr
  exact ⟨out.1, hset, hlen, hr.1⟩

theorem forall₂_filterMap_getElem? {α : Type} (l : List α) (idx : List Nat) (hlt : ∀ i ∈ idx, i < l.length) :
    List.Forall₂ (fun i a => l[i]? = some a) idx (idx.filterMap (fun i => l[i]?)) := by
  induction idx with
  | nil => simp
  | cons i idx ih =>
    have hi : l[i]? = some (l.get ⟨i, hlt i List.mem_cons_self⟩) := List.getElem?_eq_getElem _
    rw [List.filterMap_cons_some hi]
    exact .cons hi (ih (fun j hj => hlt j (List.mem_cons_of_mem _ hj)))

/-- **A finished `randomSubList` returns a part of the list**, as long as asked for and no longer than the list. -/
theorem randomSubList_spec {α : Type} {l r : List α} {length : Int} {draws rest : List Nat}
    (h : randomSubList l length draws = some (r, rest)) :
    r.Subperm l ∧ (r.length : Int) = max 0 (min length l.length) := by
  obtain ⟨idx, hset, hlen, rfl⟩ := randomSubList_indexes h
  obtain ⟨hsub, hl⟩ := subperm_filterMap_getElem? l hset.nodup hset.lt
  exact ⟨hsub, by rw [hl]; exact hlen⟩

/-- **Asked for the whole list, it returns a permutation of it.** -/
theorem randomSubList_perm {α : Type} {l r : List α} {draws rest : List Nat}
    (h : randomSubList l l.length draws = some (r, rest)) : r.Perm l := by
  obtain ⟨hsub, hlen⟩ := randomSubList_spec h
  exact hsub.perm_of_length_le (by omega)

end Riddles
