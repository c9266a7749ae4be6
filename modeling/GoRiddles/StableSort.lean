import Mathlib.Data.List.Sort
/-!
# StableSort — an insertion sort and a choice of elements

Insertion sort keeps the order of elements that compare equal.  Choosing elements before the sort or after it is therefore
the same, and elements of one rank come out as they went in.
-/
namespace Riddles
namespace StableSort

variable {α : Type} {r : α → α → Prop} [DecidableRel r] [IsTrans α r]

theorem filter_orderedInsert (keep : α → Bool) (a : α) (l : List α) (hl : l.Pairwise r) :
    (l.orderedInsert r a).filter keep =
      if keep a then (l.filter keep).orderedInsert r a else l.filter keep := by
  induction l with
  | nil => simp [List.filter_cons]
  | cons b l ih =>
    rw [List.pairwise_cons] at hl
    by_cases hab : r a b
    · -- everything behind `b` is above `a` as well, and so is what the choice leaves of it
      have hall : ∀ c ∈ (b :: l).filter keep, r a c := by
        intro c hc
        rcases List.mem_cons.1 (List.mem_of_mem_filter hc) with rfl | hc
        · exact hab
        · exact Trans.trans hab (hl.1 c hc)
      have hfirst : ((b :: l).filter keep).orderedInsert r a = a :: (b :: l).filter keep := by
        cases hkept : (b :: l).filter keep with
        | nil => rfl
        | cons c kept => exact List.orderedInsert_cons_of_le r kept (hall c (by simp [hkept]))
      rw [List.orderedInsert_cons_of_le r l hab, List.filter_cons, hfirst]
    · rw [List.orderedInsert_of_not_le r l hab, List.filter_cons, List.filter_cons, ih hl.2]
      by_cases hb : keep b = true
      · by_cases ha : keep a = true
        · simp [ha, hb, hab]
        · simp [ha, hb]
      · simp [hb]

/-- **Choosing commutes with sorting.** -/
theorem filter_insertionSort [Std.Total r] (keep : α → Bool) (l : List α) :
    (l.insertionSort r).filter keep = (l.filter keep).insertionSort r := by
  induction l with
  | nil => rfl
  | cons a l ih =>
    rw [List.insertionSort_cons, filter_orderedInsert keep a _ (List.pairwise_insertionSort r l), ih, List.filter_cons]
    by_cases ha : keep a = true
    · simp [ha]
    · simp [ha]

/-- **A stable sort**: the elements of one rank stay in their order. -/
theorem filter_rank {κ : Type} [LinearOrder κ] (rank : α → κ) (l : List α) (v : κ) :
    (l.insertionSort (fun a b => rank b ≤ rank a)).filter (fun a => rank a = v) = l.filter (fun a => rank a = v) := by
  have htotal : Std.Total (fun a b => rank b ≤ rank a) := ⟨fun a b => le_total (rank b) (rank a)⟩
  have htrans : IsTrans α (fun a b => rank b ≤ rank a) := ⟨fun _ _ _ hab hbc => le_trans hbc hab⟩
  rw [filter_insertionSort]
  apply List.Pairwise.insertionSort_eq
  refine List.pairwise_of_forall_mem_list (fun a ha b hb => ?_)
  have ha' := (List.mem_filter.1 ha).2
  have hb' := (List.mem_filter.1 hb).2
  simp only [decide_eq_true_eq] at ha' hb'
  rw [ha', hb']

end StableSort
end Riddles
