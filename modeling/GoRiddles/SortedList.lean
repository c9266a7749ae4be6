import Mathlib.Data.List.Sort
/-!
# SortedList — lists in order, each item once

An item is put where the order wants it.  One that is there already takes the place of the old one, but it is looked for
only among the items that compare equal to it.  Where it goes among items that compare equal and are not the same is left
open by the order, and here it goes before them.  Nothing here names a program.
-/
namespace Riddles

/-- An order of items, and which of them are the same. -/
structure Sorter (α : Type) where
  order : α → α → Ordering
  same  : α → α → Bool
  refl  : ∀ x, order x x = .eq ∧ same x x = true
  symm  : ∀ x y, order x y = .eq ∧ same x y = true → order y x = .eq ∧ same y x = true
  trans : ∀ x y z, order x y = .eq ∧ same x y = true → order y z = .eq ∧ same y z = true → order x z = .eq ∧ same x z = true

namespace Sorter

variable {α : Type}

/-- The item `y` is found for `x`. -/
def finds (c : Sorter α) (y x : α) : Bool := c.order y x = .eq ∧ c.same y x = true

theorem finds_iff {c : Sorter α} {x y : α} : c.finds y x = true ↔ c.order y x = .eq ∧ c.same y x = true := decide_eq_true_iff

theorem finds_symm {c : Sorter α} {x y : α} (h : c.finds y x = true) : c.finds x y = true :=
  finds_iff.2 (c.symm y x (finds_iff.1 h))

theorem finds_trans {c : Sorter α} {x y z : α} (h : c.finds x y = true) (h' : c.finds y z = true) : c.finds x z = true :=
  finds_iff.2 (c.trans x y z (finds_iff.1 h) (finds_iff.1 h'))

/-- Items are the same if they are equal. -/
def ofOrder [DecidableEq α] (order : α → α → Ordering) (hrefl : ∀ x, order x x = .eq) : Sorter α where
  order := order
  same x y := x = y
  refl x := ⟨hrefl x, decide_eq_true rfl⟩
  symm := by
    rintro x y ⟨horder, hsame⟩
    cases of_decide_eq_true hsame
    exact ⟨horder, hsame⟩
  trans := by
    rintro x y z ⟨-, hsame⟩ h
    cases of_decide_eq_true hsame
    exact h

theorem finds_ofOrder [DecidableEq α] {order : α → α → Ordering} {hrefl : ∀ x, order x x = .eq} {x y : α} :
    (ofOrder order hrefl).finds y x = true ↔ y = x := by
  rw [finds_iff]
  constructor
  · exact fun h => of_decide_eq_true h.2
  · rintro rfl
    exact ⟨hrefl y, decide_eq_true rfl⟩

end Sorter

namespace SortedList

variable {α : Type} {c : Sorter α} {l xs : List α} {x y : α}

def add (c : Sorter α) (l : List α) (x : α) : List α :=
  if l.any (fun y => c.finds y x) then l.map (fun y => if c.finds y x then x else y)
  else l.orderedInsert (fun a b => (c.order a b).isLE = true) x

def addAll (c : Sorter α) (l xs : List α) : List α := xs.foldl (add c) l

/-- No item is found for another one. -/
def Apart (c : Sorter α) (l : List α) : Prop := l.Pairwise (fun y x => c.finds y x = false)

@[simp] theorem apart_nil : Apart c [] := List.Pairwise.nil

theorem mem_add (h : y ∈ add c l x) : y = x ∨ y ∈ l := by
  unfold add at h
  split at h
  · obtain ⟨z, hz, rfl⟩ := List.mem_map.1 h
    split
    · exact .inl rfl
    · exact .inr hz
  · exact (List.mem_orderedInsert _).1 h

theorem mem_addAll (h : y ∈ addAll c l xs) : y ∈ l ∨ y ∈ xs := by
  unfold addAll at h
  induction xs generalizing l with
  | nil => exact .inl h
  | cons x xs ih =>
    rcases ih h with hl | hxs
    · exact (mem_add hl).elim (fun heq => .inr (heq ▸ List.mem_cons_self)) .inl
    · exact .inr (List.mem_cons_of_mem x hxs)

/-- **A new item goes to the others.** -/
theorem add_perm (h : ∀ y ∈ l, c.finds y x = false) : (add c l x).Perm (x :: l) := by
  have hnone : l.any (fun y => c.finds y x) = false := by simpa using h
  rw [add, hnone]
  exact List.perm_orderedInsert _ x l

theorem finds_comm (c : Sorter α) (y x : α) : c.finds y x = c.finds x y := by
  rw [Bool.eq_iff_iff]
  exact ⟨Sorter.finds_symm, Sorter.finds_symm⟩

theorem apart_perm {m : List α} (h : l.Perm m) : Apart c l ↔ Apart c m :=
  h.pairwise_iff (fun {y x} hyx => (finds_comm c x y).trans hyx)

theorem apart_add (h : Apart c l) : Apart c (add c l x) := by
  by_cases hfound : l.any (fun y => c.finds y x) = true
  · rw [add, if_pos hfound, Apart, List.pairwise_map]
    refine h.imp (fun {y z} hyz => ?_)
    -- what is found for `x` is found for whatever else is
    by_cases hy : c.finds y x = true <;> by_cases hz : c.finds z x = true
    · rw [Sorter.finds_trans hy (Sorter.finds_symm hz)] at hyz
      cases hyz
    · rw [if_pos hy, if_neg hz, finds_comm]
      exact Bool.eq_false_iff.2 hz
    · rw [if_neg hy, if_pos hz]
      exact Bool.eq_false_iff.2 hy
    · rw [if_neg hy, if_neg hz]
      exact hyz
  · have hnew : ∀ y ∈ l, c.finds y x = false := by simpa using hfound
    rw [apart_perm (add_perm hnew)]
    exact List.pairwise_cons.2 ⟨fun y hy => (finds_comm c x y).trans (hnew y hy), h⟩

theorem apart_addAll (h : Apart c l) : Apart c (addAll c l xs) := by
  unfold addAll
  induction xs generalizing l with
  | nil => exact h
  | cons x xs ih => exact ih (apart_add h)

/-- **A list of items that are apart is rebuilt**, up to the order. -/
theorem addAll_perm (h : Apart c xs) : (addAll c [] xs).Perm xs := by
  have hrest : ∀ (xs l : List α), Apart c (l ++ xs) → (addAll c l xs).Perm (l ++ xs) := by
    intro xs
    induction xs with
    | nil => exact fun l _ => (List.append_nil l).symm ▸ List.Perm.refl l
    | cons x xs ih =>
      intro l hall
      have hnew : ∀ y ∈ l, c.finds y x = false := fun y hy => (List.pairwise_append.1 hall).2.2 y hy x List.mem_cons_self
      have hperm : (add c l x ++ xs).Perm (l ++ x :: xs) :=
        ((add_perm hnew).append_right xs).trans List.perm_middle.symm
      exact (ih _ ((apart_perm hperm).2 hall)).trans hperm
  exact hrest xs [] h

section
variable [DecidableEq α] {order : α → α → Ordering} {hrefl : ∀ x, order x x = .eq}

theorem mem_add_ofOrder : y ∈ add (.ofOrder order hrefl) l x ↔ y = x ∨ y ∈ l := by
  refine ⟨mem_add, fun h => ?_⟩
  by_cases hfound : l.any (fun y => (Sorter.ofOrder order hrefl).finds y x) = true
  · have hsame : l.map (fun y => if (Sorter.ofOrder order hrefl).finds y x then x else y) = l := by
      refine List.map_id'' (fun z => ?_) l
      split
      · rename_i hz
        exact (Sorter.finds_ofOrder.1 hz).symm
      · rfl
    obtain ⟨z, hz, hfinds⟩ := List.any_eq_true.1 hfound
    cases Sorter.finds_ofOrder.1 hfinds
    rw [add, if_pos hfound, hsame]
    exact h.elim (fun heq => heq ▸ hz) id
  · have hnew : ∀ y ∈ l, (Sorter.ofOrder order hrefl).finds y x = false := by simpa using hfound
    rw [(add_perm hnew).mem_iff]
    exact List.mem_cons.2 h

theorem mem_addAll_ofOrder : y ∈ addAll (.ofOrder order hrefl) l xs ↔ y ∈ l ∨ y ∈ xs := by
  unfold addAll
  induction xs generalizing l with
  | nil => simp
  | cons x xs ih =>
    rw [List.foldl_cons, ih, mem_add_ofOrder, List.mem_cons]
    tauto

end
end SortedList
end Riddles
