import Mathlib.Data.List.Nodup
import Mathlib.Data.List.Range
/-!
# Recency — most-recently-used order

`recency h` lists what occurs in a history (the latest use first) once each, by its latest use.  `order h created live` is
the order of a most-recently-used list: of the live elements, those ever used by their latest use, then those never used
as they were created.  The laws say what a use, a creation and a removal do to that order.  Nothing here names a
component.
-/
namespace Riddles
namespace Recency

variable {α : Type} [DecidableEq α]

/-- The elements of a history, once each, the latest used first. -/
def recency : List α → List α
  | []     => []
  | a :: h => a :: (recency h).filter (· ≠ a)

@[simp] theorem mem_recency : ∀ {h : List α} {x : α}, x ∈ recency h ↔ x ∈ h
  | [], _ => Iff.rfl
  | a :: h, x => by
    rw [recency, List.mem_cons, List.mem_filter, mem_recency, List.mem_cons]
    by_cases hx : x = a <;> simp [hx]

theorem nodup_recency : ∀ h : List α, (recency h).Nodup
  | [] => List.nodup_nil
  | a :: h => by
    rw [recency, List.nodup_cons]
    refine ⟨fun hmem => ?_, (nodup_recency h).filter _⟩
    simpa using (List.mem_filter.1 hmem).2

/-- The live elements: used ones by their latest use, then the others as created. -/
def order (h created live : List α) : List α :=
  (recency h).filter (· ∈ live) ++ created.filter (fun x => x ∈ live ∧ x ∉ h)

variable {h created live live' : List α} {x t : α} {l : List α}

theorem mem_order : x ∈ order h created live ↔ x ∈ live ∧ (x ∈ h ∨ x ∈ created) := by
  unfold order
  rw [List.mem_append, List.mem_filter, List.mem_filter, mem_recency]
  by_cases hx : x ∈ h <;> simp [hx, and_comm]

theorem nodup_order (hc : created.Nodup) : (order h created live).Nodup := by
  refine List.Nodup.append ((nodup_recency h).filter _) (hc.filter _) (fun y hy hy' => ?_)
  have h₁ := mem_recency.1 (List.mem_filter.1 hy).1
  have h₂ := of_decide_eq_true (List.mem_filter.1 hy').2
  exact h₂.2 h₁

theorem order_congr (hl : ∀ y, y ∈ live ↔ y ∈ live') : order h created live = order h created live' := by
  unfold order
  simp only [hl]

/-- **A removal takes the element out of the order.** -/
theorem order_remove (t : α) :
    order h created (live.filter (· ≠ t)) = (order h created live).filter (· ≠ t) := by
  unfold order
  rw [List.filter_append, List.filter_filter, List.filter_filter]
  congr 1
  · refine List.filter_congr (fun y _ => ?_)
    simp [and_comm]
  · refine List.filter_congr (fun y _ => ?_)
    simp only [List.mem_filter, decide_eq_true_eq, ne_eq, ← Bool.decide_and]
    exact decide_eq_decide.2 ⟨fun ⟨⟨a, b⟩, c⟩ => ⟨b, a, c⟩, fun ⟨b, a, c⟩ => ⟨⟨a, b⟩, c⟩⟩

/-- **A use moves the element to the front.** -/
theorem order_use (hx : x ∈ live) :
    order (x :: h) created live = x :: (order h created live).filter (· ≠ x) := by
  unfold order
  rw [recency, List.filter_cons, if_pos (decide_eq_true hx), List.filter_append, List.filter_filter, List.filter_filter,
    List.filter_filter, List.cons_append]
  congr 2
  · refine List.filter_congr (fun y _ => ?_)
    rw [Bool.and_comm]
  · refine List.filter_congr (fun y _ => ?_)
    simp only [List.mem_cons, not_or, ne_eq, ← Bool.decide_and]
    exact decide_eq_decide.2 ⟨fun ⟨a, b, c⟩ => ⟨b, a, c⟩, fun ⟨b, a, c⟩ => ⟨a, b, c⟩⟩

/-- A use of the first element changes nothing. -/
theorem order_use_head (hc : created.Nodup) (ho : order h created live = x :: l) :
    order (x :: h) created live = x :: l := by
  have hx : x ∈ live := (mem_order.1 (by rw [ho]; exact List.mem_cons_self)).1
  have hnd : (order h created live).Nodup := nodup_order hc
  rw [ho, List.nodup_cons] at hnd
  rw [order_use hx, ho, List.filter_cons, if_neg (by simp)]
  congr 1
  refine List.filter_eq_self.2 (fun y hy => decide_eq_true (fun hyx => hnd.1 (hyx ▸ hy)))

/-- **A creation appends.** -/
theorem order_create (hh : x ∉ h) (hc : x ∉ created) :
    order h (created ++ [x]) (live ++ [x]) = order h created live ++ [x] := by
  unfold order
  have hlast : [x].filter (fun y => decide (y ∈ live ++ [x] ∧ y ∉ h)) = [x] := by simp [hh]
  rw [List.filter_append, hlast, ← List.append_assoc]
  congr 2
  · refine List.filter_congr (fun y hy => ?_)
    have hne : y ≠ x := fun hyx => hh (hyx ▸ mem_recency.1 hy)
    simp [hne]
  · refine List.filter_congr (fun y hy => ?_)
    have hne : y ≠ x := fun hyx => hc (hyx ▸ hy)
    simp [hne]

end Recency
end Riddles
