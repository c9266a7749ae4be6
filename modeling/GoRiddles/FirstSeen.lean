import Mathlib.Data.List.Nodup
import Mathlib.Data.List.Perm.Subperm
import Mathlib.Data.Nat.Find
import Mathlib.Data.Stream.Init
/-!
# FirstSeen — the distinct values of an endless sequence, in the order in which they appear

`seen s n` has the values among the first `n` of the sequence `s`, each at the place of its first appearance.  It grows by
one value at a time, so a sequence in which enough values appear passes every size on its way (`exists_seen_length`).
Nothing here names a component.
-/
namespace Riddles
namespace FirstSeen

variable {α : Type} [DecidableEq α] {s : Stream' α}

def seen (s : Stream' α) (n : Nat) : List α := (s.take n).eraseDups

@[simp] theorem seen_zero : seen s 0 = [] := rfl

theorem seen_succ (n : Nat) :
    seen s (n + 1) = if s.get n ∈ seen s n then seen s n else seen s n ++ [s.get n] := by
  unfold seen
  rw [Stream'.take_succ', List.eraseDups_append]
  by_cases h : s.get n ∈ s.take n
  · have hnone : [s.get n].removeAll (s.take n) = [] := by simp [List.removeAll, h]
    rw [if_pos (List.mem_eraseDups.2 h), hnone, List.eraseDups_nil, List.append_nil]
  · have hnew : [s.get n].removeAll (s.take n) = [s.get n] := by simp [List.removeAll, h]
    rw [if_neg (fun hmem => h (List.mem_eraseDups.1 hmem)), hnew]
    rfl

theorem mem_seen {a : α} : ∀ {n : Nat}, a ∈ seen s n ↔ ∃ k, k < n ∧ s.get k = a
  | 0 => by simp
  | n + 1 => by
    have hlast : (∃ k, k < n + 1 ∧ s.get k = a) ↔ (∃ k, k < n ∧ s.get k = a) ∨ s.get n = a := by
      simp only [Nat.lt_succ_iff_lt_or_eq, or_and_right, exists_or, exists_eq_left]
    rw [hlast, ← mem_seen, seen_succ]
    by_cases h : s.get n ∈ seen s n
    · rw [if_pos h]
      constructor
      · exact Or.inl
      · rintro (hmem | rfl)
        · exact hmem
        · exact h
    · rw [if_neg h, List.mem_append, List.mem_singleton, eq_comm]

theorem nodup_seen : ∀ n : Nat, (seen s n).Nodup
  | 0 => List.nodup_nil
  | n + 1 => by
    rw [seen_succ]
    by_cases h : s.get n ∈ seen s n
    · rw [if_pos h]
      exact nodup_seen n
    · rw [if_neg h, ← List.concat_eq_append]
      exact (nodup_seen n).concat h

theorem length_seen_succ_le (n : Nat) : (seen s (n + 1)).length ≤ (seen s n).length + 1 := by
  rw [seen_succ]
  split <;> simp

/-- **Finitely many values that all appear have all appeared at some time.** -/
theorem exists_seen_all : ∀ values : List α, (∀ a ∈ values, ∃ k, s.get k = a) → ∃ n, ∀ a ∈ values, a ∈ seen s n
  | [], _ => ⟨0, by simp⟩
  | a :: values, h => by
    obtain ⟨n, hn⟩ := exists_seen_all values (fun b hb => h b (List.mem_cons_of_mem a hb))
    obtain ⟨k, hk⟩ := h a List.mem_cons_self
    refine ⟨max n (k + 1), fun b hb => ?_⟩
    rw [mem_seen]
    rcases List.mem_cons.1 hb with rfl | hb
    · exact ⟨k, by omega, hk⟩
    · obtain ⟨j, hj, hget⟩ := mem_seen.1 (hn b hb)
      exact ⟨j, by omega, hget⟩

/-- **Every size is passed**: where distinct values all appear, there is a first time at which as many have been seen. -/
theorem exists_seen_length {values : List α} (hnodup : values.Nodup) (happear : ∀ a ∈ values, ∃ k, s.get k = a) {m : Nat}
    (hm : m ≤ values.length) : ∃ n, (seen s n).length = m ∧ ∀ k, k < n → (seen s k).length < m := by
  have hreached : ∃ n, m ≤ (seen s n).length := by
    obtain ⟨n, hn⟩ := exists_seen_all values happear
    exact ⟨n, Nat.le_trans hm (List.subperm_of_subset hnodup hn).length_le⟩
  have hfirst : ∀ k, k < Nat.find hreached → (seen s k).length < m := fun k hk => Nat.not_le.1 (Nat.find_min hreached hk)
  refine ⟨Nat.find hreached, ?_, hfirst⟩
  apply Nat.le_antisymm
  · -- the value before it is still too small, and one step adds one at most
    cases hn : Nat.find hreached with
    | zero => simp
    | succ k =>
      have hstep := length_seen_succ_le (s := s) k
      have hk := hfirst k (by omega)
      omega
  · exact Nat.find_spec hreached

end FirstSeen
end Riddles
