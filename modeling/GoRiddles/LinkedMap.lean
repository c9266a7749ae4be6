import Mathlib.Data.List.Nodup
import Mathlib.Data.List.Basic
/-!
# LinkedMap — maps that keep the order of their keys

A map is the list of its entries, with each key in it once.  A key that is put again keeps its place, a new one goes to the
end.  Two maps are the same when they give the same answers, whatever the order.
-/
namespace Riddles

/-- A map with keys in `κ`. -/
structure LinkedMap (κ ν : Type) where
  entries : List (κ × ν)
  nodup   : (entries.map Prod.fst).Nodup

namespace LinkedMap

variable {κ ν : Type}

theorem ext {m n : LinkedMap κ ν} (h : m.entries = n.entries) : m = n := by
  cases m
  cases n
  congr

variable [DecidableEq κ]

def empty : LinkedMap κ ν := ⟨[], List.nodup_nil⟩

def get (m : LinkedMap κ ν) (k : κ) : Option ν := (m.entries.find? (fun p => p.1 = k)).map Prod.snd

def has (m : LinkedMap κ ν) (k : κ) : Bool := m.entries.any (fun p => p.1 = k)

/-- The entries with `k` set to `v`. -/
def placed (k : κ) (v : ν) : List (κ × ν) → List (κ × ν)
  | []      => [(k, v)]
  | p :: ps => if p.1 = k then (k, v) :: ps else p :: placed k v ps

theorem mem_keys_placed {k j : κ} {v : ν} : ∀ {ps : List (κ × ν)},
    j ∈ (placed k v ps).map Prod.fst ↔ j = k ∨ j ∈ ps.map Prod.fst
  | [] => by simp [placed]
  | p :: ps => by
    rw [placed]
    by_cases h : p.1 = k
    · rw [if_pos h]
      simp [h]
    · rw [if_neg h, List.map_cons, List.mem_cons, mem_keys_placed, List.map_cons, List.mem_cons]
      exact or_left_comm

theorem nodup_placed {k : κ} {v : ν} : ∀ {ps : List (κ × ν)}, (ps.map Prod.fst).Nodup → ((placed k v ps).map Prod.fst).Nodup
  | [], _ => by simp [placed]
  | p :: ps, h => by
    obtain ⟨hp, hps⟩ := List.nodup_cons.1 h
    rw [placed]
    by_cases hk : p.1 = k
    · rw [if_pos hk]
      exact List.nodup_cons.2 ⟨hk ▸ hp, hps⟩
    · rw [if_neg hk]
      refine List.nodup_cons.2 ⟨fun hmem => ?_, nodup_placed hps⟩
      rcases mem_keys_placed.1 hmem with h | h
      · exact hk h
      · exact hp h

def put (m : LinkedMap κ ν) (k : κ) (v : ν) : LinkedMap κ ν := ⟨placed k v m.entries, nodup_placed m.nodup⟩

def remove (m : LinkedMap κ ν) (k : κ) : LinkedMap κ ν :=
  ⟨m.entries.filter (fun p => p.1 ≠ k), m.nodup.sublist (List.filter_sublist.map Prod.fst)⟩

variable {m n : LinkedMap κ ν} {k j : κ} {v : ν}

@[simp] theorem get_empty (k : κ) : (empty : LinkedMap κ ν).get k = none := rfl

theorem find_placed : ∀ ps : List (κ × ν),
    ((placed k v ps).find? (fun p => p.1 = j)).map Prod.snd =
      if j = k then some v else (ps.find? (fun p => p.1 = j)).map Prod.snd
  | [] => by
    by_cases h : j = k
    · simp [placed, h]
    · simp [placed, h, Ne.symm h]
  | p :: ps => by
    rw [placed]
    by_cases hp : p.1 = k
    · by_cases h : j = k
      · simp [hp, h]
      · simp [hp, h, Ne.symm h]
    · rw [if_neg hp]
      by_cases hj : p.1 = j
      · have h : j ≠ k := hj ▸ hp
        simp [hj, h]
      · rw [List.find?_cons_of_neg (by simpa using hj), List.find?_cons_of_neg (by simpa using hj), find_placed ps]

theorem get_put : (m.put k v).get j = if j = k then some v else m.get j := find_placed m.entries

theorem get_remove : (m.remove k).get j = if j = k then none else m.get j := by
  unfold get remove
  rw [List.find?_filter]
  by_cases h : j = k
  · rw [if_pos h, Option.map_eq_none_iff, List.find?_eq_none]
    intro p _
    simp only [decide_eq_true_eq, not_and]
    intro hne hj
    exact hne (hj.trans h)
  · rw [if_neg h]
    congr 2
    funext p
    by_cases hp : p.1 = j
    · simp [hp, h]
    · simp [hp]

theorem get_eq_some : m.get k = some v ↔ (k, v) ∈ m.entries := by
  unfold get
  rw [Option.map_eq_some_iff]
  constructor
  · rintro ⟨p, hp, rfl⟩
    have hk : p.1 = k := by simpa using List.find?_some hp
    have hmem := List.mem_of_find?_eq_some hp
    rwa [← hk]
  · intro hmem
    have hsome : (m.entries.find? (fun p => p.1 = k)).isSome := List.find?_isSome.2 ⟨(k, v), hmem, by simp⟩
    obtain ⟨p, hp⟩ := Option.isSome_iff_exists.1 hsome
    have hk : p.1 = k := by simpa using List.find?_some hp
    have heq := List.inj_on_of_nodup_map m.nodup (List.mem_of_find?_eq_some hp) hmem hk
    exact ⟨p, hp, by rw [heq]⟩

theorem mem_put {p : κ × ν} (h : p ∈ (m.put k v).entries) : p = (k, v) ∨ p ∈ m.entries := by
  have hget : (m.put k v).get p.1 = some p.2 := get_eq_some.2 h
  rw [get_put] at hget
  by_cases hp : p.1 = k
  · rw [if_pos hp, Option.some.injEq] at hget
    exact .inl (Prod.ext hp hget.symm)
  · rw [if_neg hp] at hget
    exact .inr (get_eq_some.1 hget)

theorem has_iff : m.has k = true ↔ m.get k ≠ none := by
  unfold has get
  rw [List.any_eq_true, Ne, Option.map_eq_none_iff, List.find?_eq_none]
  simp

/-- The entries, put one after the other. -/
def putAll (m : LinkedMap κ ν) (ps : List (κ × ν)) : LinkedMap κ ν := ps.foldl (fun m p => m.put p.1 p.2) m

theorem placed_of_not_mem : ∀ {ps : List (κ × ν)}, k ∉ ps.map Prod.fst → placed k v ps = ps ++ [(k, v)]
  | [], _ => rfl
  | p :: ps, h => by
    rw [List.map_cons, List.mem_cons, not_or] at h
    rw [placed, if_neg (Ne.symm h.1), placed_of_not_mem h.2]
    rfl

/-- **New entries go to the end**, in their order. -/
theorem entries_putAll : ∀ (ps : List (κ × ν)) (m : LinkedMap κ ν), ((m.entries ++ ps).map Prod.fst).Nodup →
    (m.putAll ps).entries = m.entries ++ ps
  | [], m, _ => (List.append_nil _).symm
  | p :: ps, m, h => by
    have hp : p.1 ∉ m.entries.map Prod.fst := by
      rw [List.map_append, List.nodup_append] at h
      exact fun hmem => h.2.2 _ hmem p.1 (List.mem_map_of_mem List.mem_cons_self) rfl
    have hput : (m.put p.1 p.2).entries = m.entries ++ [p] := placed_of_not_mem hp
    have hnodup : (((m.put p.1 p.2).entries ++ ps).map Prod.fst).Nodup := by
      rw [hput, List.append_assoc]
      exact h
    have hcons : m.putAll (p :: ps) = (m.put p.1 p.2).putAll ps := rfl
    rw [hcons, entries_putAll ps _ hnodup, hput, List.append_assoc]
    rfl

/-- **Putting entries with distinct keys** gives each of them, and leaves the other keys alone. -/
theorem get_putAll : ∀ (ps : List (κ × ν)) (m : LinkedMap κ ν), (ps.map Prod.fst).Nodup →
    (m.putAll ps).get k = ((ps.find? (fun p => p.1 = k)).map Prod.snd).or (m.get k)
  | [], m, _ => by simp [putAll]
  | p :: ps, m, h => by
    obtain ⟨hp, hps⟩ := List.nodup_cons.1 h
    have hcons : m.putAll (p :: ps) = (m.put p.1 p.2).putAll ps := rfl
    rw [hcons, get_putAll ps _ hps, get_put]
    by_cases hk : p.1 = k
    · have hnone : ps.find? (fun q => q.1 = k) = none := by
        rw [List.find?_eq_none]
        intro q hq hqk
        exact hp (List.mem_map.2 ⟨q, hq, (of_decide_eq_true hqk).trans hk.symm⟩)
      simp [hk, hnone]
    · simp [hk, Ne.symm hk]

theorem mem_putAll {p : κ × ν} : ∀ (ps : List (κ × ν)) {m : LinkedMap κ ν}, p ∈ (m.putAll ps).entries → p ∈ ps ∨ p ∈ m.entries
  | [], _, h => .inr h
  | q :: ps, _, h => by
    rcases mem_putAll ps h with h | h
    · exact .inl (List.mem_cons_of_mem q h)
    · rcases mem_put h with rfl | h
      · exact .inl List.mem_cons_self
      · exact .inr h

theorem get_putAll_ne_none : ∀ (ps : List (κ × ν)) {m : LinkedMap κ ν},
    (m.putAll ps).get k ≠ none ↔ (∃ p ∈ ps, p.1 = k) ∨ m.get k ≠ none
  | [], m => by simp [putAll]
  | p :: ps, m => by
    have hcons : m.putAll (p :: ps) = (m.put p.1 p.2).putAll ps := rfl
    rw [hcons, get_putAll_ne_none ps, get_put]
    by_cases hp : k = p.1
    · simp [hp]
    · simp [hp, Ne.symm hp]

end LinkedMap
end Riddles
