import Mathlib.Data.List.Sort
/-!
# Waterfall — options tried one after the other

A queue of options is tried one at a time: the first is requested, and the next when the answer is negative, until an answer
is positive or the queue is empty.  `course` is what is seen of it for a tape of answers, `left` the part of the queue that
begins with the request not answered, and `outcome` how it stands.  Nothing here names a component.
-/
namespace Riddles
namespace Waterfall

variable {α β : Type}

inductive Traffic (α β : Type) where
  | request (option : α)
  | answer (result : Option β)
  deriving DecidableEq, Repr

inductive Outcome (β : Type) where
  /-- A request is not answered. -/
  | asking
  | found (result : β)
  | nothing
  deriving DecidableEq, Repr

def course : List α → List (Option β) → List (Traffic α β)
  | [], _               => []
  | a :: _, []          => [.request a]
  | a :: _, some b :: _ => [.request a, .answer (some b)]
  | a :: q, none :: rs  => .request a :: .answer none :: course q rs

def outcome : List α → List (Option β) → Outcome β
  | [], _               => .nothing
  | _ :: _, []          => .asking
  | _ :: _, some b :: _ => .found b
  | _ :: q, none :: rs  => outcome q rs

def left : List α → List (Option β) → List α
  | q, []               => q
  | [], _               => []
  | _ :: _, some _ :: _ => []
  | _ :: q, none :: rs  => left q rs

theorem course_start (q : List α) : course q ([] : List (Option β)) = q.head?.toList.map .request := by
  cases q <;> rfl

theorem outcome_start (q : List α) : outcome q ([] : List (Option β)) = if q = [] then .nothing else .asking := by
  cases q <;> simp [outcome]

theorem left_start (q : List α) : left q ([] : List (Option β)) = q := by
  cases q <;> rfl

theorem left_nil (rs : List (Option β)) : left ([] : List α) rs = [] := by
  cases rs <;> rfl

/-- Something is asked as long as something is left. -/
theorem outcome_eq_asking : ∀ (q : List α) (rs : List (Option β)), outcome q rs = .asking ↔ left q rs ≠ []
  | [], rs => by simp [outcome, left_nil]
  | _ :: _, [] => by simp [outcome, left]
  | _ :: _, some _ :: _ => by simp [outcome, left]
  | _ :: q, none :: rs => by
    rw [outcome, left]
    exact outcome_eq_asking q rs

/-- **A negative answer** to the request: what is left begins with the next option, which is requested. -/
theorem refused {a : α} {q' : List α} : ∀ (q : List α) (rs : List (Option β)), left q rs = a :: q' →
    left q (rs ++ [none]) = q' ∧
      course q (rs ++ [none]) = course q rs ++ .answer none :: q'.head?.toList.map .request ∧
      outcome q (rs ++ [none]) = if q' = [] then .nothing else .asking
  | [], rs, h => by
    rw [left_nil] at h
    cases h
  | _ :: q, [], h => by
    cases h
    simp [left_start, course, course_start, left, outcome, outcome_start]
  | _ :: _, some _ :: _, h => by cases h
  | _ :: q, none :: rs, h => by
    obtain ⟨hl, hc, ho⟩ := refused q rs h
    exact ⟨hl, by simp [course, hc], ho⟩

/-- **A positive answer** ends it. -/
theorem granted {a : α} {q' : List α} (b : β) : ∀ (q : List α) (rs : List (Option β)), left q rs = a :: q' →
    course q (rs ++ [some b]) = course q rs ++ [.answer (some b)] ∧ outcome q (rs ++ [some b]) = .found b
  | [], rs, h => by
    rw [left_nil] at h
    cases h
  | _ :: q, [], h => by
    cases h
    simp [course, outcome]
  | _ :: _, some _ :: _, h => by cases h
  | _ :: q, none :: rs, h => by
    obtain ⟨hc, ho⟩ := granted b q rs h
    exact ⟨by simp [course, hc], ho⟩

end Waterfall
end Riddles
