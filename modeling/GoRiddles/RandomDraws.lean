import GoRiddles.FirstSeen
import GoRiddles.RandomSubList
import GoRiddles.Usr
/-!
# RandomDraws — `randomSubList` on an endless generator

`CollectionUtils.kt` once more, with the calls of `Random.nextInt` as they are: the generator has an endless sequence of
numbers, a call with an empty range throws, and the loop may go on for ever.  The list of draws that `RandomSubList` works
on is the beginning of such a sequence (`randomSubList_take`).  When each index is drawn at some time the loop ends, with
the indexes in the order in which `FirstSeen` has them.
-/
namespace Riddles
namespace RandomDraws

open FirstSeen (seen)

/-- `Random.nextInt(from, until)`, which checks its range before it takes a number. -/
def nextInt (lower upper : Int) (draw : Nat) : Except Thrown Nat :=
  if upper ≤ lower then
    .error (.illegalArgument ("Random range is empty: [".toList ++ intToString lower ++ ", ".toList ++ intToString upper ++
      ").".toList))
  else .ok draw

/-- The loop of `randomSubList`, for so many turns at most; the inner `none` says that it is still drawing. -/
def drawLoop (size : Nat) (randomSize : Int) : Nat → Stream' Nat → List Nat → Except Thrown (Option (List Nat))
  | 0, _, set => .ok (if (set.length : Int) < randomSize then none else some set)
  | turns + 1, draws, set =>
    if (set.length : Int) < randomSize then
      match nextInt 0 size draws.head with
      | .error e => .error e
      | .ok d    => drawLoop size randomSize turns draws.tail (setAdd set d)
    else .ok (some set)

def randomSubList {α : Type} (l : List α) (length : Int) (turns : Nat) (draws : Stream' Nat) :
    Except Thrown (Option (List α)) :=
  -- `get` does not throw on an index of the range; `Selects.reads` says that none is passed over
  (drawLoop l.length (min length l.length) turns draws []).map (Option.map (fun r => r.filterMap (fun i => l[i]?)))

/-- What `Random.nextInt(0, size)` gives: numbers of the range, if there are any, and each of them at some time. -/
structure Fair (size : Nat) (draws : Stream' Nat) : Prop where
  inRange : 0 < size → ∀ k, draws.get k < size
  occurs  : ∀ i, i < size → ∃ k, draws.get k = i

section
variable {size : Nat} {randomSize : Int} {set : List Nat} {draws : Stream' Nat}

/-- **A call is made only for a list with entries**: the set is smaller than what is asked for, which is at most the size. -/
theorem nextInt_of_short (hsize : randomSize ≤ size) (hshort : (set.length : Int) < randomSize) (draw : Nat) :
    nextInt 0 size draw = .ok draw := by
  unfold nextInt
  rw [if_neg (by omega)]

/-! ## The list of draws -/

/-- **The loop on a generator is the loop on the beginning of its sequence**, and it never throws. -/
theorem drawLoop_take (hsize : randomSize ≤ size) : ∀ (turns : Nat) (draws : Stream' Nat) (set : List Nat),
    (0 < size → ∀ k, draws.get k < size) →
      drawLoop size randomSize turns draws set =
        .ok ((drawIndexes size randomSize set (draws.take turns)).map Prod.fst)
  | 0, draws, set, _ => by
    simp only [drawLoop, Stream'.take_zero, drawIndexes]
    split <;> rfl
  | turns + 1, draws, set, hrange => by
    rw [drawLoop, Stream'.take_succ, drawIndexes]
    by_cases hshort : (set.length : Int) < randomSize
    · have hhead : draws.head < size := hrange (by omega) 0
      rw [if_pos hshort, if_pos hshort, if_pos hhead, nextInt_of_short hsize hshort]
      exact drawLoop_take hsize turns draws.tail _ (fun hpos k => hrange hpos (k + 1))
    · rw [if_neg hshort, if_neg hshort]
      rfl

theorem randomSubList_take {α : Type} {l : List α} (length : Int) (turns : Nat)
    (hrange : 0 < l.length → ∀ k, draws.get k < l.length) :
    randomSubList l length turns draws = .ok ((Riddles.randomSubList l length (draws.take turns)).map Prod.fst) := by
  unfold randomSubList Riddles.randomSubList
  rw [drawLoop_take (Int.min_le_right _ _) turns draws [] hrange]
  simp only [Except.map, Option.map_map]
  rfl

/-! ## The order of the first draws -/

theorem seen_succ_eq (k : Nat) : seen draws (k + 1) = setAdd (seen draws k) (draws.get k) := FirstSeen.seen_succ k

/-- **After `k` calls the set has what was drawn, in the order of the first draws.**  If `n` calls are enough and fewer are
not, the loop ends after `n`. -/
theorem drawLoop_seen (hsize : randomSize ≤ size) {n : Nat} (hfull : randomSize ≤ (seen draws n).length)
    (hshort : ∀ k, k < n → ((seen draws k).length : Int) < randomSize) : ∀ turns k : Nat, k ≤ n →
      drawLoop size randomSize turns (draws.drop k) (seen draws k) =
        .ok (if k + turns < n then none else some (seen draws n))
  | 0, k, hk => by
    rw [drawLoop]
    rcases Nat.lt_or_eq_of_le hk with hlt | rfl
    · rw [if_pos (hshort k hlt), if_pos (by omega)]
    · rw [if_neg (by omega), if_neg (by omega)]
  | turns + 1, k, hk => by
    rw [drawLoop]
    rcases Nat.lt_or_eq_of_le hk with hlt | rfl
    · rw [if_pos (hshort k hlt), nextInt_of_short hsize (hshort k hlt), Stream'.head_drop, Stream'.tail_drop']
      simp only
      rw [← seen_succ_eq, drawLoop_seen hsize hfull hshort turns (k + 1) hlt, Nat.add_right_comm, Nat.add_assoc]
    · rw [if_neg (by omega), if_neg (by omega)]

end

/-- **An injective selection**: after so many calls of the generator the loop is at its end, and no call throws; the list is
read at distinct indexes, in the order in which they were drawn first, as many as asked for or as there are. -/
structure Selects {α : Type} (l : List α) (length : Int) (draws : Stream' Nat) (calls : Nat) (r : List α) : Prop where
  ends     : ∀ turns, randomSubList l length turns draws = .ok (if turns < calls then none else some r)
  distinct : (seen draws calls).Nodup
  reads    : List.Forall₂ (fun i a => l[i]? = some a) (seen draws calls) r
  size     : (r.length : Int) = max 0 (min length l.length)
  /-- `Random.nextInt(0, size)` is not called with an empty range. -/
  range    : 0 < calls → 0 < l.length
  perm     : length = l.length → r.Perm l

/-- **`randomSubList` selects.**  For every list, every length and every sequence of numbers of the range in which each
index occurs. -/
theorem randomSubList_selects {α : Type} (l : List α) (length : Int) (draws : Stream' Nat) (h : Fair l.length draws) :
    ∃ calls r, Selects l length draws calls r := by
  have happear : ∀ i ∈ List.range l.length, ∃ k, draws.get k = i := fun i hi => h.occurs i (List.mem_range.1 hi)
  have hm : (min length l.length).toNat ≤ (List.range l.length).length := by
    rw [List.length_range]
    omega
  obtain ⟨calls, hlen, hshort⟩ := FirstSeen.exists_seen_length List.nodup_range happear hm
  have hrange : 0 < calls → 0 < l.length := by
    intro hcalls
    have hfirst := hshort 0 hcalls
    omega
  have hlt : ∀ i ∈ seen draws calls, i < l.length := by
    intro i hi
    obtain ⟨k, hk, rfl⟩ := FirstSeen.mem_seen.1 hi
    exact h.inRange (hrange (by omega)) k
  have hreads := forall₂_filterMap_getElem? l (seen draws calls) hlt
  have hends : ∀ turns, randomSubList l length turns draws =
      .ok (if turns < calls then none else some ((seen draws calls).filterMap (fun i => l[i]?))) := by
    intro turns
    have hfull : min length l.length ≤ ((seen draws calls).length : Int) := by omega
    have hshort' : ∀ k, k < calls → ((seen draws k).length : Int) < min length l.length := by
      intro k hk
      have hk := hshort k hk
      omega
    have hloop := drawLoop_seen (Int.min_le_right length l.length) hfull hshort' turns 0 (Nat.zero_le calls)
    rw [Stream'.drop_zero, FirstSeen.seen_zero, Nat.zero_add] at hloop
    rw [randomSubList, hloop]
    split <;> rfl
  refine ⟨calls, _, hends, FirstSeen.nodup_seen calls, hreads, ?_, hrange, ?_⟩
  · rw [← hreads.length_eq]
    omega
  · rintro rfl
    have htake := hends calls
    rw [randomSubList_take _ _ h.inRange, if_neg (Nat.lt_irrefl calls), Except.ok.injEq, Option.map_eq_some_iff] at htake
    obtain ⟨⟨r, rest⟩, hlist, rfl⟩ := htake
    exact randomSubList_perm hlist

/-- The numbers below three, in turn and each of them twice. -/
def stutter : Stream' Nat := fun k => k / 2 % 3

theorem fair_stutter : Fair 3 stutter where
  inRange _ _ := Nat.mod_lt _ (by omega)
  occurs i hi := by
    refine ⟨2 * i, ?_⟩
    show 2 * i / 2 % 3 = i
    omega

/-- Two of three entries, after one draw in vain. -/
theorem randomSubList_selects_stutter :
    randomSubList ['a', 'b', 'c'] 2 2 stutter = .ok none ∧
      randomSubList ['a', 'b', 'c'] 2 3 stutter = .ok (some ['a', 'b']) ∧
        ∃ calls r, Selects ['a', 'b', 'c'] 2 stutter calls r :=
  ⟨rfl, rfl, randomSubList_selects ['a', 'b', 'c'] 2 stutter fair_stutter⟩

end RandomDraws
end Riddles
