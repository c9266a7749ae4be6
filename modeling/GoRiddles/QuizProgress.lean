import GoRiddles.Experience
import GoRiddles.QuizLedger
/-!
# QuizProgress — level and experience by the number of right answers

From a fresh store the level and the experience depend on one number, how often the right option was hit.  An answer
gives 5 up to level 5 and 10 from there on, and the experience is always a multiple of what an answer gives, so a level
is left with nothing over: the loop of `increaseExperience` turns once and its leftover branch never sees a surplus.
-/
namespace Riddles

/-- The level after `n` right answers. -/
def levelAfter (n : Nat) : Int :=
  if n < 50 then 1 + (n / 10 : Nat) else if n < 70 then 6 + ((n - 50) / 5 : Nat) else 10

/-- The experience after `n` right answers. -/
def expAfter (n : Nat) : Int :=
  if n < 50 then 5 * (n % 10 : Nat) else if n < 70 then 10 * ((n - 50) % 5 : Nat) else 0

theorem levelAfter_range (n : Nat) : 1 ≤ levelAfter n ∧ levelAfter n ≤ 10 := by
  unfold levelAfter
  split
  · omega
  · split <;> omega

theorem expAfter_range (n : Nat) : 0 ≤ expAfter n ∧ expAfter n ≤ 49 := by
  unfold expAfter
  split
  · omega
  · split <;> omega

namespace Usr

/-- **A gain that does not pass 50 fits one level**: it adds to the experience, or ends the level with nothing over. -/
theorem increaseExperience_spec (u : Usr) (exp : Int) (hl : u.getLevel < 10) (he : 0 ≤ u.getLevelExp) (hexp : 0 < exp)
    (hfit : u.getLevelExp + exp ≤ 50) :
    ∃ v, u.increaseExperience exp = .ok v ∧
      v.getLevel = (if u.getLevelExp + exp = 50 then u.getLevel + 1 else u.getLevel) ∧
      v.getLevelExp = (if u.getLevelExp + exp = 50 then 0 else u.getLevelExp + exp) := by
  have hreached : u.reached exp = u.getLevel + (u.getLevelExp + exp) / 50 := rfl
  refine ⟨u.gained exp, ?_, ?_, ?_⟩
  · rw [increaseExperience_eq hl he (by omega) (by omega) (by omega), if_neg (by omega)]
  · rw [getLevel_gained he (by omega), hreached]
    split <;> omega
  · rw [getLevelExp_gained, leftover]
    by_cases h50 : u.getLevelExp + exp = 50
    · rw [if_pos h50, h50]
      rfl
    · rw [if_neg h50, if_pos (by omega)]

theorem increaseExperience_top (u : Usr) (exp : Int) (hl : 10 ≤ u.getLevel) : u.increaseExperience exp = .ok u := by
  unfold increaseExperience
  simp only [ge_iff_le, if_pos hl]

end Usr

namespace Quiz

variable {lib : Library} {s t : Quiz} {e : Event}

/-- What `checkLevelValue` throws. -/
def levelError : Thrown := .illegalArgument "usrLevel must be in 1..10".toList

/-- Level and experience are those of `n` right answers. -/
structure Progress (n : Nat) (s : Quiz) : Prop where
  level   : s.usr.getLevel = levelAfter n
  exp     : s.usr.getLevelExp = expAfter n
  crashed : s.crashed ≠ some levelError

theorem increase_after {u : Usr} {n : Nat} (hl : u.getLevel = levelAfter n) : increase u = if n < 50 then 5 else 10 := by
  unfold increase
  rw [hl, levelAfter]
  split <;> split <;> (try split) <;> omega

/-- One more right answer, from level and experience after `n` to those after `n + 1`. -/
theorem increaseExperience_after {u : Usr} {n : Nat} (hl : u.getLevel = levelAfter n) (he : u.getLevelExp = expAfter n) :
    ∃ v, u.increaseExperience (increase u) = .ok v ∧ v.getLevel = levelAfter (n + 1) ∧ v.getLevelExp = expAfter (n + 1) := by
  by_cases htop : n < 70
  · have hgain := increase_after hl
    have hlt : levelAfter n < 10 := by
      unfold levelAfter
      split <;> omega
    have hfit : expAfter n + increase u ≤ 50 := by
      rw [hgain, expAfter]
      split <;> omega
    have hpos : 0 < increase u := by
      rw [hgain]
      split <;> omega
    obtain ⟨v, hv, hvl, hve⟩ := u.increaseExperience_spec (increase u) (by rw [hl]; exact hlt)
      (by rw [he]; exact (expAfter_range n).1) hpos (by rw [he]; exact hfit)
    refine ⟨v, hv, ?_, ?_⟩
    · rw [hvl, he, hl, hgain, levelAfter, levelAfter, expAfter]
      by_cases h : n < 50
      · simp only [if_pos h]
        split <;> split <;> omega
      · simp only [if_neg h, if_pos htop]
        split <;> split <;> (try split) <;> omega
    · rw [hve, he, hgain, expAfter, expAfter]
      by_cases h : n < 50
      · simp only [if_pos h]
        split <;> split <;> omega
      · simp only [if_neg h, if_pos htop]
        split <;> split <;> (try split) <;> omega
  · have h10 : u.getLevel = 10 := by
      rw [hl, levelAfter, if_neg (by omega), if_neg htop]
    refine ⟨u, u.increaseExperience_top _ (by omega), ?_, ?_⟩
    · rw [h10, levelAfter, if_neg (by omega), if_neg (by omega)]
    · rw [he, expAfter, expAfter, if_neg (by omega), if_neg htop, if_neg (by omega), if_neg (by omega)]

/-- What leaves level and experience keeps the progress. -/
theorem Progress.kept {n : Nat} (h : Progress n s)
    (hframe : ∀ a, a = .usrLevel ∨ a = .usrLevelExp → t.usr.sp.attr a = s.usr.sp.attr a)
    (hx : t.crashed ≠ some levelError) : Progress n t := by
  have hl : t.usr.getLevel = s.usr.getLevel := by rw [Usr.getLevel, hframe _ (.inl rfl), Usr.getLevel]
  have he : t.usr.getLevelExp = s.usr.getLevelExp := hframe _ (.inr rfl)
  exact ⟨hl.trans h.level, he.trans h.exp, hx⟩

theorem ne_levelError (hc : t.crashed = none) : t.crashed ≠ some levelError := by
  intro hx
  rw [hc] at hx
  cases hx

/-- The level of a quiz in progress is one that `checkLevelValue` lets through. -/
theorem Progress.level_passes {n : Nat} (h : Progress n s) (x : Thrown) : checkLevelValue s.usr.getLevel ≠ .error x := by
  intro hx
  have hrange := levelAfter_range n
  rw [h.level, checkLevelValue_of_range hrange.1 hrange.2] at hx
  cases hx

/-- **A right answer goes on to the progress of one answer more.** -/
theorem Progress.paid {n : Nat} {inc : Int} {u : Usr} (h : Progress n s) (reward : Reward s t inc u) :
    Progress (n + 1) t := by
  have hul : u.getLevel = levelAfter n := by
    rw [← h.level, Usr.getLevel, reward.frame .usrLevel (by decide)]
    rfl
  have hue : u.getLevelExp = expAfter n := by
    rw [← h.exp]
    exact reward.frame .usrLevelExp (by decide)
  have hinc : inc = increase u := by
    rw [reward.inc_eq, increase_after hul, increase_after h.level]
  obtain ⟨v, hv, hvl, hve⟩ := increaseExperience_after hul hue
  rw [← hinc] at hv
  rcases reward.exp with ⟨hok, hc⟩ | ⟨x, herr, -⟩
  · rw [hv] at hok
    cases hok
    exact ⟨hvl, hve, ne_levelError hc⟩
  · rw [hv] at herr
    cases herr

theorem progress_step {n : Nat} (h : Progress n s) (hs : step lib s e = some t) :
    Progress (if s.hits e then n + 1 else n) t := by
  obtain ⟨new, -, hbook⟩ := booking_of_step hs
  cases hbook with
  | nothing usr _ crashed other =>
    rw [other.1]
    refine h.kept (fun a _ => by rw [usr]) (fun hx => ?_)
    rcases crashed _ hx with hx | hx | hx
    · cases hx
    · exact absurd hx (by decide)
    · exact h.level_passes _ hx
  | adReward usr crashed event =>
    subst event
    refine h.kept (fun a ha => ?_) (ne_levelError crashed)
    rw [usr, Usr.attr_increaseCoin]
    rcases ha with rfl | rfl <;> exact if_neg (by decide)
  | freeTip usr _ _ _ event _ _ crashed =>
    subst event
    refine h.kept (fun a ha => ?_) (ne_levelError crashed)
    rw [usr, Usr.attr_deductFreeTipsOpportunity]
    rcases ha with rfl | rfl <;> exact if_neg (by decide)
  | paidTip _ _ _ event _ _ usr crashed =>
    subst event
    refine h.kept (fun a ha => ?_) (ne_levelError crashed)
    rw [usr, Usr.attr_deductCoin]
    rcases ha with rfl | rfl <;> exact if_neg (by decide)
  | paid text inc u reward hit =>
    rw [hit]
    exact h.paid reward

/-! ## Whole runs -/

/-- What a step adds to the stored coins, as an `Int`. -/
def coinGain (x : Machine.Taken Quiz Event) : Int := wrap (x.after.usr.getCoinCount - x.before.usr.getCoinCount)

/-- The steps that hit the right option. -/
def rightSteps (steps : List (Machine.Taken Quiz Event)) : List (Machine.Taken Quiz Event) :=
  steps.filter (fun x => x.before.hits x.event)

/-- The coins that `n` right answers bring. -/
def coinsAfter (n : Nat) : Int := 5 * min n 50 + 10 * (n - 50 : Nat)

theorem rightSteps_snoc (past : List (Machine.Taken Quiz Event)) :
    rightSteps (past ++ [⟨s, e, t⟩]) = if s.hits e then rightSteps past ++ [⟨s, e, t⟩] else rightSteps past := by
  unfold rightSteps
  rw [List.filter_append]
  cases h : s.hits e <;> simp [h]

/-- **A right answer adds to the stored coins what its level gives.** -/
theorem coinGain_of_hits {n : Nat} (h : Progress n s) (hhit : s.hits e = true) (hs : step lib s e = some t) :
    coinGain ⟨s, e, t⟩ = if n < 50 then 5 else 10 := by
  obtain ⟨new, -, hbook⟩ := booking_of_step hs
  obtain ⟨text, inc, rfl⟩ := hbook.paid_iff.1.1 hhit
  cases hbook with
  | paid _ _ u reward =>
    have hcoin : t.usr.getCoinCount = u.getCoinCount := reward.attr .usrCoinCount (by decide) (by decide)
    rw [coinGain, hcoin, reward.coin, wrap, wrap, Int.bmod_sub_bmod, reward.inc_eq, increase_after h.level]
    split
    · rw [show s.usr.getCoinCount + 5 - s.usr.getCoinCount = 5 by omega]
      rfl
    · rw [show s.usr.getCoinCount + 10 - s.usr.getCoinCount = 10 by omega]
      rfl

/-- Progress and coins by the right answers of the past. -/
structure Earned (past : List (Machine.Taken Quiz Event)) (s : Quiz) : Prop where
  progress : Progress (rightSteps past).length s
  coins    : ((rightSteps past).map coinGain).sum = coinsAfter (rightSteps past).length

theorem earned_step (past : List (Machine.Taken Quiz Event)) (s : Quiz) (e : Event) (t : Quiz) (h : Earned past s)
    (hs : step lib s e = some t) : Earned (past ++ [⟨s, e, t⟩]) t := by
  have hstep := progress_step h.progress hs
  cases hhit : s.hits e with
  | false =>
    rw [hhit] at hstep
    have hsame := rightSteps_snoc (s := s) (e := e) (t := t) past
    rw [hhit] at hsame
    exact ⟨by rw [hsame]; exact hstep, by rw [hsame]; exact h.coins⟩
  | true =>
    rw [hhit] at hstep
    have hmore := rightSteps_snoc (s := s) (e := e) (t := t) past
    rw [hhit] at hmore
    have hlength : (rightSteps (past ++ [⟨s, e, t⟩])).length = (rightSteps past).length + 1 := by
      rw [hmore]
      exact List.length_append
    refine ⟨by rw [hlength]; exact hstep, ?_⟩
    rw [hlength, hmore, if_pos rfl, List.map_append, List.sum_append, h.coins, List.map_singleton, List.sum_singleton,
      coinGain_of_hits h.progress hhit hs, coinsAfter, coinsAfter]
    split <;> omega

/-- **Progress is a function of the right answers alone.**  After every run from a fresh store in which the right option
was hit `n` times: level and experience are those of `n`, the coins that these answers added to the stored balance are those
of `n`, and no level has ever been refused. -/
theorem progress_by_right_answers (lib : Library) (es : List Event) (t : Quiz)
    (hrun : Machine.run (step lib) (start Prefs.empty) es = some t) (n : Nat)
    (hn : (rightSteps (Machine.trail (step lib) (start Prefs.empty) es)).length = n) :
    t.usr.getLevel = levelAfter n ∧ t.usr.getLevelExp = expAfter n ∧
      ((rightSteps (Machine.trail (step lib) (start Prefs.empty) es)).map coinGain).sum =
        5 * min n 50 + 10 * (n - 50 : Nat) ∧
      t.crashed ≠ some levelError ∧
      (1 ≤ t.usr.getLevel ∧ t.usr.getLevel ≤ 10) ∧ (0 ≤ t.usr.getLevelExp ∧ t.usr.getLevelExp ≤ 49) := by
  have hstart : Earned [] (start Prefs.empty) := by
    refine ⟨⟨?_, ?_, ?_⟩, rfl⟩ <;> decide +kernel
  obtain ⟨hprogress, hcoins⟩ := Machine.run_of_trail earned_step es [] _ hstart hrun
  rw [List.nil_append, hn] at hprogress hcoins
  refine ⟨hprogress.level, hprogress.exp, hcoins, hprogress.crashed, ?_, ?_⟩
  · rw [hprogress.level]
    exact levelAfter_range n
  · rw [hprogress.exp]
    exact expAfter_range n

/-- A file that asks one riddle eleven times. -/
def elevenTimes : Library where
  level1To5  := List.replicate 11 ⟨"What has keys?".toList, [⟨"A piano".toList, true⟩, ⟨"A fish".toList, false⟩], []⟩
  level6To10 := []

/-- A wrong answer, an ad's reward, and ten right answers. -/
def tenRight : List Event :=
  [.draw 0 (List.range 11 ++ (List.replicate 11 [0, 1]).flatten), .loaded 0, .onOption 1, .openCoinDialog,
    .watchRewardAd true, .adReward, .rewardAdCompleted] ++ (List.replicate 10 [.onNextQuestion false, .onOption 0]).flatten

/-- Ten answers make a level; of the ninety coins stored they brought fifty. -/
theorem progress_by_right_answers_ten :
    ∃ t, Machine.run (step elevenTimes) (start Prefs.empty) tenRight = some t ∧
      (rightSteps (Machine.trail (step elevenTimes) (start Prefs.empty) tenRight)).length = 10 ∧
      t.usr.getCoinCount = 90 ∧ t.usr.getLevel = levelAfter 10 ∧ t.usr.getLevelExp = expAfter 10 ∧
      ((rightSteps (Machine.trail (step elevenTimes) (start Prefs.empty) tenRight)).map coinGain).sum = 50 := by
  have hrun : ∃ t, Machine.run (step elevenTimes) (start Prefs.empty) tenRight = some t ∧
      (t.usr.getCoinCount == 90) = true := by
    rw [← Option.any_eq_true]
    decide +kernel
  obtain ⟨t, ht, hcoins⟩ := hrun
  have hten : (rightSteps (Machine.trail (step elevenTimes) (start Prefs.empty) tenRight)).length = 10 := by
    decide +kernel
  obtain ⟨hlevel, hexp, hgain, -⟩ := progress_by_right_answers elevenTimes tenRight t ht 10 hten
  exact ⟨t, ht, hten, beq_iff_eq.1 hcoins, hlevel, hexp, hgain⟩

end Quiz
end Riddles
