import GoRiddles.QuizBoard
import GoRiddles.Quiz
/-!
# QuizMoves — what a step of the quiz can do

`Turn` lists what a step can do to the board, the loads in flight, the store, the log and the tips dialogs, and
`turn_of_step` says that there is nothing else.  Every result about the quiz is read off a turn.
-/
namespace Riddles

namespace QuestionData

variable {d : QuestionData} {b : Board}

@[simp] theorem loads_changeQuestion (d : QuestionData) (i : Nat) : (d.changeQuestion i).loads = d.loads := by
  unfold changeQuestion
  split
  · rfl
  · simp only
    split <;> rfl

@[simp] theorem loads_questionsLoaded (d : QuestionData) (qs : List MQuestion) :
    (d.questionsLoaded qs).loads = d.loads := by
  unfold questionsLoaded
  simp only
  split
  · rfl
  · exact loads_changeQuestion _ _

/-- Next, pressed now, launches a load: no ad is shown, the position is the last and every riddle is counted right. -/
def nextLaunches (d : QuestionData) (cached : Bool) : Bool :=
  !(d.mCanShowNextAd && cached) && decide ((d.mQuestions.length : Int) - 1 < d.mQuestionIndex + 1) &&
    decide ((d.mQuestions.length : Int) ≤ d.mUsrRightedCount)

theorem onNextQuestion_cases (d : QuestionData) (cached : Bool) :
    ((∀ b, d.Shows b → (d.onNextQuestion cached).Shows b) ∧ (d.onNextQuestion cached).loads = d.loads) ∨
    ((∀ b, d.Shows b → (d.onNextQuestion cached).Shows b) ∧
      (d.onNextQuestion cached).loads = d.loads ++ [.launched] ∧ d.nextLaunches cached = true) ∨
    (∃ i, (∀ b, d.Shows b → (d.onNextQuestion cached).Shows (b.go i)) ∧ (d.onNextQuestion cached).loads = d.loads) := by
  unfold onNextQuestion nextLaunches
  split
  · exact .inl ⟨fun b hb => hb.congr rfl, rfl⟩
  · rename_i hads
    split
    · rename_i hend
      split
      · exact .inl ⟨fun b hb => hb.congr rfl, rfl⟩
      · rename_i hcount
        refine .inr (.inl ⟨fun b hb => hb.congr rfl, rfl, ?_⟩)
        rw [Bool.and_eq_true, Bool.and_eq_true, decide_eq_true_iff, decide_eq_true_iff]
        exact ⟨⟨Bool.not_eq_true' _ ▸ Bool.eq_false_iff.2 hads, hend⟩, Int.not_lt.1 hcount⟩
    · exact .inr (.inr ⟨_, fun b hb => hb.changeQuestion _, loads_changeQuestion _ _⟩)

theorem view_timeSceneAdCompleted (d : QuestionData) (cached : Bool) :
    (d.timeSceneAdCompleted cached).view = (d.onNextQuestion cached).view := by
  unfold timeSceneAdCompleted
  rfl

theorem loads_timeSceneAdCompleted (d : QuestionData) (cached : Bool) :
    (d.timeSceneAdCompleted cached).loads = (d.onNextQuestion cached).loads := by
  unfold timeSceneAdCompleted
  rfl

theorem shows_generateNewQuestions (d : QuestionData) : d.generateNewQuestions.Shows Board.empty :=
  (shows_resetUi d).congr rfl

theorem loads_generateNewQuestions (d : QuestionData) : d.generateNewQuestions.loads = d.loads ++ [.launched] := rfl

end QuestionData

namespace Quiz

/-- The text of `deductCoin`'s complaint. -/
def tipsIndexError : Thrown := .illegalArgument "tipsOptionedIndex must be 0 or 1".toList

/-- The event launches a load in this state; a restart, which cancels the others, is not counted. -/
def launches (s : Quiz) : Event → Bool
  | .onNextQuestion cached | .timeAdCompleted cached => s.data.nextLaunches cached
  | .generateNewQuestions => true
  | _ => false

/-- The event neither chooses, nor pays a reward ad, nor clears the board. -/
def Event.isPlain : Event → Bool
  | .onOption _ | .adReward | .generateNewQuestions | .restart => false
  | _ => true

/-- From `s` to `t` the board on show moves by `f`. -/
def Plays (s t : Quiz) (f : Board → Board) : Prop := ∀ b, s.data.Shows b → t.data.Shows (f b)

/-- The store, the log and the dialogs stay. -/
structure Kept (s t : Quiz) : Prop where
  usr  : t.usr = s.usr
  log  : t.log = s.log
  tips : t.tips = s.tips

/-- The reward of the choice that takes `s` to `s'` on the board, and what it leaves of the store. -/
structure Rewarded (s t : Quiz) (u : Usr) : Prop where
  log  : t.log = s.log ++ [.paid (s.data.question?.map MQuestion.text) (increase s.flagged)]
  tips : t.tips = s.tips
  coin : u = s.flagged.increaseCoin (increase s.flagged)
  exp  : (u.increaseExperience (increase s.flagged) = .ok t.usr ∧ t.crashed = none) ∨
    ∃ x, u.increaseExperience (increase s.flagged) = .error x ∧ t.usr = u ∧ t.crashed = some x

/-- **What a step can do.** -/
inductive Turn (lib : Library) (s : Quiz) (e : Event) (t : Quiz) : Prop
  | idle (plays : Plays s t id) (loads : t.data.loads = s.data.loads) (kept : Kept s t)
      (crashed : ∀ x, t.crashed = some x → x = .noSuchElement ∨ x = tipsIndexError ∨
        checkLevelValue s.usr.getLevel = .error x) (plain : e.isPlain = true)
  | draw (k : Nat) (draws : List Nat) (qs : List MQuestion) (event : e = .draw k draws)
      (launched : s.data.loads[k]? = some .launched)
      (drawn : listQuestionsByUsrLevel lib s.usr.sp s.usr.getLevel draws = .ok (some qs))
      (plays : Plays s t id) (loads : t.data.loads = s.data.loads.set k (.drawn qs)) (kept : Kept s t)
      (crashed : t.crashed = none)
  | loaded (k : Nat) (qs : List MQuestion) (drawn : s.data.loads[k]? = some (.drawn qs))
      (plays : Plays s t (·.load qs)) (loads : t.data.loads = s.data.loads.eraseIdx k) (kept : Kept s t)
      (crashed : t.crashed = none) (plain : e.isPlain = true)
  | wrong (c : Nat) (free : s.data.usrOptionIndex = -1) (miss : s.data.rightOptionIndex ≠ c)
      (plays : Plays s t (·.choose c)) (loads : t.data.loads = s.data.loads) (kept : Kept s t) (crashed : t.crashed = none)
      (event : e = .onOption c)
  | right (c : Nat) (u : Usr) (free : s.data.usrOptionIndex = -1) (hit : s.data.rightOptionIndex = c)
      (plays : Plays s t (·.choose c)) (loads : t.data.loads = s.data.loads) (rewarded : Rewarded s t u)
      (event : e = .onOption c)
  | go (i : Nat) (plays : Plays s t (·.go i)) (loads : t.data.loads = s.data.loads) (kept : Kept s t)
      (crashed : t.crashed = none) (plain : e.isPlain = true)
  | launch (launches : s.launches e = true) (full : (s.data.mQuestions.length : Int) ≤ s.data.mUsrRightedCount)
      (plays : Plays s t id) (loads : t.data.loads = s.data.loads ++ [.launched]) (kept : Kept s t)
      (crashed : t.crashed = none) (plain : e.isPlain = true)
  | reset (launches : s.launches e = true) (shows : t.data.Shows Board.empty)
      (loads : t.data.loads = s.data.loads ++ [.launched]) (kept : Kept s t) (crashed : t.crashed = none)
      (event : e = .generateNewQuestions)
  | adReward (plays : Plays s t id) (loads : t.data.loads = s.data.loads) (usr : t.usr = s.usr.increaseCoin 40)
      (log : t.log = s.log ++ [.adReward]) (tips : t.tips = s.tips) (crashed : t.crashed = none) (event : e = .adReward)
  | openTips (q : MQuestion) (tip : ViewTipsData) (event : e = .openTips) (init : ViewTipsData.init s.usr q = .ok tip)
      (plays : Plays s t id) (loads : t.data.loads = s.data.loads) (usr : t.usr = s.usr) (log : t.log = s.log)
      (tips : t.tips = s.tips ++ [tip]) (crashed : t.crashed = none)
  | freeTip (k : Nat) (tip : ViewTipsData) (i : Int) (event : e = .viewTips k i) (dialog : s.tips[k]? = some tip)
      (offered : 0 < tip.mFreeTipsOpportunity) (data : t.data = s.data)
      (usr : t.usr = s.usr.deductFreeTipsOpportunity) (log : t.log = s.log ++ [.freeTip]) (crashed : t.crashed = none)
  | paidTip (k : Nat) (i price : Int) (event : e = .viewTips k i) (priced : ViewTipsData.deductCoin i = .ok price)
      (enough : price ≤ s.usr.getCoinCount) (data : t.data = s.data) (usr : t.usr = s.usr.deductCoin price)
      (log : t.log = s.log ++ [.paidTip price]) (crashed : t.crashed = none)
  | restart (event : e = .restart) (restarted : t = opened s.usr s.log)

variable {lib : Library} {s t : Quiz} {e : Event}

theorem Kept.rfl : Kept s s := ⟨.refl _, .refl _, .refl _⟩

theorem turn_quiet (hplain : e.isPlain = true) (hc : t.crashed = none) (hplays : Plays s t id)
    (hloads : t.data.loads = s.data.loads) (hkept : Kept s t) : Turn lib s e t := by
  refine .idle hplays hloads hkept (fun x hx => ?_) hplain
  rw [hc] at hx
  cases hx

theorem plays_of_view (h : t.data.view = s.data.view) : Plays s t id := fun _ hb => hb.congr h

theorem turn_draw {k : Nat} {draws : List Nat} (hc : s.crashed = none) (h : s.act lib (.draw k draws) = some t) :
    Turn lib s (.draw k draws) t := by
  simp only [act] at h
  split at h
  · rename_i hk
    split at h
    · rename_i x hx
      cases h
      refine .idle (plays_of_view rfl) rfl ⟨rfl, rfl, rfl⟩ (fun y hy => .inr (.inr ?_)) rfl
      cases hy
      unfold listQuestionsByUsrLevel at hx
      split at hx
      · rename_i hcheck
        cases hx
        exact hcheck
      · split at hx <;> cases hx
    · cases h
    · rename_i qs hqs
      cases h
      exact .draw k draws qs rfl hk hqs (plays_of_view rfl) rfl ⟨rfl, rfl, rfl⟩ hc
  · cases h

theorem turn_loaded {k : Nat} (hc : s.crashed = none) (h : s.act lib (.loaded k) = some t) :
    Turn lib s (.loaded k) t := by
  simp only [act] at h
  split at h
  · rename_i qs hk
    cases h
    refine .loaded k qs hk (fun b hb => ?_) (QuestionData.loads_questionsLoaded _ _) ⟨rfl, rfl, rfl⟩ hc rfl
    have hb' : ({ s.data with loads := s.data.loads.eraseIdx k } : QuestionData).Shows b := hb.congr rfl
    exact hb'.questionsLoaded qs
  · cases h

theorem flagged_choose (s : Quiz) (c : Int) : ({ s with data := s.data.choose c } : Quiz).flagged = s.flagged := by
  unfold flagged
  rfl

/-- The reward branch, on a screen that has not crashed. -/
theorem rewarded_reward (hc : s.crashed = none) : Rewarded s s.reward (s.flagged.increaseCoin (increase s.flagged)) := by
  unfold reward
  split
  · rename_i x hx
    exact ⟨rfl, rfl, rfl, .inr ⟨x, hx, rfl, rfl⟩⟩
  · rename_i usr hx
    exact ⟨rfl, rfl, rfl, .inl ⟨hx, hc⟩⟩

/-- A choice is paid as the question on show is. -/
theorem Rewarded.of_choose {c : Int} {u : Usr} (h : Rewarded { s with data := s.data.choose c } t u) : Rewarded s t u where
  log  := by
    rw [h.log, flagged_choose]
    rfl
  tips := h.tips
  coin := by rw [h.coin, flagged_choose]
  exp  := by
    rw [← flagged_choose s c]
    exact h.exp

theorem data_reward (s : Quiz) :
    s.reward.data = { s.data with mUsrRightedCount := s.data.mUsrRightedCount + 1 } := by
  unfold reward
  split <;> rfl

theorem turn_onOption {c : Nat} (hc : s.crashed = none) (hen : s.data.optionEnabled = true) :
    Turn lib s (.onOption c) (s.onOption c) := by
  have hfree : s.data.usrOptionIndex = -1 := by
    unfold QuestionData.optionEnabled at hen
    exact beq_iff_eq.1 (Bool.and_eq_true_iff.1 hen).1
  have hplays : ∀ n : Int, n = s.data.mUsrRightedCount + (if s.data.rightOptionIndex = c then 1 else 0) →
      ∀ b, s.data.Shows b → ({ s.data.choose c with mUsrRightedCount := n } : QuestionData).Shows (b.choose c) := by
    intro n hn b hb
    obtain ⟨i, q, j, hpos, hq, hj, hnone, hright⟩ := hb.of_unanswered hfree
    have hans : b.answerAt i = some j := by
      rw [Board.answerAt, hq]
      exact hj
    refine hb.choose hpos hans hnone c ?_
    rw [hn, hright]
    simp only [Int.ofNat_inj]
  unfold onOption
  simp only
  split
  · rename_i hhit
    have hhit' : s.data.rightOptionIndex = c := hhit
    have hrewarded := rewarded_reward (s := { s with data := s.data.choose c }) hc
    have hdata := data_reward { s with data := s.data.choose c }
    have hcount : s.data.mUsrRightedCount + 1 = s.data.mUsrRightedCount + (if s.data.rightOptionIndex = c then 1 else 0) := by
      rw [if_pos hhit']
    refine .right c _ hfree hhit' (fun b hb => ?_) ?_ hrewarded.of_choose rfl
    · rw [hdata]
      exact hplays _ hcount b hb
    · rw [hdata]
      rfl
  · rename_i hmiss
    have hmiss' : s.data.rightOptionIndex ≠ c := hmiss
    exact .wrong c hfree hmiss (hplays _ (by rw [if_neg hmiss']; exact (Int.add_zero _).symm)) rfl ⟨rfl, rfl, rfl⟩ hc rfl

/-- Next, and the end of a time-scene ad, which presses it again. -/
theorem turn_next {d : QuestionData} {cached : Bool} (hplain : e.isPlain = true) (hd : d.view = s.data.view)
    (hloads : d.loads = s.data.loads) (hlaunch : d.nextLaunches cached = true → s.launches e = true)
    (ht : t.data.view = (d.onNextQuestion cached).view) (hl : t.data.loads = (d.onNextQuestion cached).loads)
    (hkept : Kept s t) (hc' : t.crashed = none) : Turn lib s e t := by
  rcases d.onNextQuestion_cases cached with ⟨hb, hld⟩ | ⟨hb, hld, hn⟩ | ⟨i, hb, hld⟩
  · exact turn_quiet hplain hc' (fun b h => (hb b (h.congr hd)).congr ht) (hl.trans (hld.trans hloads)) hkept
  · refine .launch (hlaunch hn) ?_ (fun b h => (hb b (h.congr hd)).congr ht) ?_ hkept hc' hplain
    · unfold QuestionData.nextLaunches at hn
      have hcount := decide_eq_true_iff.1 (Bool.and_eq_true_iff.1 hn).2
      simp only [QuestionData.view, Prod.mk.injEq] at hd
      rw [← hd.1, ← hd.2.2.2.2.2.2]
      exact hcount
    · rw [hl, hld, hloads]
  · exact .go i (fun b h => (hb b (h.congr hd)).congr ht) (hl.trans (hld.trans hloads)) hkept hc' hplain

theorem turn_openTips (hc : s.crashed = none) : Turn lib s .openTips s.onViewTips := by
  unfold onViewTips
  simp only
  split
  · exact turn_quiet rfl hc (plays_of_view rfl) rfl ⟨rfl, rfl, rfl⟩
  · rename_i q _
    split
    · rename_i x hx
      refine .idle (plays_of_view rfl) rfl ⟨rfl, rfl, rfl⟩ (fun y hy => .inl ?_) rfl
      cases hy
      unfold ViewTipsData.init at hx
      split at hx
      · cases hx
        rfl
      · cases hx
    · rename_i tip hx
      exact .openTips q tip rfl hx (plays_of_view rfl) rfl rfl rfl rfl hc

theorem turn_viewTips {k : Nat} {tip : ViewTipsData} {i : Int} (hc : s.crashed = none) (hk : s.tips[k]? = some tip) :
    Turn lib s (.viewTips k i) (s.viewTips k tip i) := by
  unfold viewTips ViewTipsData.onViewTips
  by_cases hfree : tip.mFreeTipsOpportunity > 0
  · simp only [if_pos hfree]
    exact .freeTip k tip i rfl hk hfree rfl rfl rfl hc
  · simp only [if_neg hfree]
    cases hp : ViewTipsData.deductCoin i with
    | error x =>
      refine .idle (plays_of_view rfl) rfl ⟨rfl, rfl, rfl⟩ (fun y hy => .inr (.inl ?_)) rfl
      cases hy
      unfold ViewTipsData.deductCoin at hp
      split at hp
      · cases hp
      · split at hp
        · cases hp
        · cases hp
          rfl
    | ok price =>
      by_cases hcoin : s.usr.getCoinCount < price
      · simp only [if_pos hcoin]
        refine turn_quiet rfl hc (plays_of_view rfl) rfl ⟨rfl, rfl, ?_⟩
        obtain ⟨hlt, hget⟩ := List.getElem?_eq_some_iff.1 hk
        show s.tips.set k tip = s.tips
        rw [← hget, List.set_getElem_self]
      · simp only [if_neg hcoin]
        exact .paidTip k i price rfl hp (Int.not_lt.1 hcoin) rfl rfl rfl hc

theorem turn_of_act (hc : s.crashed = none) (h : s.act lib e = some t) : Turn lib s e t := by
  cases e with
  | draw k draws => exact turn_draw hc h
  | loaded k => exact turn_loaded hc h
  | onOption c =>
    obtain ⟨hen, rfl⟩ : s.data.optionEnabled = true ∧ s.onOption c = t := by simpa [act] using h
    exact turn_onOption hc hen
  | onNextQuestion cached =>
    obtain ⟨-, rfl⟩ : s.data.nextEnabled = true ∧ { s with data := s.data.onNextQuestion cached } = t := by
      simpa [act] using h
    exact turn_next (d := s.data) rfl rfl rfl id rfl rfl ⟨rfl, rfl, rfl⟩ hc
  | onPreQuestion =>
    obtain ⟨-, rfl⟩ : s.data.preEnabled = true ∧ { s with data := s.data.onPreQuestion } = t := by simpa [act] using h
    unfold QuestionData.onPreQuestion
    split
    · exact turn_quiet rfl hc (plays_of_view rfl) rfl .rfl
    · exact .go _ (fun b hb => hb.changeQuestion _) (QuestionData.loads_changeQuestion _ _) ⟨rfl, rfl, rfl⟩ hc rfl
  | generateNewQuestions =>
    simp only [act] at h
    split at h
    · cases h
      exact .reset rfl (QuestionData.shows_generateNewQuestions _) (QuestionData.loads_generateNewQuestions _)
        ⟨rfl, rfl, rfl⟩ hc rfl
    · cases h
  | timeAdCompleted cached =>
    simp only [act] at h
    split at h
    · cases h
      exact turn_next (d := { s.data with timeSceneAds := s.data.timeSceneAds - 1 }) rfl rfl rfl id
        (QuestionData.view_timeSceneAdCompleted _ cached) (QuestionData.loads_timeSceneAdCompleted _ cached)
        ⟨rfl, rfl, rfl⟩ hc
    · cases h
  | adReward =>
    simp only [act] at h
    split at h
    · cases h
      exact .adReward (plays_of_view rfl) rfl rfl rfl rfl hc rfl
    · cases h
  | openTips =>
    obtain ⟨-, rfl⟩ : s.data.enableViews = true ∧ s.onViewTips = t := by simpa [act] using h
    exact turn_openTips hc
  | viewTips k i =>
    simp only [act] at h
    split at h
    · cases h
    · rename_i tip hk
      split at h
      · cases h
        exact turn_viewTips hc hk
      · cases h
  | watchRewardAd cached =>
    simp only [act, showRewardAd] at h
    split at h
    · cases h
      cases cached <;> exact turn_quiet rfl hc (plays_of_view rfl) rfl ⟨rfl, rfl, rfl⟩
    · cases h
  | restart =>
    cases h
    exact .restart rfl rfl
  | closeEndDialog | stayElapsed | guideElapsed | dismissGuide | openCoinDialog | closeCoinDialog | rewardAdCompleted =>
    simp only [act] at h
    split at h
    · cases h
      exact turn_quiet rfl hc (plays_of_view rfl) rfl ⟨rfl, rfl, rfl⟩
    · cases h

/-- **There is nothing else a step can do.** -/
theorem turn_of_step (h : step lib s e = some t) : Turn lib s e t := by
  unfold step at h
  split at h
  · exact turn_of_act (by assumption) h
  · split at h
    · rename_i hrestart
      cases h
      exact .restart hrestart rfl
    · cases h

end Quiz
end Riddles
