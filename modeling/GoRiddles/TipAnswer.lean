import GoRiddles.Quiz
import GoRiddles.QuizBoard
/-!
# TipAnswer — the answer that is told and the answer that is paid for

Two places look for the answer among a riddle's options.  `ViewTipsData` takes the first option that is marked, the scan
of `changeQuestion` keeps the last one.  The dialog tells what the screen pays for exactly when the two have one text.
-/
namespace Riddles

/-- The options marked as answers, in the order on the screen. -/
def MQuestion.answers (q : MQuestion) : List MOption := q.options.filter (fun o => o.isAnswer)

/-- **The scan's answer is the last of the options marked.** -/
theorem answerFrom_eq_some : ∀ {k j : Nat} {os : List MOption}, answerFrom k os = some j →
    ∃ o, k ≤ j ∧ os[j - k]? = some o ∧ (os.filter (fun o => o.isAnswer)).getLast? = some o
  | _, _, [], h => by cases h
  | k, j, o :: os, h => by
    rw [answerFrom] at h
    cases hrest : answerFrom (k + 1) os with
    | some i =>
      rw [hrest, Option.some_or] at h
      cases h
      obtain ⟨last, hle, hget, hlast⟩ := answerFrom_eq_some hrest
      refine ⟨last, by omega, ?_, ?_⟩
      · have hj : j - k = j - (k + 1) + 1 := by omega
        rw [hj]
        exact hget
      · rw [List.filter_cons]
        split
        · rw [List.getLast?_cons, hlast]
          rfl
        · exact hlast
    | none =>
      have hnil := (answerFrom_eq_none (k + 1) os).1 hrest
      rw [hrest, Option.none_or] at h
      split at h
      · rename_i ho
        cases h
        refine ⟨o, Nat.le_refl _, by simp, ?_⟩
        rw [List.filter_cons_of_pos ho, hnil]
        rfl
      · cases h

theorem MQuestion.answer?_eq_some {q : MQuestion} {k : Nat} (h : q.answer? = some k) :
    ∃ o, q.options[k]? = some o ∧ q.answers.getLast? = some o := by
  obtain ⟨o, -, hget, hlast⟩ := answerFrom_eq_some h
  exact ⟨o, hget, hlast⟩

/-- **The dialog tells the first answer.** -/
theorem mAnswer_init {u : Usr} {q : MQuestion} {o : MOption} (h : q.answers.head? = some o) :
    ∃ t, ViewTipsData.init u q = .ok t ∧ t.mAnswer = o.text := by
  unfold MQuestion.answers at h
  rw [List.head?_filter] at h
  unfold ViewTipsData.init
  rw [h]
  exact ⟨_, rfl, rfl⟩

namespace Quiz

theorem log_reward (s : Quiz) : s.reward.log = s.credited.log := by
  unfold reward
  split <;> rfl

/-- **A choice is paid for exactly when it is `rightOptionIndex`.** -/
theorem log_onOption (s : Quiz) (index : Int) : (s.onOption index).log ≠ s.log ↔ s.data.rightOptionIndex = index := by
  unfold onOption
  simp only
  have hright : (s.data.choose index).rightOptionIndex = s.data.rightOptionIndex := rfl
  rw [hright]
  by_cases h : s.data.rightOptionIndex = index
  · rw [if_pos h, log_reward]
    simp [credited, h]
  · rw [if_neg h]
    simp [h]

/-- **The tip agrees with the grader** at position `i`: the dialog of its riddle opens and tells the text of the option
that is paid for there. -/
def TipAgrees (s : Quiz) (i : Nat) (q : MQuestion) : Prop :=
  ∃ t k o, ViewTipsData.init s.usr q = .ok t ∧ (s.data.changeQuestion i).rightOptionIndex = (k : Nat) ∧
    q.options[k]? = some o ∧ t.mAnswer = o.text ∧
    ∀ index, ({ s with data := s.data.changeQuestion i }.onOption index).log ≠ s.log ↔ index = (k : Int)

/-- **When the tip agrees.**  For every riddle of the batch that has an answer, the dialog tells the text that the screen
pays for exactly when the first and the last of its options marked as answers have one text. -/
theorem tip_agrees_iff (s : Quiz) (i : Nat) (q : MQuestion) (hq : s.data.mQuestions[i]? = some q)
    (hans : ∃ o ∈ q.options, o.isAnswer = true) :
    s.TipAgrees i q ↔ q.answers.head?.map MOption.text = q.answers.getLast?.map MOption.text := by
  obtain ⟨k, hk⟩ : ∃ k, q.answer? = some k := Option.isSome_iff_exists.1 (answerFrom_isSome 0 hans)
  obtain ⟨last, hget, hlast⟩ := MQuestion.answer?_eq_some hk
  have hright : (s.data.changeQuestion i).rightOptionIndex = (k : Int) := by
    rw [QuestionData.rightOptionIndex_changeQuestion hq, hk]
    rfl
  obtain ⟨first, hfirst⟩ : ∃ first, q.answers.head? = some first := by
    cases hh : q.answers.head? with
    | some first => exact ⟨first, rfl⟩
    | none =>
      rw [List.head?_eq_none_iff.1 hh] at hlast
      cases hlast
  obtain ⟨t, ht, htext⟩ := mAnswer_init (u := s.usr) hfirst
  rw [hfirst, hlast, Option.map_some, Option.map_some, Option.some_inj]
  constructor
  · rintro ⟨t', k', o, ht', hright', hget', htext', -⟩
    rw [ht] at ht'
    cases ht'
    rw [hright] at hright'
    rw [← Int.ofNat_inj.1 hright', hget] at hget'
    cases hget'
    rw [← htext, htext']
  · intro heq
    refine ⟨t, k, last, ht, hright, hget, by rw [htext, heq], fun index => ?_⟩
    have hlog := log_onOption { s with data := s.data.changeQuestion i } index
    rw [hright] at hlog
    exact hlog.trans eq_comm

def showing (q : MQuestion) : Quiz := { start Prefs.empty with data := QuestionData.fresh.questionsLoaded [q] }

theorem tip_agrees_iff_piano :
    (showing ⟨"What has keys?".toList, [⟨"A map".toList, false⟩, ⟨"A piano".toList, true⟩], []⟩).TipAgrees 0
      ⟨"What has keys?".toList, [⟨"A map".toList, false⟩, ⟨"A piano".toList, true⟩], []⟩ :=
  (tip_agrees_iff _ _ _ rfl ⟨⟨"A piano".toList, true⟩, by decide, rfl⟩).2 rfl

/-- **Two answers**: the dialog tells the first one and the screen pays for the second. -/
theorem tip_of_other_answer :
    ¬ (showing ⟨"What has keys?".toList, [⟨"A piano".toList, true⟩, ⟨"A map".toList, true⟩], []⟩).TipAgrees 0
      ⟨"What has keys?".toList, [⟨"A piano".toList, true⟩, ⟨"A map".toList, true⟩], []⟩ := by
  rintro ⟨t, k, o, ht, hright, hget, htext, -⟩
  cases ht
  have hk : k = 1 := by
    have h1 : ((1 : Nat) : Int) = k := hright
    exact (Int.ofNat_inj.1 h1).symm
  subst hk
  cases hget
  exact absurd htext (by decide)

end Quiz
end Riddles
