import Mathlib.Data.Finset.Card
import Mathlib.Data.Finset.Range
import GoRiddles.QuestionData
/-!
# QuizBoard — what the view model's fields stand for

A `Board` is the quiz without its bookkeeping: the riddles laid out so far, the option chosen at each position, and the
position on show.  One position has at most one choice, and only positions on the board have one, because that is what a
board is.  `Shows d b` says that the fields of a `QuestionData` are those of a board, and each method is shown to do to
the board what its name says.
-/
namespace Riddles

/-- The position of the answer among `options`, the last one if there are several. -/
def answerFrom : Nat → List MOption → Option Nat
  | _, [] => none
  | k, o :: os => (answerFrom (k + 1) os).or (if o.isAnswer then some k else none)

def MQuestion.answer? (q : MQuestion) : Option Nat := answerFrom 0 q.options

theorem answerFrom_eq_none : ∀ (k : Nat) (os : List MOption),
    answerFrom k os = none ↔ os.filter (fun o => o.isAnswer) = []
  | _, [] => by simp [answerFrom]
  | k, o :: os => by
    rw [answerFrom, Option.or_eq_none_iff, answerFrom_eq_none (k + 1) os]
    cases ho : o.isAnswer <;> simp [ho]

theorem answerFrom_isSome {os : List MOption} (k : Nat) (h : ∃ o ∈ os, o.isAnswer = true) : (answerFrom k os).isSome := by
  obtain ⟨o, ho, hans⟩ := h
  rw [Option.isSome_iff_ne_none, Ne, answerFrom_eq_none, List.filter_eq_nil_iff]
  exact fun hnone => hnone o ho hans

/-- The riddles laid out, the choices made, and the position on show. -/
structure Board where
  questions : List MQuestion
  choice    : Nat → Option Nat
  pos       : Option Nat
  choice_lt : ∀ i c, choice i = some c → i < questions.length
  pos_lt    : ∀ i, pos = some i → i < questions.length

namespace Board

def empty : Board where
  questions := []
  choice _  := none
  pos       := none
  choice_lt _ _ h := by cases h
  pos_lt _ h := by cases h

/-- The position after the one on show. -/
def next (b : Board) : Nat := (b.pos.map (· + 1)).getD 0

def append (b : Board) (qs : List MQuestion) : Board where
  questions := b.questions ++ qs
  choice    := b.choice
  pos       := b.pos
  choice_lt i c h := by
    have := b.choice_lt i c h
    rw [List.length_append]
    omega
  pos_lt i h := by
    have := b.pos_lt i h
    rw [List.length_append]
    omega

/-- Show position `i`, if there is one. -/
def go (b : Board) (i : Nat) : Board where
  questions := b.questions
  choice    := b.choice
  pos       := if i < b.questions.length then some i else b.pos
  choice_lt := b.choice_lt
  pos_lt j h := by
    split at h
    · cases h
      assumption
    · exact b.pos_lt j h

/-- A batch arrives: it goes to the end, and the next position is shown. -/
def load (b : Board) (qs : List MQuestion) : Board := (b.append qs).go b.next

/-- Choose option `c` at the position on show. -/
def choose (b : Board) (c : Nat) : Board where
  questions := b.questions
  choice i  := if b.pos = some i then some c else b.choice i
  pos       := b.pos
  choice_lt i c' h := by
    split at h
    · exact b.pos_lt i (by assumption)
    · exact b.choice_lt i c' h
  pos_lt    := b.pos_lt

def current (b : Board) : Option MQuestion := b.pos.bind (fun i => b.questions[i]?)

/-- The answer at a position. -/
def answerAt (b : Board) (i : Nat) : Option Nat := (b.questions[i]?).bind MQuestion.answer?

/-- The pair (`rightOptionIndex`, `usrOptionIndex`) of a board. -/
def shown (b : Board) : Int × Int :=
  match b.pos with
  | none => (-1, -2)
  | some i =>
    match b.answerAt i with
    | none => (-1, -2)
    | some j => (j, ((b.choice i).map Int.ofNat).getD (-1))

/-- The positions answered rightly. -/
def rightly (b : Board) : Finset Nat :=
  (Finset.range b.questions.length).filter (fun i => (b.choice i).isSome ∧ b.choice i = b.answerAt i)

/-! ## The operations on the rightly answered positions -/

theorem answerAt_append (b : Board) (qs : List MQuestion) {i : Nat} (h : i < b.questions.length) :
    (b.append qs).answerAt i = b.answerAt i := by
  unfold answerAt append
  rw [List.getElem?_append_left h]

theorem mem_rightly (b : Board) (i : Nat) : i ∈ b.rightly ↔ ∃ c, b.choice i = some c ∧ b.answerAt i = some c := by
  unfold rightly
  rw [Finset.mem_filter, Finset.mem_range, Option.isSome_iff_exists]
  constructor
  · rintro ⟨-, ⟨c, hc⟩, heq⟩
    exact ⟨c, hc, by rw [← heq, hc]⟩
  · rintro ⟨c, hc, ha⟩
    exact ⟨b.choice_lt i c hc, ⟨c, hc⟩, by rw [hc, ha]⟩

@[simp] theorem rightly_append (b : Board) (qs : List MQuestion) : (b.append qs).rightly = b.rightly := by
  ext i
  rw [mem_rightly, mem_rightly]
  constructor
  · rintro ⟨c, hc, ha⟩
    exact ⟨c, hc, by rw [← answerAt_append b qs (b.choice_lt i c hc), ha]⟩
  · rintro ⟨c, hc, ha⟩
    exact ⟨c, hc, by rw [answerAt_append b qs (b.choice_lt i c hc), ha]⟩

theorem choice_choose_of_ne {b : Board} {i k c : Nat} (hpos : b.pos = some i) (hk : k ≠ i) :
    (b.choose c).choice k = b.choice k := by
  have hne : b.pos ≠ some k := by
    rw [hpos]
    exact fun h => hk (Option.some.inj h).symm
  exact if_neg hne

theorem rightly_choose_right (b : Board) {i c : Nat} (hpos : b.pos = some i) (ha : b.answerAt i = some c) :
    (b.choose c).rightly = insert i b.rightly := by
  ext k
  rw [Finset.mem_insert, mem_rightly, mem_rightly]
  by_cases hk : k = i
  · subst hk
    refine ⟨fun _ => .inl rfl, fun _ => ⟨c, ?_, ha⟩⟩
    exact if_pos hpos
  · rw [choice_choose_of_ne hpos hk]
    exact ⟨.inr, fun h => h.resolve_left hk⟩

theorem rightly_choose_wrong (b : Board) {i c : Nat} (hpos : b.pos = some i) (hfree : b.choice i = none)
    (ha : b.answerAt i ≠ some c) : (b.choose c).rightly = b.rightly := by
  ext k
  rw [mem_rightly, mem_rightly]
  by_cases hk : k = i
  · subst hk
    have hch : (b.choose c).choice k = some c := if_pos hpos
    constructor
    · rintro ⟨c', hc', ha'⟩
      rw [hch] at hc'
      exact absurd (ha'.trans hc'.symm) ha
    · rintro ⟨c', hc', -⟩
      rw [hfree] at hc'
      cases hc'
  · rw [choice_choose_of_ne hpos hk]
    exact Iff.rfl

/-- **The count meets the length only when every position is answered rightly.** -/
theorem mem_rightly_of_length_le (b : Board) (h : b.questions.length ≤ b.rightly.card) {i : Nat}
    (hi : i < b.questions.length) : i ∈ b.rightly := by
  have hsub : b.rightly ⊆ Finset.range b.questions.length := Finset.filter_subset _ _
  have heq := Finset.eq_of_subset_of_card_le hsub (by rw [Finset.card_range]; exact h)
  rw [heq]
  exact Finset.mem_range.2 hi

theorem card_rightly_choose (b : Board) {i j c : Nat} (hpos : b.pos = some i) (hans : b.answerAt i = some j)
    (hfree : b.choice i = none) : ((b.choose c).rightly.card : Int) = b.rightly.card + if j = c then 1 else 0 := by
  by_cases hjc : j = c
  · subst hjc
    have hnot : i ∉ b.rightly := by
      rw [mem_rightly]
      rintro ⟨c', hc', -⟩
      rw [hfree] at hc'
      cases hc'
    rw [b.rightly_choose_right hpos hans, Finset.card_insert_of_notMem hnot, if_pos rfl]
    push_cast
    rfl
  · rw [b.rightly_choose_wrong hpos hfree (by rw [hans]; exact fun he => hjc (Option.some.inj he)), if_neg hjc]
    omega

end Board

/-! ## The view model shows a board -/

namespace QuestionData

/-- **The fields are those of a board.** -/
structure Shows (d : QuestionData) (b : Board) : Prop where
  questions : d.mQuestions = b.questions
  index     : d.mQuestionIndex = (b.next : Int) - 1
  current   : d.curQuestion = b.current
  shown     : (d.rightOptionIndex, d.usrOptionIndex) = b.shown
  nodup     : (d.mUsrOptionedIndexRecord.map OptionRecord.questionDataIndex).Nodup
  records   : ∀ r, r ∈ d.mUsrOptionedIndexRecord ↔ ∃ i c : Nat, r = ⟨i, c⟩ ∧ b.choice i = some c
  righted   : d.mUsrRightedCount = b.rightly.card

/-- The fields `Shows` reads. -/
def view (d : QuestionData) :
    List MQuestion × Int × Option MQuestion × Int × Int × List OptionRecord × Int :=
  (d.mQuestions, d.mQuestionIndex, d.curQuestion, d.rightOptionIndex, d.usrOptionIndex, d.mUsrOptionedIndexRecord,
    d.mUsrRightedCount)

variable {d d' : QuestionData} {b : Board}

/-- **Jobs, ads and dialogs do not touch the board.** -/
theorem Shows.congr (h : d.Shows b) (hv : d'.view = d.view) : d'.Shows b := by
  simp only [view, Prod.mk.injEq] at hv
  obtain ⟨h1, h2, h3, h4, h5, h6, h7⟩ := hv
  refine ⟨h1.trans h.questions, h2.trans h.index, h3.trans h.current, ?_, ?_, ?_, h7.trans h.righted⟩
  · rw [h4, h5]
    exact h.shown
  · rw [h6]
    exact h.nodup
  · rw [h6]
    exact h.records

theorem scanOptions_eq (shown : Int) : ∀ (k : Nat) (os : List MOption) (acc : Int × Int),
    scanOptions shown k os acc = ((answerFrom k os).map (fun j => ((j : Int), shown))).getD acc
  | _, [], _ => rfl
  | k, o :: os, acc => by
    rw [scanOptions, scanOptions_eq shown (k + 1) os, answerFrom]
    cases answerFrom (k + 1) os with
    | some j => rfl
    | none => cases o.isAnswer <;> rfl

/-- **`changeQuestion` sets the position of the last answer.** -/
theorem rightOptionIndex_changeQuestion {d : QuestionData} {i : Nat} {q : MQuestion} (h : d.mQuestions[i]? = some q) :
    (d.changeQuestion i).rightOptionIndex = (q.answer?.map (fun k => (k : Int))).getD (-1) := by
  unfold QuestionData.changeQuestion MQuestion.answer?
  rw [h]
  simp only [scanOptions_eq]
  split
  · show Prod.fst _ = _
    cases answerFrom 0 q.options <;> rfl
  · show Prod.fst _ = _
    cases answerFrom 0 q.options <;> rfl

theorem Shows.usrOptioned (h : d.Shows b) (i : Nat) :
    d.usrOptioned i = (b.choice i).map (fun c => ⟨i, c⟩) := by
  unfold QuestionData.usrOptioned
  cases hc : b.choice i with
  | none =>
    refine List.find?_eq_none.2 (fun r hr hi => ?_)
    obtain ⟨k, c, rfl, hk⟩ := (h.records r).1 hr
    have hki : k = i := Int.ofNat_inj.1 (beq_iff_eq.1 hi)
    rw [hki, hc] at hk
    cases hk
  | some c =>
    have hmem := (h.records ⟨i, c⟩).2 ⟨i, c, rfl, hc⟩
    cases hf : d.mUsrOptionedIndexRecord.find? (fun r => r.questionDataIndex == (i : Int)) with
    | none => exact absurd (beq_self_eq_true (i : Int)) (List.find?_eq_none.1 hf _ hmem)
    | some r =>
      obtain ⟨k, c', rfl, hk⟩ := (h.records r).1 (List.mem_of_find?_eq_some hf)
      have hb := List.find?_some hf
      have hki : k = i := Int.ofNat_inj.1 (beq_iff_eq.1 hb)
      subst hki
      rw [hc] at hk
      cases hk
      rfl

theorem shows_fresh : fresh.Shows Board.empty := by
  refine ⟨rfl, rfl, rfl, rfl, List.nodup_nil, fun r => ⟨fun h => ?_, ?_⟩, rfl⟩
  · cases h
  · rintro ⟨_, _, _, h⟩
    cases h

theorem shows_resetUi (d : QuestionData) : d.resetUi.Shows Board.empty := shows_fresh.congr rfl

theorem Shows.changeQuestion (h : d.Shows b) (i : Nat) : (d.changeQuestion i).Shows (b.go i) := by
  unfold QuestionData.changeQuestion
  cases hq : d.mQuestions[i]? with
  | none =>
    have hge : ¬ i < b.questions.length := by
      rw [← h.questions]
      exact Nat.not_lt.2 (List.getElem?_eq_none_iff.1 hq)
    have hgo : b.go i = b := by
      unfold Board.go
      simp only [if_neg hge]
    rw [hgo]
    exact h
  | some q =>
    rw [h.questions] at hq
    have hlt : i < b.questions.length := (List.getElem?_eq_some_iff.1 hq).1
    have hpos : (b.go i).pos = some i := if_pos hlt
    have hscan : scanOptions (shownOption (d.usrOptioned i)) 0 q.options (-1, -2) = (b.go i).shown := by
      have hans : (b.go i).answerAt i = q.answer? := by
        show (b.questions[i]?).bind MQuestion.answer? = _
        rw [hq]
        rfl
      rw [scanOptions_eq, h.usrOptioned, Board.shown, hpos]
      simp only [hans]
      show _ = match answerFrom 0 q.options with
        | none => _
        | some j => ((j : Int), ((b.choice i).map Int.ofNat).getD (-1))
      cases answerFrom 0 q.options with
      | none => rfl
      | some j => cases b.choice i <;> rfl
    have hshows : ({ d.cancelTipsGuideJob.setQuestionIndex i with
        curQuestion := some q
        rightOptionIndex := (scanOptions (shownOption (d.usrOptioned i)) 0 q.options (-1, -2)).1
        usrOptionIndex := (scanOptions (shownOption (d.usrOptioned i)) 0 q.options (-1, -2)).2 }
          : QuestionData).Shows (b.go i) := by
      refine ⟨h.questions, ?_, ?_, hscan, h.nodup, h.records, h.righted⟩
      · rw [Board.next, hpos]
        show (i : Int) = ((i + 1 : Nat) : Int) - 1
        omega
      · rw [Board.current, hpos]
        exact hq.symm
    simp only
    split
    · exact hshows.congr rfl
    · exact hshows

theorem Shows.append (h : d.Shows b) (qs : List MQuestion) :
    ({ d with mQuestions := d.mQuestions ++ qs } : QuestionData).Shows (b.append qs) := by
  refine ⟨?_, h.index, ?_, ?_, h.nodup, h.records, ?_⟩
  · show d.mQuestions ++ qs = b.questions ++ qs
    rw [h.questions]
  · rw [Board.current]
    show d.curQuestion = b.pos.bind (fun i => (b.questions ++ qs)[i]?)
    rw [h.current, Board.current]
    cases hp : b.pos with
    | none => rfl
    | some i => exact (List.getElem?_append_left (b.pos_lt i hp)).symm
  · show (d.rightOptionIndex, d.usrOptionIndex) = _
    rw [h.shown, Board.shown, Board.shown]
    show _ = match b.pos with
      | none => _
      | some i => _
    cases hp : b.pos with
    | none => rfl
    | some i =>
      simp only [Board.answerAt_append b qs (b.pos_lt i hp)]
      rfl
  · rw [Board.rightly_append]
    exact h.righted

theorem Shows.next_eq (h : d.Shows b) : (d.mQuestionIndex + 1).toNat = b.next := by
  rw [h.index]
  omega

theorem Shows.questionsLoaded (h : d.Shows b) (qs : List MQuestion) : (d.questionsLoaded qs).Shows (b.load qs) := by
  have happ := h.append qs
  unfold QuestionData.questionsLoaded
  simp only
  split
  · rename_i hempty
    have hnil : b.questions ++ qs = [] := by
      rw [← h.questions]
      exact List.isEmpty_iff.1 hempty
    have hload : b.load qs = b.append qs := by
      unfold Board.load Board.go
      have hge : ¬ b.next < (b.append qs).questions.length := by
        show ¬ b.next < (b.questions ++ qs).length
        rw [hnil]
        exact Nat.not_lt_zero _
      simp only [if_neg hge]
    rw [hload]
    exact happ
  · have hgo := happ.changeQuestion b.next
    rw [h.next_eq]
    exact hgo.congr rfl

/-! ## What the screen says about the board -/

/-- **An option is on offer only at a position with an answer and no choice yet.** -/
theorem Shows.of_unanswered (h : d.Shows b) (hu : d.usrOptionIndex = -1) :
    ∃ i q j, b.pos = some i ∧ b.questions[i]? = some q ∧ q.answer? = some j ∧ b.choice i = none ∧
      d.rightOptionIndex = j := by
  have hs := h.shown
  unfold Board.shown at hs
  split at hs
  · rw [hu] at hs
    simp at hs
  · rename_i i hpos
    split at hs
    · rw [hu] at hs
      simp at hs
    · rename_i j hans
      obtain ⟨q, hq, hj⟩ := Option.bind_eq_some_iff.1 hans
      refine ⟨i, q, j, hpos, hq, hj, ?_, congrArg Prod.fst hs⟩
      have h2 : d.usrOptionIndex = _ := congrArg Prod.snd hs
      cases hc : b.choice i with
      | none => rfl
      | some c =>
        rw [hu, hc] at h2
        have h3 : (-1 : Int) = c := h2
        omega

theorem Shows.question? (h : d.Shows b) : d.question? = b.current := by
  unfold QuestionData.question? Board.current
  rw [h.questions, h.index, Board.next]
  cases b.pos with
  | none => rfl
  | some i =>
    show (if ((i + 1 : Nat) : Int) - 1 < 0 then none else b.questions[(((i + 1 : Nat) : Int) - 1).toNat]?) = b.questions[i]?
    rw [if_neg (by omega)]
    congr 1
    omega

theorem Shows.index_eq (h : d.Shows b) {i : Nat} (hpos : b.pos = some i) : d.mQuestionIndex = i := by
  rw [h.index, Board.next, hpos]
  show ((i + 1 : Nat) : Int) - 1 = i
  omega

theorem Shows.records_choose (h : d.Shows b) {i : Nat} (hpos : b.pos = some i) (hfree : b.choice i = none) (c : Nat)
    (r : OptionRecord) : r ∈ d.mUsrOptionedIndexRecord ++ [⟨d.mQuestionIndex, c⟩] ↔
      ∃ k c' : Nat, r = ⟨k, c'⟩ ∧ (b.choose c).choice k = some c' := by
  have hself : (b.choose c).choice i = some c := if_pos hpos
  have hother : ∀ k, k ≠ i → (b.choose c).choice k = b.choice k := by
    intro k hk
    refine if_neg (fun hp => hk ?_)
    rw [hpos] at hp
    exact (Option.some.inj hp).symm
  rw [List.mem_append, List.mem_singleton, h.records, h.index_eq hpos]
  constructor
  · rintro (⟨k, c', rfl, hk⟩ | rfl)
    · refine ⟨k, c', rfl, ?_⟩
      rw [hother k (fun hki => by rw [hki, hfree] at hk; cases hk)]
      exact hk
    · exact ⟨i, c, rfl, hself⟩
  · rintro ⟨k, c', rfl, hk⟩
    by_cases hki : k = i
    · subst hki
      rw [hself] at hk
      cases hk
      exact .inr rfl
    · rw [hother k hki] at hk
      exact .inl ⟨k, c', rfl, hk⟩

/-- **A choice is written down once, at the position on show**, and counted when it is the answer. -/
theorem Shows.choose (h : d.Shows b) {i j : Nat} (hpos : b.pos = some i) (hans : b.answerAt i = some j)
    (hfree : b.choice i = none) (c : Nat) {n : Int} (hn : n = d.mUsrRightedCount + if j = c then 1 else 0) :
    ({ d.choose c with mUsrRightedCount := n } : QuestionData).Shows (b.choose c) := by
  have hself : (b.choose c).choice i = some c := if_pos hpos
  refine ⟨h.questions, h.index, h.current, ?_, ?_, h.records_choose hpos hfree c, ?_⟩
  · have hs := h.shown
    rw [Board.shown, hpos] at hs
    simp only [hans] at hs
    rw [Board.shown]
    show (d.rightOptionIndex, (c : Int)) = match b.pos with
      | none => _
      | some i => _
    rw [hpos]
    show _ = match b.answerAt i with
      | none => _
      | some j => _
    rw [hans]
    simp only [hself]
    have hright : d.rightOptionIndex = j := congrArg Prod.fst hs
    rw [hright]
    rfl
  · show ((d.mUsrOptionedIndexRecord ++ [(⟨d.mQuestionIndex, c⟩ : OptionRecord)]).map OptionRecord.questionDataIndex).Nodup
    rw [List.map_append, List.map_singleton]
    refine List.Nodup.append h.nodup (List.nodup_singleton _) (fun x hx hx' => ?_)
    obtain ⟨r, hr, rfl⟩ := List.mem_map.1 hx
    obtain ⟨k, c', rfl, hk⟩ := (h.records r).1 hr
    have hki : (k : Int) = i := by
      rw [← h.index_eq hpos]
      exact List.mem_singleton.1 hx'
    rw [Int.ofNat_inj.1 hki, hfree] at hk
    cases hk
  · show n = _
    rw [hn, h.righted, b.card_rightly_choose hpos hans hfree]

end QuestionData
end Riddles
