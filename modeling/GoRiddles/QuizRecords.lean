import GoRiddles.QuizMoves
/-!
# QuizRecords — the record of choices

Whatever the order of loads, choices, moves, resets and restarts, the view model shows a board.  What the set of
`OptionRecord`s promises follows: one record for a position, none for a position that is not there, and the choice made
on a riddle is the one shown whenever it is on the screen.
-/
namespace Riddles

/-- Option `k` is the only answer of `q`. -/
def MQuestion.SoleAnswer (q : MQuestion) (k : Nat) : Prop :=
  k < q.options.length ∧ ∀ j o, q.options[j]? = some o → (o.isAnswer = true ↔ j = k)

theorem answerFrom_of_sole : ∀ (os : List MOption) (n k : Nat),
    k < os.length → (∀ j o, os[j]? = some o → (o.isAnswer = true ↔ j = k)) → answerFrom n os = some (n + k)
  | [], _, _, hk, _ => absurd hk (Nat.not_lt_zero _)
  | o :: os, n, 0, _, h => by
    have ho : o.isAnswer = true := (h 0 o rfl).2 rfl
    have hrest : answerFrom (n + 1) os = none := by
      rw [answerFrom_eq_none, List.filter_eq_nil_iff]
      intro o' ho' hans
      obtain ⟨j, hj⟩ := List.mem_iff_getElem?.1 ho'
      exact Nat.succ_ne_zero j ((h (j + 1) o' hj).1 hans)
    rw [answerFrom, hrest, ho]
    rfl
  | o :: os, n, k + 1, hk, h => by
    have ih := answerFrom_of_sole os (n + 1) k (Nat.lt_of_succ_lt_succ hk) (fun j o' hj => by
      rw [h (j + 1) o' hj]
      omega)
    rw [answerFrom, ih]
    show some (n + 1 + k) = some (n + (k + 1))
    congr 1
    omega

theorem MQuestion.answer?_of_sole {q : MQuestion} {k : Nat} (h : q.SoleAnswer k) : q.answer? = some k := by
  rw [MQuestion.answer?, answerFrom_of_sole q.options 0 k h.1 h.2, Nat.zero_add]

namespace QuestionData

variable {d : QuestionData} {b : Board}

/-- **The record and what the screen shows of it.** -/
structure RecordsSound (d : QuestionData) : Prop where
  nodup   : (d.mUsrOptionedIndexRecord.map OptionRecord.questionDataIndex).Nodup
  valid   : ∀ r ∈ d.mUsrOptionedIndexRecord, 0 ≤ r.questionDataIndex ∧ r.questionDataIndex < d.mQuestions.length
  current : 0 ≤ d.mQuestionIndex → ∃ q, d.question? = some q ∧ d.curQuestion = some q ∧
    ∀ k, q.SoleAnswer k →
      d.rightOptionIndex = k ∧ d.usrOptionIndex = shownOption (d.usrOptioned d.mQuestionIndex)
  closed  : (d.usrOptioned d.mQuestionIndex).isSome → d.optionEnabled = false

theorem Shows.recordsSound (h : d.Shows b) : d.RecordsSound := by
  refine ⟨h.nodup, ?_, ?_, ?_⟩
  · intro r hr
    obtain ⟨i, c, rfl, hc⟩ := (h.records r).1 hr
    have hlt := b.choice_lt i c hc
    rw [h.questions]
    exact ⟨Int.natCast_nonneg i, Int.ofNat_lt.2 hlt⟩
  · intro hidx
    cases hpos : b.pos with
    | none =>
      rw [h.index, Board.next, hpos] at hidx
      exact absurd hidx (by decide)
    | some i =>
      have hlt := b.pos_lt i hpos
      have hq : b.questions[i]? = some (b.questions[i]) := List.getElem?_eq_getElem hlt
      have hcur : b.current = some (b.questions[i]) := by
        rw [Board.current, hpos]
        exact hq
      refine ⟨_, h.question?.trans hcur, h.current.trans hcur, fun k hk => ?_⟩
      have hans : b.answerAt i = some k := by
        rw [Board.answerAt, hq]
        exact MQuestion.answer?_of_sole hk
      have hs := h.shown
      rw [Board.shown, hpos] at hs
      simp only [hans] at hs
      refine ⟨congrArg Prod.fst hs, ?_⟩
      rw [h.index_eq hpos, h.usrOptioned]
      refine (congrArg Prod.snd hs).trans ?_
      cases b.choice i <;> rfl
  · intro hrec
    refine Bool.eq_false_iff.2 (fun hen => ?_)
    have hfree : d.usrOptionIndex = -1 := beq_iff_eq.1 (Bool.and_eq_true_iff.1 hen).1
    obtain ⟨i, q, j, hpos, -, -, hnone, -⟩ := h.of_unanswered hfree
    rw [h.index_eq hpos, h.usrOptioned, hnone] at hrec
    cases hrec

/-! ## The end of a batch -/

/-- The choice recorded for a position is the option that is right there. -/
def answeredRightly (d : QuestionData) (i : Nat) : Bool :=
  (d.usrOptioned i).map OptionRecord.optionIndex == some (d.changeQuestion i).rightOptionIndex

theorem Shows.answeredRightly_iff (h : d.Shows b) {i : Nat} (hi : i < b.questions.length) :
    d.answeredRightly i = true ↔ i ∈ b.rightly := by
  have hq : d.mQuestions[i]? = some (b.questions[i]) := by
    rw [h.questions]
    exact List.getElem?_eq_getElem hi
  have hat : b.answerAt i = (b.questions[i]).answer? := by
    rw [Board.answerAt, List.getElem?_eq_getElem hi]
    rfl
  rw [answeredRightly, h.usrOptioned, rightOptionIndex_changeQuestion hq, Board.mem_rightly, hat, beq_iff_eq]
  cases b.choice i with
  | none => simp
  | some c =>
    cases (b.questions[i]).answer? with
    | none => simp
    | some k => simp [eq_comm]

/-- The positions whose recorded choice is the right option. -/
def rightlyAnswered (d : QuestionData) : Finset Nat :=
  (Finset.range d.mQuestions.length).filter (fun i => d.answeredRightly i = true)

theorem Shows.rightlyAnswered (h : d.Shows b) : d.rightlyAnswered = b.rightly := by
  ext i
  unfold QuestionData.rightlyAnswered
  rw [Finset.mem_filter, Finset.mem_range, h.questions]
  constructor
  · rintro ⟨hi, hright⟩
    exact (h.answeredRightly_iff hi).1 hright
  · intro hi
    obtain ⟨c, hc, -⟩ := (b.mem_rightly i).1 hi
    have hlt := b.choice_lt i c hc
    exact ⟨hlt, (h.answeredRightly_iff hlt).2 hi⟩

/-- **The end of a batch is decided by the choices recorded**: the count is that of the positions answered rightly, and
Next on the last position, when it shows no ad, asks whether to go on exactly when a position is not answered rightly
and loads the next batch exactly when all of them are. -/
structure EndsBatch (d : QuestionData) : Prop where
  counted : d.mUsrRightedCount = d.rightlyAnswered.card
  dialog  : ∀ cached, d.mQuestionIndex + 1 = d.mQuestions.length → (d.mCanShowNextAd && cached) = false →
    ((d.onNextQuestion cached).endDialogs = d.endDialogs + 1 ↔ ∃ i < d.mQuestions.length, d.answeredRightly i = false)
  load    : ∀ cached, d.mQuestionIndex + 1 = d.mQuestions.length → (d.mCanShowNextAd && cached) = false →
    ((d.onNextQuestion cached).loads = d.loads ++ [.launched] ↔ ∀ i < d.mQuestions.length, d.answeredRightly i = true)

/-- The count falls short of the length exactly when a position is not answered rightly. -/
theorem rightlyAnswered_card_lt (d : QuestionData) :
    d.rightlyAnswered.card < d.mQuestions.length ↔ ∃ i < d.mQuestions.length, d.answeredRightly i = false := by
  have hsub : d.rightlyAnswered ⊆ Finset.range d.mQuestions.length := Finset.filter_subset _ _
  constructor
  · intro hlt
    by_contra hall
    push Not at hall
    have hrange : d.rightlyAnswered = Finset.range d.mQuestions.length := by
      unfold rightlyAnswered
      rw [Finset.filter_true_of_mem]
      intro i hi
      simpa using hall i (Finset.mem_range.1 hi)
    rw [hrange, Finset.card_range] at hlt
    exact Nat.lt_irrefl _ hlt
  · rintro ⟨i, hi, hwrong⟩
    have hnot : i ∉ d.rightlyAnswered := by
      unfold rightlyAnswered
      simp [hwrong]
    have hssub : d.rightlyAnswered ⊂ Finset.range d.mQuestions.length :=
      (Finset.ssubset_iff_of_subset hsub).2 ⟨i, Finset.mem_range.2 hi, hnot⟩
    have hcard := Finset.card_lt_card hssub
    rw [Finset.card_range] at hcard
    exact hcard

theorem onNextQuestion_last {cached : Bool} (hlast : d.mQuestionIndex + 1 = d.mQuestions.length)
    (hnoAd : (d.mCanShowNextAd && cached) = false) :
    d.onNextQuestion cached =
      if d.mUsrRightedCount < d.mQuestions.length then { d with endDialogs := d.endDialogs + 1 }
      else d.initQuestionLib := by
  unfold onNextQuestion
  rw [if_neg (by rw [hnoAd]; exact Bool.false_ne_true), if_pos (by omega)]

theorem Shows.endsBatch (h : d.Shows b) : d.EndsBatch := by
  have hcount : d.mUsrRightedCount = d.rightlyAnswered.card := by
    rw [h.rightlyAnswered]
    exact h.righted
  have hlt : d.mUsrRightedCount < d.mQuestions.length ↔ ∃ i < d.mQuestions.length, d.answeredRightly i = false := by
    rw [← rightlyAnswered_card_lt, hcount]
    exact Int.ofNat_lt
  refine ⟨hcount, ?_, ?_⟩
  · intro cached hlast hnoAd
    rw [onNextQuestion_last hlast hnoAd, ← hlt]
    by_cases hmore : d.mUsrRightedCount < d.mQuestions.length
    · simp [hmore]
    · simp [hmore, initQuestionLib]
  · intro cached hlast hnoAd
    have hall : (∀ i < d.mQuestions.length, d.answeredRightly i = true) ↔
        ¬ d.mUsrRightedCount < d.mQuestions.length := by
      rw [hlt]
      simp
    rw [onNextQuestion_last hlast hnoAd, hall]
    by_cases hmore : d.mUsrRightedCount < d.mQuestions.length
    · simp [hmore]
    · simp [hmore, initQuestionLib]

end QuestionData

namespace Quiz

variable {lib : Library} {s t : Quiz} {e : Event}

@[simp] theorem data_opened (usr : Usr) (log : List Entry) :
    (opened usr log).data = QuestionData.fresh.initQuestionLib := by
  unfold opened
  simp only
  split <;> rfl

theorem shows_opened (usr : Usr) (log : List Entry) : (opened usr log).data.Shows Board.empty := by
  rw [data_opened]
  exact QuestionData.shows_fresh.congr rfl

/-- **What an event does to the board**: a choice where there is none yet, something that leaves the choices and only adds
riddles, or a clearing. -/
inductive BoardMove (b : Board) (e : Event) (b' : Board) : Prop
  | chosen (c i : Nat) (q : MQuestion) (event : e = .onOption c) (pos : b.pos = some i) (riddle : b.questions[i]? = some q)
      (answer : q.answer?.isSome = true) (free : b.choice i = none) (moved : b' = b.choose c)
  | kept (other : ∀ c, e ≠ .onOption c) (choice : b'.choice = b.choice) (questions : b.questions <+: b'.questions)
  | cleared (event : e = .generateNewQuestions ∨ e = .restart) (empty : b' = Board.empty)

theorem boardMove_plain {b b' : Board} (h : e.isPlain = true) (hchoice : b'.choice = b.choice)
    (hquestions : b.questions <+: b'.questions) : BoardMove b e b' := by
  refine .kept (fun c hc => ?_) hchoice hquestions
  rw [hc] at h
  cases h

theorem boardMove_chosen {b : Board} {c : Nat} (hb : s.data.Shows b) (hfree : s.data.usrOptionIndex = -1)
    (he : e = .onOption c) : BoardMove b e (b.choose c) := by
  obtain ⟨i, q, j, hpos, hq, hj, hnone, -⟩ := hb.of_unanswered hfree
  exact .chosen c i q he hpos hq (by rw [hj]; rfl) hnone rfl

/-- **A turn moves one board to the next.** -/
theorem Turn.shows (h : Turn lib s e t) {b : Board} (hb : s.data.Shows b) :
    ∃ b', t.data.Shows b' ∧ BoardMove b e b' := by
  cases h with
  | idle plays _ _ _ plain | launch _ _ plays _ _ _ plain =>
    exact ⟨b, plays b hb, boardMove_plain plain rfl (List.prefix_refl _)⟩
  | draw _ _ _ event _ _ plays | openTips _ _ event _ plays =>
    exact ⟨b, plays b hb, boardMove_plain (by rw [event]; rfl) rfl (List.prefix_refl _)⟩
  | adReward plays _ _ _ _ _ event =>
    subst event
    exact ⟨b, plays b hb, .kept (by simp) rfl (List.prefix_refl _)⟩
  | freeTip _ _ _ event _ _ data | paidTip _ _ _ event _ _ data =>
    refine ⟨b, ?_, boardMove_plain (by rw [event]; rfl) rfl (List.prefix_refl _)⟩
    rw [data]
    exact hb
  | loaded _ qs _ plays _ _ _ plain => exact ⟨_, plays b hb, boardMove_plain plain rfl (List.prefix_append _ _)⟩
  | go i plays _ _ _ plain => exact ⟨_, plays b hb, boardMove_plain plain rfl (List.prefix_refl _)⟩
  | wrong c free _ plays _ _ _ event => exact ⟨_, plays b hb, boardMove_chosen hb free event⟩
  | right c _ free _ plays _ _ event => exact ⟨_, plays b hb, boardMove_chosen hb free event⟩
  | reset _ shows _ _ _ event => exact ⟨_, shows, .cleared (.inl event) rfl⟩
  | restart event restarted =>
    subst restarted
    exact ⟨_, shows_opened _ _, .cleared (.inr event) rfl⟩

/-- Some board is on show. -/
def Showing (s : Quiz) : Prop := ∃ b, s.data.Shows b

theorem showing_step (s : Quiz) (e : Event) (t : Quiz) (h : s.Showing) (hs : step lib s e = some t) : t.Showing := by
  obtain ⟨b, hb⟩ := h
  obtain ⟨b', hb', -⟩ := (turn_of_step hs).shows hb
  exact ⟨b', hb'⟩

theorem showing_start (sp : Prefs) : (start sp).Showing := ⟨_, shows_opened _ _⟩

/-! ## One step -/

/-- The event clears the board. -/
def Event.clears : Event → Bool
  | .generateNewQuestions | .restart => true
  | _ => false

/-- **What a step does to the record**: a choice is written down at the position on screen and shown there, no other record is
made, and records and riddles stay until the board is cleared. -/
structure RecordStep (s : Quiz) (e : Event) (t : Quiz) : Prop where
  chosen : ∀ c : Nat, e = .onOption c → t.data.usrOptionIndex = c ∧ t.data.mQuestionIndex = s.data.mQuestionIndex ∧
    ⟨s.data.mQuestionIndex, c⟩ ∈ t.data.mUsrOptionedIndexRecord
  made   : ∀ r ∈ t.data.mUsrOptionedIndexRecord, r ∈ s.data.mUsrOptionedIndexRecord ∨
    ∃ c : Nat, e = .onOption c ∧ r = ⟨s.data.mQuestionIndex, c⟩
  kept   : e.clears = false → (∀ r ∈ s.data.mUsrOptionedIndexRecord, r ∈ t.data.mUsrOptionedIndexRecord) ∧
    s.data.mQuestions <+: t.data.mQuestions

theorem BoardMove.choice {b b' : Board} (h : BoardMove b e b') (he : e.clears = false) {i c : Nat}
    (hc : b.choice i = some c) : b'.choice i = some c := by
  cases h with
  | kept _ choice => rw [choice, hc]
  | cleared event => rcases event with rfl | rfl <;> cases he
  | chosen c' k _ _ pos _ _ free moved =>
    subst moved
    rw [Board.choice_choose_of_ne pos ?_, hc]
    rintro rfl
    rw [free] at hc
    cases hc

theorem BoardMove.questions {b b' : Board} (h : BoardMove b e b') (he : e.clears = false) :
    b.questions <+: b'.questions := by
  cases h with
  | kept _ _ questions => exact questions
  | cleared event => rcases event with rfl | rfl <;> cases he
  | chosen _ _ _ _ _ _ _ _ moved =>
    rw [moved]
    exact List.prefix_refl _

/-- A choice made at the position on screen is shown there. -/
theorem shown_choose {b : Board} {c i : Nat} {q : MQuestion} (ht : t.data.Shows (b.choose c)) (hpos : b.pos = some i)
    (hq : b.questions[i]? = some q) (hans : q.answer?.isSome = true) : t.data.usrOptionIndex = c := by
  obtain ⟨j, hj⟩ := Option.isSome_iff_exists.1 hans
  have hself : (b.choose c).choice i = some c := if_pos hpos
  have hat : (b.choose c).answerAt i = some j := by
    show (b.questions[i]?).bind MQuestion.answer? = _
    rw [hq]
    exact hj
  have hpos' : (b.choose c).pos = some i := hpos
  have hshown := ht.shown
  rw [Board.shown, hpos'] at hshown
  simp only [hat, hself] at hshown
  exact congrArg Prod.snd hshown

theorem record_step (h : s.Showing) (hs : step lib s e = some t) : RecordStep s e t := by
  obtain ⟨b, hb⟩ := h
  obtain ⟨b', hb', hmove⟩ := (turn_of_step hs).shows hb
  refine ⟨fun c hc => ?_, fun r hr => ?_, fun he => ⟨fun r hr => ?_, ?_⟩⟩
  · cases hmove with
    | kept other => exact absurd hc (other c)
    | cleared event => rcases event with rfl | rfl <;> cases hc
    | chosen c' i q event pos riddle answer _ moved =>
      subst moved
      cases event.symm.trans hc
      have hself : (b.choose c).choice i = some c := if_pos pos
      refine ⟨shown_choose hb' pos riddle answer, ?_, ?_⟩
      · rw [hb.index_eq pos, hb'.index_eq (i := i) pos]
      · rw [hb.index_eq pos]
        exact (hb'.records _).2 ⟨i, c, rfl, hself⟩
  · obtain ⟨k, c, rfl, hk⟩ := (hb'.records r).1 hr
    cases hmove with
    | kept _ choice =>
      rw [choice] at hk
      exact .inl ((hb.records _).2 ⟨k, c, rfl, hk⟩)
    | cleared _ empty =>
      rw [empty] at hk
      cases hk
    | chosen c' i q event pos _ _ _ moved =>
      subst moved
      by_cases hki : k = i
      · subst hki
        have hself : (b.choose c').choice k = some c' := if_pos pos
        rw [hself] at hk
        cases hk
        exact .inr ⟨c, event, by rw [hb.index_eq pos]⟩
      · rw [Board.choice_choose_of_ne pos hki] at hk
        exact .inl ((hb.records _).2 ⟨k, c, rfl, hk⟩)
  · obtain ⟨i, c, rfl, hc⟩ := (hb.records r).1 hr
    exact (hb'.records _).2 ⟨i, c, rfl, hmove.choice he hc⟩
  · rw [hb.questions, hb'.questions]
    exact hmove.questions he

/-! ## A position visited again -/

/-- Option `c` was chosen at position `i`, where riddle `q` is. -/
def Remembers (i c : Nat) (q : MQuestion) (s : Quiz) : Prop :=
  ∃ b, s.data.Shows b ∧ b.choice i = some c ∧ b.questions[i]? = some q ∧ q.answer?.isSome = true

theorem remembers_chosen {c : Nat} (h : s.Showing) (hs : step lib s (.onOption c) = some t) :
    ∃ (i : Nat) (q : MQuestion), s.data.mQuestionIndex = i ∧ s.data.curQuestion = some q ∧ t.Remembers i c q := by
  obtain ⟨b, hb⟩ := h
  obtain ⟨b', hb', hmove⟩ := (turn_of_step hs).shows hb
  cases hmove with
  | kept other => exact absurd rfl (other c)
  | cleared event => rcases event with h | h <;> cases h
  | chosen c' i q event pos riddle answer _ moved =>
    subst moved
    cases event
    refine ⟨i, q, hb.index_eq pos, ?_, b.choose c, hb', if_pos pos, riddle, answer⟩
    rw [hb.current, Board.current, pos]
    exact riddle

theorem remembers_step {i c : Nat} {q : MQuestion} (s : Quiz) (e : Event) (t : Quiz) (h : s.Remembers i c q)
    (he : e.clears = false) (hs : step lib s e = some t) : t.Remembers i c q := by
  obtain ⟨b, hb, hc, hq, hans⟩ := h
  obtain ⟨b', hb', hmove⟩ := (turn_of_step hs).shows hb
  obtain ⟨more, hmore⟩ := hmove.questions he
  refine ⟨b', hb', hmove.choice he hc, ?_, hans⟩
  rw [← hmore, List.getElem?_append_left (List.getElem?_eq_some_iff.1 hq).1]
  exact hq

theorem Remembers.shown {i c : Nat} {q : MQuestion} (h : s.Remembers i c q) (hi : s.data.mQuestionIndex = i) :
    s.data.curQuestion = some q ∧ s.data.usrOptionIndex = c ∧ ∀ c', step lib s (.onOption c') = none := by
  obtain ⟨b, hb, hc, hq, hans⟩ := h
  obtain ⟨j, hj⟩ := Option.isSome_iff_exists.1 hans
  have hpos : b.pos = some i := by
    have hnext := hb.index
    rw [hi, Board.next] at hnext
    cases hp : b.pos with
    | none =>
      rw [hp] at hnext
      simp at hnext
    | some k =>
      rw [hp] at hnext
      simp at hnext
      rw [hnext]
  have hat : b.answerAt i = some j := by
    rw [Board.answerAt, hq]
    exact hj
  have hshown := hb.shown
  rw [Board.shown, hpos] at hshown
  simp only [hat, hc] at hshown
  have hopt : s.data.usrOptionIndex = c := congrArg Prod.snd hshown
  have hclosed : s.data.optionEnabled = false := by
    have hne : s.data.usrOptionIndex ≠ -1 := by omega
    simp [QuestionData.optionEnabled, hne]
  refine ⟨?_, hopt, fun c' => ?_⟩
  · rw [hb.current, Board.current, hpos]
    exact hq
  · unfold step
    split
    · simp [act, hclosed]
    · rfl

/-- **A choice is recorded once and shown for good.**  In every state of every run there is at most one record for a
position, every recorded position is there, the screen of a riddle with one answer shows that answer and the recorded
choice, and a recorded position offers no option; a step records what is chosen and nothing else, and drops records only with
their riddles.  So a position visited again after a choice shows the riddle and the choice, and no option can be chosen. -/
theorem records_sound (lib : Library) (sp : Prefs) (es : List Event) :
    Machine.always (step lib) (fun s => s.data.RecordsSound) (start sp) es ∧
    Machine.along (step lib) RecordStep (start sp) es ∧
    ∀ (c : Nat) (after : List Event) (s s' t : Quiz), Machine.run (step lib) (start sp) es = some s →
      step lib s (.onOption c) = some s' → (∀ e ∈ after, e.clears = false) → Machine.run (step lib) s' after = some t →
      t.data.mQuestionIndex = s.data.mQuestionIndex →
        t.data.curQuestion = s.data.curQuestion ∧ t.data.usrOptionIndex = c ∧ ∀ c', step lib t (.onOption c') = none := by
  have hshowing : Machine.always (step lib) Showing (start sp) es :=
    Machine.always_of_inv showing_step es _ (showing_start sp)
  refine ⟨?_, ?_, ?_⟩
  · refine Machine.always_mono ?_ es _ hshowing
    rintro s ⟨b, hb⟩
    exact hb.recordsSound
  · exact Machine.along_of_inv showing_step (fun _ _ _ h hs => record_step h hs) es _ (showing_start sp)
  · intro c after s s' t hrun hchoice hafter hrest hback
    obtain ⟨i, q, hi, hq, hremembers⟩ := remembers_chosen (Machine.always_last es _ hshowing hrun) hchoice
    have hkept : Machine.always (step lib) (Remembers i c q) s' after :=
      Machine.always_of_events (Q := fun e => e.clears = false) remembers_step after s' hremembers hafter
    rw [hq]
    exact (Machine.always_last after s' hkept hrest).shown (hback.trans hi)

/-- Two riddles. -/
def twoRiddles : Library where
  level1To5  := [⟨"What has keys?".toList, [⟨"A piano".toList, true⟩, ⟨"A fish".toList, false⟩], []⟩,
    ⟨"What has hands?".toList, [⟨"A clock".toList, true⟩], []⟩]
  level6To10 := []

/-- The first riddle is answered wrongly, and visited again from the second one. -/
theorem records_sound_revisited :
    ∃ s s' t, Machine.run (step twoRiddles) (start Prefs.empty) [.draw 0 [0, 1, 0, 1, 0], .loaded 0] = some s ∧
      step twoRiddles s (.onOption 1) = some s' ∧
      Machine.run (step twoRiddles) s' [.onNextQuestion false, .onPreQuestion] = some t ∧
      s.data.usrOptionIndex = -1 ∧ t.data.curQuestion = s.data.curQuestion ∧ t.data.usrOptionIndex = 1 ∧
        ∀ c', step twoRiddles t (.onOption c') = none := by
  obtain ⟨s, hs, hfree⟩ : ∃ s, Machine.run (step twoRiddles) (start Prefs.empty) [.draw 0 [0, 1, 0, 1, 0], .loaded 0] =
      some s ∧ (s.data.usrOptionIndex == -1 && (step twoRiddles s (.onOption 1)).any (fun s' =>
        (Machine.run (step twoRiddles) s' [.onNextQuestion false, .onPreQuestion]).any (fun t =>
          t.data.mQuestionIndex == s.data.mQuestionIndex))) = true := by
    rw [← Option.any_eq_true]
    decide +kernel
  simp only [Bool.and_eq_true, Option.any_eq_true, beq_iff_eq] at hfree
  obtain ⟨hfree, s', hs', t, ht, hback⟩ := hfree
  have hsound := (records_sound twoRiddles Prefs.empty [.draw 0 [0, 1, 0, 1, 0], .loaded 0]).2.2
  exact ⟨s, s', t, hs, hs', ht, hfree,
    hsound 1 [.onNextQuestion false, .onPreQuestion] s s' t hs hs' (by decide) ht hback⟩

/-- **The end-of-batch decision.**  In every state of every run, however many loads are in flight and in whatever order
they complete, the count of right answers is that of the positions whose recorded choice is right, and what Next does on
the last position follows the recorded choices. -/
theorem batch_end_decided (lib : Library) (sp : Prefs) (es : List Event) :
    Machine.always (step lib) (fun s => s.data.EndsBatch) (start sp) es := by
  refine Machine.always_mono ?_ es _ (Machine.always_of_inv showing_step es _ (showing_start sp))
  rintro s ⟨b, hb⟩
  exact hb.endsBatch

end Quiz
end Riddles
