import GoRiddles.QuizPay
/-!
# QuizAlive — can the screen die?

With no load in flight, no ad and no end dialog, a screen that enables neither an option nor Next nor Previous is never
left again.  It is reached when a batch comes back empty on an empty board, as every batch does once the level's file is
used up and the screen is opened anew, and on a riddle without an answer.  Nothing else leads there: if every riddle has
an answer, and every draw for an empty board finds one that is not answered, some button is always enabled.
-/
namespace Riddles

/-- Some option is an answer. -/
def MQuestion.HasAnswer (q : MQuestion) : Prop := ∃ o ∈ q.options, o.isAnswer = true

/-- Every riddle of the files has an answer. -/
def Library.Answerable (lib : Library) : Prop := ∀ q ∈ lib.level1To5 ++ lib.level6To10, q.HasAnswer

theorem hasAnswer_of_shuffled : ∀ {qs qs' : List MQuestion}, List.Forall₂ Shuffled qs qs' →
    (∀ q ∈ qs, q.HasAnswer) → ∀ q ∈ qs', q.HasAnswer
  | _, _, .nil, _, q, hq => by cases hq
  | q₀ :: qs, q₁ :: qs', .cons h hs, hall, q, hq => by
    rcases List.mem_cons.1 hq with rfl | hq
    · obtain ⟨o, ho, hans⟩ := hall q₀ List.mem_cons_self
      exact ⟨o, h.options.mem_iff.2 ho, hans⟩
    · exact hasAnswer_of_shuffled hs (fun x hx => hall x (List.mem_cons_of_mem _ hx)) q hq

theorem batch_hasAnswer {lib : Library} (hlib : lib.Answerable) {p : Prefs} {level : Int} {draws : List Nat}
    {qs : List MQuestion} (h : listQuestionsByUsrLevel lib p level draws = .ok (some qs)) : ∀ q ∈ qs, q.HasAnswer := by
  obtain ⟨picked, hsub, -, hshuf⟩ := listQuestionsByUsrLevel_spec h
  refine hasAnswer_of_shuffled hshuf (fun q hq => hlib q ?_)
  have hfile := (List.mem_filter.1 (hsub.subset hq)).1
  unfold Library.ofLevel at hfile
  split at hfile
  · exact List.mem_append_left _ hfile
  · exact List.mem_append_right _ hfile

theorem batch_ne_nil {lib : Library} {p : Prefs} {level : Int} {draws : List Nat} {qs : List MQuestion}
    (h : listQuestionsByUsrLevel lib p level draws = .ok (some qs)) (hleft : lib.notAnswered p level ≠ []) : qs ≠ [] := by
  obtain ⟨picked, -, hlen, hshuf⟩ := listQuestionsByUsrLevel_spec h
  rintro rfl
  have hpicked : picked.length = 0 := hshuf.length_eq
  have hpos := List.length_pos_iff.2 hleft
  have hbatch : 0 < batchSize level := by
    unfold batchSize
    split <;> decide
  omega

/-- An option of a riddle on show, Next or Previous is enabled. -/
def QuestionData.Alive (d : QuestionData) : Prop :=
  (d.optionEnabled = true ∧ ∃ q, d.curQuestion = some q ∧ q.options ≠ []) ∨ d.nextEnabled = true ∨ d.preEnabled = true

namespace Quiz

variable {lib : Library} {s t : Quiz} {e : Event} {b : Board}

/-- A draw for an empty board finds a riddle that is not answered. -/
def DrawsSome (lib : Library) (s : Quiz) (e : Event) : Prop :=
  ∀ k draws, e = .draw k draws → s.data.mQuestions = [] → lib.notAnswered s.usr.sp s.usr.getLevel ≠ []

/-- A load that will put something on the board. -/
def Promising (load : Load) : Prop := load ≠ .drawn []

/-- Every riddle on the board or on its way has an answer, a board that is not empty is shown, and for an empty one
something is on its way. -/
structure Living (b : Board) (loads : List Load) : Prop where
  board   : ∀ q ∈ b.questions, q.HasAnswer
  coming  : ∀ qs, Load.drawn qs ∈ loads → ∀ q ∈ qs, q.HasAnswer
  shown   : b.questions ≠ [] → b.pos ≠ none
  promise : b.questions = [] → ∃ load ∈ loads, Promising load

theorem living_launched (loads : List Load) (hcoming : ∀ qs, Load.drawn qs ∈ loads → ∀ q ∈ qs, q.HasAnswer)
    (hboard : ∀ q ∈ b.questions, q.HasAnswer) (hshown : b.questions ≠ [] → b.pos ≠ none) :
    Living b (loads ++ [.launched]) where
  board    := hboard
  coming qs hqs := by
    rcases List.mem_append.1 hqs with h | h
    · exact hcoming qs h
    · cases List.mem_singleton.1 h
  shown    := hshown
  promise _ := ⟨.launched, List.mem_append_right _ (List.mem_singleton.2 rfl), fun h => by cases h⟩

theorem living_go {loads : List Load} (h : Living b loads) (i : Nat) : Living (b.go i) loads where
  board   := h.board
  coming  := h.coming
  shown hne := by
    show (if i < b.questions.length then some i else b.pos) ≠ none
    split
    · exact Option.some_ne_none i
    · exact h.shown hne
  promise := h.promise

theorem living_loaded {loads : List Load} {k : Nat} {qs : List MQuestion} (h : Living b loads)
    (hk : loads[k]? = some (.drawn qs)) : Living (b.load qs) (loads.eraseIdx k) where
  board q hq := by
    rcases List.mem_append.1 hq with hq | hq
    · exact h.board q hq
    · exact h.coming qs (List.mem_of_getElem? hk) q hq
  coming qs' hqs' := h.coming qs' ((List.eraseIdx_sublist loads k).subset hqs')
  shown hne := by
    show (if b.next < (b.questions ++ qs).length then some b.next else b.pos) ≠ none
    split
    · exact Option.some_ne_none _
    · rename_i hge
      intro hnone
      have hnext : b.next = 0 := by
        rw [Board.next, hnone]
        rfl
      rw [hnext] at hge
      exact hge (List.length_pos_iff.2 hne)
  promise hempty := by
    obtain ⟨hb, hqs⟩ := List.append_eq_nil_iff.1 hempty
    obtain ⟨load, hload, hprom⟩ := h.promise hb
    refine ⟨load, ?_, hprom⟩
    -- the load that resumes is not the promising one: its batch is empty
    obtain ⟨j, hj⟩ := List.mem_iff_getElem?.1 hload
    refine List.mem_eraseIdx_iff_getElem?.2 ⟨j, fun hjk => hprom ?_, hj⟩
    rw [hjk, hk, hqs] at hj
    exact (Option.some.inj hj).symm

theorem living_draw {loads : List Load} {k : Nat} {qs : List MQuestion} (h : Living b loads)
    (hans : ∀ q ∈ qs, q.HasAnswer) (hk : k < loads.length) (hsome : b.questions = [] → qs ≠ []) :
    Living b (loads.set k (.drawn qs)) where
  board   := h.board
  coming qs' hqs' := by
    rcases List.mem_or_eq_of_mem_set hqs' with hmem | heq
    · exact h.coming qs' hmem
    · cases heq
      exact hans
  shown   := h.shown
  promise hempty := by
    refine ⟨.drawn qs, List.mem_set hk _, fun heq => hsome hempty ?_⟩
    cases heq
    rfl

theorem living_step (hlib : lib.Answerable) (hb : s.data.Shows b) (h : Living b s.data.loads)
    (hdraw : DrawsSome lib s e) (hs : step lib s e = some t) : ∃ b', t.data.Shows b' ∧ Living b' t.data.loads := by
  cases turn_of_step hs with
  | idle plays loads | adReward plays loads | openTips _ _ _ _ plays loads =>
    exact ⟨b, plays b hb, by rw [loads]; exact h⟩
  | freeTip _ _ _ _ _ _ data | paidTip _ _ _ _ _ _ data => exact ⟨b, by rw [data]; exact hb, by rw [data]; exact h⟩
  | draw k draws qs event launched drawn plays loads =>
    refine ⟨b, plays b hb, ?_⟩
    rw [loads]
    refine living_draw h (batch_hasAnswer hlib drawn) (List.getElem?_eq_some_iff.1 launched).1 (fun hempty => ?_)
    exact batch_ne_nil drawn (hdraw k draws event (by rw [hb.questions, hempty]))
  | loaded k qs drawn plays loads =>
    refine ⟨_, plays b hb, ?_⟩
    rw [loads]
    exact living_loaded h drawn
  | wrong c _ _ plays loads | right c _ _ _ plays loads =>
    refine ⟨_, plays b hb, ?_⟩
    rw [loads]
    exact ⟨h.board, h.coming, h.shown, h.promise⟩
  | go i plays loads =>
    refine ⟨_, plays b hb, ?_⟩
    rw [loads]
    exact living_go h i
  | launch _ _ plays loads =>
    refine ⟨b, plays b hb, ?_⟩
    rw [loads]
    exact living_launched _ h.coming h.board h.shown
  | reset _ shows loads =>
    refine ⟨_, shows, ?_⟩
    rw [loads]
    exact living_launched _ h.coming (fun q hq => by cases hq) (fun hne => absurd rfl hne)
  | restart _ restarted =>
    subst restarted
    refine ⟨_, shows_opened _ _, ?_⟩
    rw [data_opened]
    exact living_launched [] (fun _ hq => by cases hq) (fun q hq => by cases hq) (fun hne => absurd rfl hne)

/-- A living board with nothing in flight has an enabled button. -/
theorem alive_of_living (hb : s.data.Shows b) (h : Living b s.data.loads) (hloads : s.data.loads = [])
    (hviews : s.data.enableViews = true) : s.data.Alive := by
  have hne : b.questions ≠ [] := by
    intro hempty
    obtain ⟨load, hload, -⟩ := h.promise hempty
    rw [hloads] at hload
    cases hload
  obtain ⟨i, hpos⟩ := Option.ne_none_iff_exists'.1 (h.shown hne)
  obtain ⟨q, hq⟩ : ∃ q, b.questions[i]? = some q := ⟨_, List.getElem?_eq_getElem (b.pos_lt i hpos)⟩
  have hans := h.board q (List.mem_of_getElem? hq)
  obtain ⟨j, hj⟩ := Option.isSome_iff_exists.1 (answerFrom_isSome 0 hans)
  have hat : b.answerAt i = some j := by
    rw [Board.answerAt, hq]
    exact hj
  have hshown := hb.shown
  rw [Board.shown, hpos] at hshown
  simp only [hat] at hshown
  have husr : s.data.usrOptionIndex = ((b.choice i).map Int.ofNat).getD (-1) := congrArg Prod.snd hshown
  cases hc : b.choice i with
  | none =>
    have hfree : s.data.usrOptionIndex = -1 := by rw [husr, hc]; rfl
    refine .inl ⟨?_, q, ?_, ?_⟩
    · rw [QuestionData.optionEnabled, hfree, hviews]
      rfl
    · rw [hb.current, Board.current, hpos]
      exact hq
    · obtain ⟨o, ho, -⟩ := hans
      exact List.ne_nil_of_mem ho
  | some c =>
    have hchosen : s.data.usrOptionIndex = c := by rw [husr, hc]; rfl
    refine .inr (.inl ?_)
    rw [QuestionData.nextEnabled, hviews, hchosen, Bool.and_true]
    exact decide_eq_true (Int.natCast_nonneg c)

/-- **When the screen stays alive.**  If every riddle has an answer, then from any store, in every run in which a draw for
an empty board finds a riddle not yet answered, a screen with nothing in flight, no ad and no end dialog has an enabled
button. -/
theorem screen_alive (lib : Library) (hlib : lib.Answerable) (sp : Prefs) (es : List Event)
    (hdraws : Machine.along (step lib) (fun s e _ => DrawsSome lib s e) (start sp) es) :
    Machine.always (step lib) (fun s => s.crashed = none → s.data.loads = [] → s.data.enableViews = true →
      s.data.endDialogs = 0 → s.data.Alive) (start sp) es := by
  have hinv : Machine.always (step lib) (fun s => ∃ b, s.data.Shows b ∧ Living b s.data.loads) (start sp) es := by
    refine Machine.always_of_along (fun s e t hs hq hstep => ?_) es _ ⟨_, shows_opened _ _, ?_⟩ hdraws
    · obtain ⟨b, hb, hliving⟩ := hs
      exact living_step hlib hb hliving hq hstep
    · rw [start, data_opened]
      exact living_launched [] (fun _ hq => by cases hq) (fun q hq => by cases hq) (fun hne => absurd rfl hne)
  refine Machine.always_mono (fun s hs _ hloads hviews _ => ?_) es _ hinv
  obtain ⟨b, hb, hliving⟩ := hs
  exact alive_of_living hb hliving hloads hviews

/-- One riddle, drawn and loaded. -/
theorem screen_alive_oneRiddle :
    oneRiddle.Answerable ∧
    Machine.always (step oneRiddle) (fun s => s.crashed = none → s.data.loads = [] → s.data.enableViews = true →
      s.data.endDialogs = 0 → s.data.Alive) (start Prefs.empty) [.draw 0 [0, 0, 1], .loaded 0] := by
  have hlib : oneRiddle.Answerable := by
    unfold Library.Answerable MQuestion.HasAnswer
    decide
  refine ⟨hlib, screen_alive oneRiddle hlib Prefs.empty _ ?_⟩
  intro t ht
  refine ⟨fun _ _ _ _ => ?_, fun _ _ => ⟨fun _ _ h => (by cases h), trivial⟩⟩
  decide +kernel

/-- **The last riddle answered, the screen opened again**: the batch is empty, and so is the board, for good. -/
theorem dead_screen_oneRiddle :
    ∃ t, Machine.run (step oneRiddle) (start Prefs.empty)
        [.draw 0 [0, 0, 1], .loaded 0, .onOption 0, .restart, .draw 0 [], .loaded 0] = some t ∧
      t.crashed = none ∧ t.data.loads = [] ∧ t.data.enableViews = true ∧ t.data.endDialogs = 0 ∧ ¬ t.data.Alive := by
  have hrun : (Machine.run (step oneRiddle) (start Prefs.empty)
      [.draw 0 [0, 0, 1], .loaded 0, .onOption 0, .restart, .draw 0 [], .loaded 0]).map
        (fun s => (s.crashed, s.data)) = some (none, QuestionData.fresh) := by
    decide +kernel
  obtain ⟨t, ht, hval⟩ := Option.map_eq_some_iff.1 hrun
  obtain ⟨hc, hd⟩ := Prod.mk.injEq _ _ _ _ ▸ hval
  refine ⟨t, ht, hc, ?_, ?_, ?_, ?_⟩ <;> rw [hd]
  · rfl
  · rfl
  · rfl
  · rintro (⟨h, -⟩ | h | h) <;> exact absurd h (by decide)

end Quiz
end Riddles
