import GoRiddles.QuizRecords
import GoRiddles.QuizLedger
/-!
# QuizPay — is a riddle paid once?

A batch leaves out the riddles that are flagged when it is drawn, and a flag is set when an answer is paid, later.  In
between, a text can be on the board twice: from two entries of one file, or from two loads in flight.  Where neither
happens (every file has distinct texts, and a load is launched only when none is in flight) a text is paid at most once.
-/
namespace Riddles

/-- The texts of the riddles paid for, in order. -/
def paidTexts (log : List Entry) : List Text :=
  log.filterMap (fun e => match e with | .paid text _ => text | _ => none)

@[simp] theorem paidTexts_append (l l' : List Entry) : paidTexts (l ++ l') = paidTexts l ++ paidTexts l' := by
  simp [paidTexts]

/-- A file without two entries of one text. -/
def Library.Distinct (lib : Library) : Prop :=
  (lib.level1To5.map MQuestion.text).Nodup ∧ (lib.level6To10.map MQuestion.text).Nodup

/-! ## Flags -/

@[simp] theorem isAnswered_update (u : Usr) (a : Attr) (v : Int) (c : AttrChange) (q : MQuestion) :
    isAnswered (u.update a v c).sp q = isAnswered u.sp q := by
  rw [Usr.sp_update, isAnswered_setAttr]

theorem isAnswered_increaseExperience {u v : Usr} {exp : Int} (h : u.increaseExperience exp = .ok v) (q : MQuestion) :
    isAnswered v.sp q = isAnswered u.sp q := by
  rcases Usr.sp_increaseExperience h with hsp | ⟨e, hsp⟩ | ⟨level, e, hsp⟩
  · rw [hsp]
  · rw [hsp, isAnswered_setAttr]
  · rw [hsp, isAnswered_setAttr, isAnswered_setAttr]

/-! ## A batch -/

theorem texts_of_shuffled : ∀ {qs qs' : List MQuestion}, List.Forall₂ Shuffled qs qs' →
    qs'.map MQuestion.text = qs.map MQuestion.text
  | _, _, .nil => rfl
  | _, _, .cons h hs => by
    rw [List.map_cons, List.map_cons, h.text, texts_of_shuffled hs]

/-- **The texts of a batch**: pairwise distinct if the file's are, and none of them flagged. -/
theorem batch_texts {lib : Library} (hlib : lib.Distinct) {p : Prefs} {level : Int} {draws : List Nat}
    {qs : List MQuestion} (h : listQuestionsByUsrLevel lib p level draws = .ok (some qs)) :
    (qs.map MQuestion.text).Nodup ∧ ∀ q ∈ qs, isAnswered p q = false := by
  obtain ⟨picked, hsub, -, hshuf⟩ := listQuestionsByUsrLevel_spec h
  have htexts := texts_of_shuffled hshuf
  have hfile : ((lib.ofLevel level).map MQuestion.text).Nodup := by
    unfold Library.ofLevel
    split
    · exact hlib.1
    · exact hlib.2
  constructor
  · rw [htexts]
    have hna : ((lib.notAnswered p level).map MQuestion.text).Nodup :=
      hfile.sublist (List.filter_sublist.map _)
    obtain ⟨l, hperm, hsubl⟩ := hsub
    exact ((hperm.map MQuestion.text).nodup_iff).1 (hna.sublist (hsubl.map _))
  · intro q hq
    have hmem : q.text ∈ picked.map MQuestion.text := by
      rw [← htexts]
      exact List.mem_map_of_mem hq
    obtain ⟨q₀, hq₀, heq⟩ := List.mem_map.1 hmem
    have hnot := (List.mem_filter.1 (hsub.subset hq₀)).2
    rw [isAnswered_congr p heq.symm]
    exact Bool.not_eq_true' _ ▸ hnot

namespace Quiz

variable {lib : Library} {s t : Quiz} {e : Event} {b : Board}

/-- **A flag once set stays set**, whatever is stored besides. -/
theorem isAnswered_step (q : MQuestion) (h : isAnswered s.usr.sp q = true) (hs : step lib s e = some t) :
    isAnswered t.usr.sp q = true := by
  have hflag : isAnswered s.flagged.sp q = true := by
    unfold flagged
    split
    · exact h
    · rename_i q' _
      show isAnswered (setAnswered s.usr.sp q') q = true
      rw [isAnswered_setAnswered, h, Bool.or_true]
  cases turn_of_step hs with
  | idle _ _ kept | draw _ _ _ _ _ _ _ _ kept | loaded _ _ _ _ _ kept | wrong _ _ _ _ _ kept | go _ _ _ kept
  | launch _ _ _ _ kept | reset _ _ _ kept =>
    rw [kept.usr]
    exact h
  | right c u _ _ _ _ rewarded =>
    have hu : isAnswered u.sp q = true := by
      rw [rewarded.coin]
      exact (isAnswered_update _ _ _ _ q).trans hflag
    rcases rewarded.exp with ⟨hok, -⟩ | ⟨x, -, husr, -⟩
    · rw [isAnswered_increaseExperience hok, hu]
    · rw [husr, hu]
  | adReward _ _ usr | freeTip _ _ _ _ _ _ _ usr | paidTip _ _ _ _ _ _ _ usr =>
    rw [usr]
    exact (isAnswered_update _ _ _ _ q).trans h
  | openTips _ _ _ _ _ _ usr =>
    rw [usr]
    exact h
  | restart _ restarted =>
    rw [restarted, usr_opened]
    exact h

theorem Rewarded.isAnswered {u : Usr} (h : Rewarded s t u) {q q' : MQuestion} (hq : s.data.question? = some q)
    (htext : q'.text = q.text) : isAnswered t.usr.sp q' = true := by
  have hu : Riddles.isAnswered u.sp q' = true := by
    rw [h.coin]
    refine (isAnswered_update _ _ _ _ q').trans ?_
    unfold flagged
    rw [hq]
    show Riddles.isAnswered (setAnswered s.usr.sp q) q' = true
    rw [isAnswered_setAnswered, htext, decide_eq_true rfl, Bool.true_or]
  rcases h.exp with ⟨hok, -⟩ | ⟨x, -, husr, -⟩
  · rw [isAnswered_increaseExperience hok, hu]
  · rw [husr, hu]

/-! ## The invariant -/

/-- A load is launched only when none is in flight. -/
def SoleLoad (s : Quiz) (e : Event) : Prop := s.launches e = true → s.data.loads = []

instance (s : Quiz) (e : Event) : Decidable (SoleLoad s e) :=
  inferInstanceAs (Decidable (s.launches e = true → s.data.loads = []))

/-- The riddles on the board that can still be paid: none of them has been, and no two have one text. -/
structure Unpaid (b : Board) (paid : List Text) : Prop where
  fresh : ∀ i q, b.questions[i]? = some q → b.choice i = none → q.text ∉ paid
  apart : ∀ i j q q', b.questions[i]? = some q → b.questions[j]? = some q' → b.choice i = none → b.choice j = none →
    q.text = q'.text → i = j

/-- A load in flight is the only one, every riddle on the board is answered, and its batch can be paid. -/
def Waiting (b : Board) (paid : List Text) (loads : List Load) : Prop :=
  loads = [] ∨ ∃ load, loads = [load] ∧ (∀ i, i < b.questions.length → b.choice i ≠ none) ∧
    ∀ qs, load = .drawn qs → (qs.map MQuestion.text).Nodup ∧ ∀ q ∈ qs, q.text ∉ paid

structure PaidOnce (s : Quiz) (b : Board) : Prop where
  shows   : s.data.Shows b
  flags   : ∀ q : MQuestion, q.text ∈ paidTexts s.log → isAnswered s.usr.sp q = true
  once    : (paidTexts s.log).Nodup
  unpaid  : Unpaid b (paidTexts s.log)
  waiting : Waiting b (paidTexts s.log) s.data.loads

theorem unpaid_empty (paid : List Text) : Unpaid Board.empty paid where
  fresh i q hq := by cases hq
  apart i j q q' hq := by cases hq

theorem waiting_launched (paid : List Text) (hfull : ∀ i, i < b.questions.length → b.choice i ≠ none) :
    Waiting b paid [.launched] :=
  .inr ⟨_, rfl, hfull, fun _ h => by cases h⟩

/-- The batch of the only load goes on a board without open riddles. -/
theorem unpaid_load {paid : List Text} {qs : List MQuestion} (hfull : ∀ i, i < b.questions.length → b.choice i ≠ none)
    (hnodup : (qs.map MQuestion.text).Nodup) (hfresh : ∀ q ∈ qs, q.text ∉ paid) : Unpaid (b.load qs) paid := by
  have hnew : ∀ i q, (b.questions ++ qs)[i]? = some q → b.choice i = none →
      b.questions.length ≤ i ∧ qs[i - b.questions.length]? = some q := by
    intro i q hq hnone
    have hge : b.questions.length ≤ i := Nat.not_lt.1 (fun hlt => hfull i hlt hnone)
    rw [List.getElem?_append_right hge] at hq
    exact ⟨hge, hq⟩
  refine ⟨fun i q hq hnone => ?_, fun i j q q' hq hq' hi hj htext => ?_⟩
  · exact hfresh q (List.mem_of_getElem? (hnew i q hq hnone).2)
  · obtain ⟨hi', hq⟩ := hnew i q hq hi
    obtain ⟨hj', hq'⟩ := hnew j q' hq' hj
    have h₁ : (qs.map MQuestion.text)[i - b.questions.length]? = some q.text := by rw [List.getElem?_map, hq]; rfl
    have h₂ : (qs.map MQuestion.text)[j - b.questions.length]? = some q.text := by
      rw [List.getElem?_map, hq', htext]
      rfl
    have hlt := (List.getElem?_eq_some_iff.1 h₁).1
    have heq := (List.getElem?_inj hlt hnodup).1 (h₁.trans h₂.symm)
    omega

theorem choose_eq_none {c i k : Nat} (hpos : b.pos = some i) (h : (b.choose c).choice k = none) :
    k ≠ i ∧ b.choice k = none := by
  have hk : (if b.pos = some k then some c else b.choice k) = none := h
  split at hk
  · cases hk
  · rename_i hne
    refine ⟨fun hki => hne ?_, hk⟩
    rw [hki, hpos]

theorem unpaid_choose {paid : List Text} {c i : Nat} (hpos : b.pos = some i) (h : Unpaid b paid) :
    Unpaid (b.choose c) paid where
  fresh k q hq hk := h.fresh k q hq (choose_eq_none hpos hk).2
  apart j k q q' hq hq' hj hk := h.apart j k q q' hq hq' (choose_eq_none hpos hj).2 (choose_eq_none hpos hk).2

/-- A riddle paid closes the only open position with its text. -/
theorem unpaid_pay {paid : List Text} {c i : Nat} {q : MQuestion} (hpos : b.pos = some i) (hq : b.questions[i]? = some q)
    (hnone : b.choice i = none) (h : Unpaid b paid) : Unpaid (b.choose c) (paid ++ [q.text]) := by
  refine ⟨fun k q' hq' hk hmem => ?_, (unpaid_choose hpos h).apart⟩
  obtain ⟨hne, hk⟩ := choose_eq_none hpos hk
  rcases List.mem_append.1 hmem with hmem | hmem
  · exact h.fresh k q' hq' hk hmem
  · exact hne (h.apart k i q' q hq' hq hk hnone (List.mem_singleton.1 hmem))

theorem Waiting.idle {paid : List Text} {loads : List Load} {i : Nat} (h : Waiting b paid loads) (hpos : b.pos = some i)
    (hnone : b.choice i = none) : loads = [] := by
  rcases h with h | ⟨_, _, hfull, _⟩
  · exact h
  · exact absurd hnone (hfull i (b.pos_lt i hpos))

/-- A step that pays nothing. -/
theorem PaidOnce.keeps {b' : Board} (h : PaidOnce s b) (hs : step lib s e = some t) (hshows : t.data.Shows b')
    (hlog : paidTexts t.log = paidTexts s.log) (hunpaid : Unpaid b' (paidTexts s.log))
    (hwait : Waiting b' (paidTexts s.log) t.data.loads) : PaidOnce t b' := by
  refine ⟨hshows, fun q hq => ?_, ?_, ?_, ?_⟩
  · rw [hlog] at hq
    exact isAnswered_step q (h.flags q hq) hs
  · rw [hlog]
    exact h.once
  · rw [hlog]
    exact hunpaid
  · rw [hlog]
    exact hwait

theorem PaidOnce.quiet {b' : Board} (h : PaidOnce s b) (hs : step lib s e = some t) (hshows : t.data.Shows b')
    (hlog : paidTexts t.log = paidTexts s.log) (hloads : t.data.loads = s.data.loads)
    (hunpaid : Unpaid b' (paidTexts s.log)) (hwait : Waiting b' (paidTexts s.log) s.data.loads) : PaidOnce t b' := by
  refine h.keeps hs hshows hlog hunpaid ?_
  rw [hloads]
  exact hwait

/-- The only load draws a batch of riddles without a flag, of which none was paid. -/
theorem PaidOnce.waiting_draw {k : Nat} {draws : List Nat} {qs : List MQuestion} (hlib : lib.Distinct) (h : PaidOnce s b)
    (launched : s.data.loads[k]? = some .launched)
    (drawn : listQuestionsByUsrLevel lib s.usr.sp s.usr.getLevel draws = .ok (some qs)) :
    Waiting b (paidTexts s.log) (s.data.loads.set k (.drawn qs)) := by
  obtain ⟨hnodup, hfresh⟩ := batch_texts hlib drawn
  rcases h.waiting with hnil | ⟨load, hone, hfull, -⟩
  · rw [hnil] at launched
    cases launched
  · rw [hone] at launched ⊢
    cases k with
    | succ k => cases launched
    | zero =>
      refine .inr ⟨_, rfl, hfull, fun qs' hqs' => ?_⟩
      cases hqs'
      refine ⟨hnodup, fun q hq hmem => ?_⟩
      have hflag := h.flags q hmem
      rw [hfresh q hq] at hflag
      cases hflag

theorem paidTexts_of_log (h : t.log = s.log) : paidTexts t.log = paidTexts s.log := by rw [h]

theorem paidOnce_step (hlib : lib.Distinct) (h : PaidOnce s b) (hsole : SoleLoad s e) (hs : step lib s e = some t) :
    ∃ b', PaidOnce t b' := by
  cases turn_of_step hs with
  | idle plays loads kept =>
    exact ⟨b, h.quiet hs (plays b h.shows) (paidTexts_of_log kept.log) loads h.unpaid h.waiting⟩
  | openTips _ _ _ _ plays loads _ log =>
    exact ⟨b, h.quiet hs (plays b h.shows) (paidTexts_of_log log) loads h.unpaid h.waiting⟩
  | adReward plays loads _ log =>
    exact ⟨b, h.quiet hs (plays b h.shows) (by rw [log, paidTexts_append]; exact List.append_nil _) loads h.unpaid h.waiting⟩
  | freeTip _ _ _ _ _ _ data _ log | paidTip _ _ _ _ _ _ data _ log =>
    refine ⟨b, h.quiet hs (by rw [data]; exact h.shows) ?_ (by rw [data]) h.unpaid h.waiting⟩
    rw [log, paidTexts_append]
    exact List.append_nil _
  | go i plays loads kept =>
    refine ⟨_, h.quiet hs (plays b h.shows) (paidTexts_of_log kept.log) loads ?_ h.waiting⟩
    exact ⟨h.unpaid.fresh, h.unpaid.apart⟩
  | wrong c free _ plays loads kept =>
    obtain ⟨i, q, j, hpos, -, -, hnone, -⟩ := h.shows.of_unanswered free
    refine ⟨_, h.quiet hs (plays b h.shows) (paidTexts_of_log kept.log) loads (unpaid_choose hpos h.unpaid) ?_⟩
    exact .inl (h.waiting.idle hpos hnone)
  | right c u free _ plays loads rewarded =>
    obtain ⟨i, q, j, hpos, hq, -, hnone, -⟩ := h.shows.of_unanswered free
    have hcur : s.data.question? = some q := by
      rw [h.shows.question?, Board.current, hpos]
      exact hq
    have hlog : paidTexts t.log = paidTexts s.log ++ [q.text] := by
      rw [rewarded.log, paidTexts_append, hcur]
      rfl
    refine ⟨_, plays b h.shows, fun q' hq' => ?_, ?_, ?_, ?_⟩
    · rw [hlog] at hq'
      rcases List.mem_append.1 hq' with hq' | hq'
      · exact isAnswered_step q' (h.flags q' hq') hs
      · exact rewarded.isAnswered hcur (List.mem_singleton.1 hq')
    · rw [hlog]
      refine List.Nodup.append h.once (List.nodup_singleton _) (fun x hx hx' => ?_)
      rw [List.mem_singleton.1 hx'] at hx
      exact h.unpaid.fresh i q hq hnone hx
    · rw [hlog]
      exact unpaid_pay hpos hq hnone h.unpaid
    · rw [loads]
      exact .inl (h.waiting.idle hpos hnone)
  | draw k draws qs _ launched drawn plays loads kept =>
    refine ⟨b, h.keeps hs (plays b h.shows) (paidTexts_of_log kept.log) h.unpaid ?_⟩
    rw [loads]
    exact h.waiting_draw hlib launched drawn
  | loaded k qs drawn plays loads kept =>
    rcases h.waiting with hnil | ⟨load, hone, hfull, hbatch⟩
    · rw [hnil] at drawn
      cases drawn
    · rw [hone] at drawn
      cases k with
      | succ k => cases drawn
      | zero =>
        obtain ⟨hnodup, hfresh⟩ := hbatch qs (Option.some.inj drawn)
        refine ⟨_, h.keeps hs (plays b h.shows) (paidTexts_of_log kept.log) (unpaid_load hfull hnodup hfresh) ?_⟩
        rw [loads, hone]
        exact .inl rfl
  | launch launches full plays loads kept =>
    refine ⟨b, h.keeps hs (plays b h.shows) (paidTexts_of_log kept.log) h.unpaid ?_⟩
    rw [loads, hsole launches, List.nil_append]
    refine waiting_launched _ (fun i hi hnone => ?_)
    rw [h.shows.questions, h.shows.righted] at full
    obtain ⟨c, hc, -⟩ := (b.mem_rightly i).1 (b.mem_rightly_of_length_le (Int.ofNat_le.1 full) hi)
    rw [hnone] at hc
    cases hc
  | reset launches shows loads kept =>
    refine ⟨_, h.keeps hs shows (paidTexts_of_log kept.log) (unpaid_empty _) ?_⟩
    rw [loads, hsole launches, List.nil_append]
    exact waiting_launched _ (fun i hi => absurd hi (Nat.not_lt_zero i))
  | restart _ restarted =>
    subst restarted
    refine ⟨_, h.keeps hs (shows_opened _ _) (paidTexts_of_log (log_opened _ _)) (unpaid_empty _) ?_⟩
    rw [data_opened]
    exact waiting_launched _ (fun i hi => absurd hi (Nat.not_lt_zero i))

theorem paidOnce_start (sp : Prefs) : PaidOnce (start sp) Board.empty := by
  unfold start
  refine ⟨shows_opened _ _, ?_, ?_, unpaid_empty _, ?_⟩
  · rw [log_opened]
    intro q hq
    cases hq
  · rw [log_opened]
    exact List.nodup_nil
  · rw [data_opened]
    exact waiting_launched _ (fun i hi => absurd hi (Nat.not_lt_zero i))

/-- **A riddle is paid at most once**, from any store, in every run over files of distinct texts that launches a load
only when none is in flight. -/
theorem paid_at_most_once (lib : Library) (hlib : lib.Distinct) (sp : Prefs) (es : List Event)
    (hsole : Machine.along (step lib) (fun s e _ => SoleLoad s e) (start sp) es) :
    Machine.always (step lib) (fun s => ∀ text, (paidTexts s.log).count text ≤ 1) (start sp) es := by
  have hinv : Machine.always (step lib) (fun s => ∃ b, PaidOnce s b) (start sp) es := by
    refine Machine.always_of_along (fun s e t hs hq hstep => ?_) es _ ⟨_, paidOnce_start sp⟩ hsole
    obtain ⟨b, hb⟩ := hs
    exact paidOnce_step hlib hb hq hstep
  refine Machine.always_mono (fun s hs text => ?_) es _ hinv
  obtain ⟨b, hb⟩ := hs
  exact List.nodup_iff_count_le_one.1 hb.once text

/-- One riddle, drawn, loaded and answered, and the load of the next batch. -/
theorem paid_at_most_once_oneRiddle :
    oneRiddle.Distinct ∧
    Machine.always (step oneRiddle) (fun s => ∀ text, (paidTexts s.log).count text ≤ 1) (start Prefs.empty)
      [.draw 0 [0, 0, 1], .loaded 0, .onOption 0, .onNextQuestion false, .draw 0 [], .loaded 0] := by
  have hlib : oneRiddle.Distinct := ⟨List.nodup_singleton _, List.nodup_nil⟩
  exact ⟨hlib, paid_at_most_once oneRiddle hlib Prefs.empty _ (by decide +kernel)⟩

/-- A file that tells one riddle twice. -/
def toldTwice : Library where
  level1To5  := oneRiddle.level1To5 ++ oneRiddle.level1To5
  level6To10 := []

/-- **A file with two entries of one text pays it twice**: one batch holds both, and both are answered. -/
theorem paid_twice_toldTwice :
    (∀ q ∈ toldTwice.level1To5 ++ toldTwice.level6To10, ∃ o ∈ q.options, o.isAnswer = true) ∧
    (Machine.run (step toldTwice) (start Prefs.empty)
      [.draw 0 [0, 1, 0, 1, 0, 1], .loaded 0, .onOption 0, .onNextQuestion false, .onOption 0]).map
        (fun s => ((paidTexts s.log).count "What has keys?".toList, s.usr.getCoinCount)) = some (2, 10) := by
  constructor
  · decide
  · decide +kernel

-- two end dialogs, each asking for new riddles: two loads in flight draw the same one, from a file of distinct texts
example : (Machine.run (step oneRiddle) (start Prefs.empty)
    [.draw 0 [0, 0, 1], .loaded 0, .onOption 1, .onNextQuestion false, .onNextQuestion false, .generateNewQuestions,
      .generateNewQuestions, .draw 0 [0, 0, 1], .draw 1 [0, 0, 1], .loaded 0, .loaded 0, .onOption 0, .onPreQuestion,
      .onOption 0]).map (fun s => (paidTexts s.log).count "What has keys?".toList) = some 2 := by
  decide +kernel

end Quiz
end Riddles
