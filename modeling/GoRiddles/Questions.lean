import GoRiddles.Usr
import GoRiddles.RandomSubList
/-!
# Questions — the riddles, their answered flags and how a batch is drawn

`question.kt`, `QuestionUtils.kt` and `LocalQuestionsRepository.kt`.  The two asset files are a `Library`.  A batch is
drawn from the level's file, without the entries whose text is flagged as answered, and every drawn question has its
options shuffled.
-/
namespace Riddles

structure MOption where
  text     : Text
  isAnswer : Bool
  deriving DecidableEq, Repr

structure MQuestion where
  text        : Text
  options     : List MOption
  explanation : Text
  deriving DecidableEq, Repr

/-- The parsed asset files `questions_level_1_5.json` and `questions_level_6_10.json`. -/
structure Library where
  level1To5  : List MQuestion
  level6To10 : List MQuestion

/-! ## The answered flags -/

/-- The flag's key: the text's hash code in decimal. -/
def answeredKey (text : Text) : Text := intToString (hashCode text)

def isAnswered (p : Prefs) (q : MQuestion) : Bool := readBooleanFromCache p (answeredKey q.text)

def setAnswered (p : Prefs) (q : MQuestion) : Prefs := writeBooleanToCache p (answeredKey q.text) true

/-- **No flag is an attribute**: an attribute's key has an underscore, a number does not. -/
theorem attrKey_ne_answeredKey (a : Attr) (text : Text) : a.key ≠ answeredKey text := by
  intro h
  have hm := a.underscore_mem_key
  rw [h] at hm
  exact underscore_not_mem_intToString (hashCode text) hm

@[simp] theorem attr_setAnswered (p : Prefs) (q : MQuestion) (a : Attr) : (setAnswered p q).attr a = p.attr a :=
  readInt_writeBoolean_of_ne p (attrKey_ne_answeredKey a q.text) true a.dflt

@[simp] theorem isAnswered_setAttr (p : Prefs) (q : MQuestion) (a : Attr) (v : Int) :
    isAnswered (p.setAttr a v) q = isAnswered p q :=
  readBoolean_writeInt_of_ne p (attrKey_ne_answeredKey a q.text).symm v

theorem isAnswered_setAnswered (p : Prefs) (q q' : MQuestion) :
    isAnswered (setAnswered p q) q' = (decide (answeredKey q'.text = answeredKey q.text) || isAnswered p q') := by
  unfold isAnswered setAnswered
  rw [readBoolean_writeBoolean]
  by_cases h : answeredKey q'.text = answeredKey q.text <;> simp [h]

theorem isAnswered_congr (p : Prefs) {q q' : MQuestion} (h : q.text = q'.text) : isAnswered p q = isAnswered p q' := by
  unfold isAnswered
  rw [h]

/-! ## A batch -/

/-- The file a level draws from. -/
def Library.ofLevel (lib : Library) (level : Int) : List MQuestion :=
  if level ≤ 5 then lib.level1To5 else lib.level6To10

/-- How many questions a level asks for. -/
def batchSize (level : Int) : Int := if level ≤ 5 then 50 else 25

/-- The entries of a level's file whose flag is not set. -/
def Library.notAnswered (lib : Library) (p : Prefs) (level : Int) : List MQuestion :=
  (lib.ofLevel level).filter (fun q => !isAnswered p q)

/-- `map { it.copy(options = it.options.randomSubList(it.options.size)) }`, the draws threaded through. -/
def shuffleOptions : List MQuestion → List Nat → Option (List MQuestion)
  | [], _ => some []
  | q :: qs, draws =>
    match randomSubList q.options q.options.length draws with
    | none => none
    | some (options, rest) => (shuffleOptions qs rest).map (fun qs' => { q with options := options } :: qs')

/-- `listQuestionsByUsrLevel`; the inner `none` is a draw that has not come to an end. -/
def listQuestionsByUsrLevel (lib : Library) (p : Prefs) (usrLevel : Int) (draws : List Nat) :
    Except Thrown (Option (List MQuestion)) :=
  match checkLevelValue usrLevel with
  | .error e => .error e
  | .ok level =>
    match randomSubList (lib.notAnswered p level) (batchSize level) draws with
    | none => .ok none
    | some (picked, rest) => .ok (shuffleOptions picked rest)

/-- `q'` is `q` with its options in another order. -/
structure Shuffled (q q' : MQuestion) : Prop where
  text        : q'.text = q.text
  explanation : q'.explanation = q.explanation
  options     : q'.options.Perm q.options

theorem shuffleOptions_spec : ∀ (qs : List MQuestion) (draws : List Nat) (qs' : List MQuestion),
    shuffleOptions qs draws = some qs' → List.Forall₂ Shuffled qs qs'
  | [], _, qs', h => by
    cases h
    exact .nil
  | q :: qs, draws, qs', h => by
    unfold shuffleOptions at h
    split at h
    · cases h
    · rename_i options rest hopt
      obtain ⟨tail, htail, rfl⟩ := Option.map_eq_some_iff.1 h
      exact .cons ⟨rfl, rfl, randomSubList_perm hopt⟩ (shuffleOptions_spec qs rest tail htail)

/-- The level's check and the choice of the entries, apart from the shuffle of each. -/
theorem listQuestionsByUsrLevel_ok {lib : Library} {p : Prefs} {usrLevel : Int} {draws : List Nat}
    {qs : List MQuestion} (h : listQuestionsByUsrLevel lib p usrLevel draws = .ok (some qs)) :
    ∃ picked rest, randomSubList (lib.notAnswered p usrLevel) (batchSize usrLevel) draws = some (picked, rest) ∧
      List.Forall₂ Shuffled picked qs := by
  unfold listQuestionsByUsrLevel at h
  split at h
  · cases h
  · rename_i level hlevel
    obtain ⟨-, -, rfl⟩ := checkLevelValue_ok hlevel
    split at h
    · cases h
    · rename_i picked rest hpick
      exact ⟨picked, rest, hpick, shuffleOptions_spec _ _ _ (by simpa using h)⟩

theorem batchSize_nonneg (level : Int) : 0 ≤ batchSize level := by
  unfold batchSize
  split <;> decide

/-- **What a batch is**: part of the level's entries not answered, as many as the level asks for, each with its options
in some order. -/
theorem listQuestionsByUsrLevel_spec {lib : Library} {p : Prefs} {usrLevel : Int} {draws : List Nat}
    {qs : List MQuestion} (h : listQuestionsByUsrLevel lib p usrLevel draws = .ok (some qs)) :
    ∃ picked : List MQuestion, picked.Subperm (lib.notAnswered p usrLevel) ∧
      (picked.length : Int) = min (batchSize usrLevel) (lib.notAnswered p usrLevel).length ∧
      List.Forall₂ Shuffled picked qs := by
  obtain ⟨picked, rest, hpick, hshuf⟩ := listQuestionsByUsrLevel_ok h
  obtain ⟨hsub, hlen⟩ := randomSubList_spec hpick
  have hsize := batchSize_nonneg usrLevel
  refine ⟨picked, hsub, ?_, hshuf⟩
  omega

theorem Shuffled.countP {q q' : MQuestion} (h : Shuffled q q') :
    q'.options.countP (fun o => o.isAnswer) = q.options.countP (fun o => o.isAnswer) := h.options.countP_eq _

end Riddles
