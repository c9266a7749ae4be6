import GoRiddles.Questions
/-!
# QuestionData — the quiz screen's view model

`QuestionData.kt`, without the player's attributes: the questions loaded so far, the position, what the layout reads
(`rightOptionIndex`, `usrOptionIndex`, `questionSortNum`, `enableViews`), the record of choices, the coroutines in
flight, and the end dialogs and time-scene ads it has asked for.  A method is a function of the whole record.  The
enable conditions are those of `activity_question.xml`.
-/
namespace Riddles

/-- A choice made; compared by identity in the source, so a set of them can hold two for one question. -/
structure OptionRecord where
  questionDataIndex : Int
  optionIndex       : Int
  deriving DecidableEq, Repr

/-- A coroutine of `initQuestionLib`: still in the repository, or back on the main thread's queue with its batch. -/
inductive Load where
  | launched
  | drawn (questions : List MQuestion)
  deriving DecidableEq, Repr

structure QuestionData where
  mQuestions              : List MQuestion
  mQuestionIndex          : Int
  questionSortNum         : Int
  curQuestion             : Option MQuestion
  rightOptionIndex        : Int
  usrOptionIndex          : Int
  mUsrOptionedIndexRecord : List OptionRecord
  mUsrRightedCount        : Int
  guideViewTips           : Bool
  mStartTipsGuideJob      : Bool
  mStayDurationJob        : Bool
  mCanShowNextAd          : Bool
  enableViews             : Bool
  /-- `showQuestionEndDialog`: the end dialogs on screen. -/
  endDialogs              : Nat
  /-- `showTimeSceneAd`: the shows not yet completed. -/
  timeSceneAds            : Nat
  loads                   : List Load
  deriving DecidableEq, Repr

namespace QuestionData

/-- The property initialisers; the setter that couples `questionSortNum` to the index does not run in one. -/
def fresh : QuestionData where
  mQuestions              := []
  mQuestionIndex          := -1
  questionSortNum         := 1
  curQuestion             := none
  rightOptionIndex        := -1
  usrOptionIndex          := -2
  mUsrOptionedIndexRecord := []
  mUsrRightedCount        := 0
  guideViewTips           := false
  mStartTipsGuideJob      := false
  mStayDurationJob        := false
  mCanShowNextAd          := false
  enableViews             := true
  endDialogs              := 0
  timeSceneAds            := 0
  loads                   := []

/-! ## What the layout enables -/

def optionEnabled (d : QuestionData) : Bool := d.usrOptionIndex == -1 && d.enableViews

def nextEnabled (d : QuestionData) : Bool := decide (d.usrOptionIndex ≥ 0) && d.enableViews

def preEnabled (d : QuestionData) : Bool := (decide (d.usrOptionIndex ≥ 0) || decide (d.questionSortNum > 1)) && d.enableViews

/-! ## The methods -/

def onDismissGuideTips (d : QuestionData) : QuestionData := { d with guideViewTips := false }

def cancelTipsGuideJob (d : QuestionData) : QuestionData := { d.onDismissGuideTips with mStartTipsGuideJob := false }

def startTipsGuideJob (d : QuestionData) : QuestionData := { d with mStartTipsGuideJob := true }

/-- The body of the guide's job once its delay is over. -/
def tipsGuideElapsed (d : QuestionData) : QuestionData := { d.cancelTipsGuideJob with guideViewTips := true }

def cancelStayDurationJob (d : QuestionData) : QuestionData := { d with mCanShowNextAd := false, mStayDurationJob := false }

def startStayDurationJob (d : QuestionData) : QuestionData := { d.cancelStayDurationJob with mStayDurationJob := true }

/-- The body of the stay job once its delay is over. -/
def stayDurationElapsed (d : QuestionData) : QuestionData := { d with mCanShowNextAd := true, mStayDurationJob := false }

/-- The setter of `mQuestionIndex`. -/
def setQuestionIndex (d : QuestionData) (value : Int) : QuestionData :=
  { d with mQuestionIndex := value, questionSortNum := value + 1 }

def usrOptioned (d : QuestionData) (questionDataIndex : Int) : Option OptionRecord :=
  d.mUsrOptionedIndexRecord.find? (fun r => r.questionDataIndex == questionDataIndex)

/-- `usrOptionedRecord?.optionIndex ?: -1`. -/
def shownOption (record : Option OptionRecord) : Int := (record.map OptionRecord.optionIndex).getD (-1)

/-- The `forEachIndexed` of `changeQuestion` over the pair (`rightOptionIndex`, `usrOptionIndex`).  Its labelled return
leaves one turn, not the loop, so the last answer option is the one that stays. -/
def scanOptions (shown : Int) : Nat → List MOption → Int × Int → Int × Int
  | _, [], acc => acc
  | index, o :: os, acc => scanOptions shown (index + 1) os (if o.isAnswer then (index, shown) else acc)

/-- `changeQuestion`; an index past the end returns, and no caller passes a negative one. -/
def changeQuestion (d : QuestionData) (questionDataIndex : Nat) : QuestionData :=
  match d.mQuestions[questionDataIndex]? with
  | none => d
  | some question =>
    let usrOptionedRecord := d.usrOptioned questionDataIndex
    let shown := scanOptions (shownOption usrOptionedRecord) 0 question.options (-1, -2)
    let d' := { d.cancelTipsGuideJob.setQuestionIndex questionDataIndex with
      curQuestion := some question, rightOptionIndex := shown.1, usrOptionIndex := shown.2 }
    if usrOptionedRecord.isNone then d'.startTipsGuideJob else d'

/-- `initQuestionLib` up to its suspension. -/
def initQuestionLib (d : QuestionData) : QuestionData := { d with loads := d.loads ++ [.launched] }

/-- `initQuestionLib` from its resumption on. -/
def questionsLoaded (d : QuestionData) (questions : List MQuestion) : QuestionData :=
  let d' := { d with mQuestions := d.mQuestions ++ questions }
  if d'.mQuestions.isEmpty then d'
  else (d'.changeQuestion (d'.mQuestionIndex + 1).toNat).startStayDurationJob

def resetUi (d : QuestionData) : QuestionData :=
  { ({ d with mQuestions := [] }.setQuestionIndex (-1)).cancelTipsGuideJob.cancelStayDurationJob with
    mUsrOptionedIndexRecord := [], mUsrRightedCount := 0, curQuestion := none, rightOptionIndex := -1,
    usrOptionIndex := -2, guideViewTips := false }

def generateNewQuestions (d : QuestionData) : QuestionData := d.resetUi.initQuestionLib

/-- `onNextQuestion`; `cached` says whether `SceneAdsApi.resultTime()` has an ad. -/
def onNextQuestion (d : QuestionData) (cached : Bool) : QuestionData :=
  if d.mCanShowNextAd && cached then { d with enableViews := false, timeSceneAds := d.timeSceneAds + 1 }
  else if d.mQuestionIndex + 1 > (d.mQuestions.length : Int) - 1 then
    if d.mUsrRightedCount < d.mQuestions.length then { d with endDialogs := d.endDialogs + 1 }
    else d.initQuestionLib
  else d.changeQuestion (d.mQuestionIndex + 1).toNat

def onPreQuestion (d : QuestionData) : QuestionData :=
  if d.mQuestionIndex - 1 < 0 then d else d.changeQuestion (d.mQuestionIndex - 1).toNat

/-- `timeSceneAdShowCallback.onAdShowCompleted`. -/
def timeSceneAdCompleted (d : QuestionData) (cached : Bool) : QuestionData :=
  { (d.onNextQuestion cached).startStayDurationJob with enableViews := true }

/-- `onOption` up to the check of the choice. -/
def choose (d : QuestionData) (index : Int) : QuestionData :=
  { d.cancelTipsGuideJob with
    usrOptionIndex := index, mUsrOptionedIndexRecord := d.mUsrOptionedIndexRecord ++ [⟨d.mQuestionIndex, index⟩] }

/-- `mQuestions.getOrNull(mQuestionIndex)`. -/
def question? (d : QuestionData) : Option MQuestion :=
  if d.mQuestionIndex < 0 then none else d.mQuestions[d.mQuestionIndex.toNat]?

end QuestionData
end Riddles
