import GoRiddles.Machine
import GoRiddles.QuestionData
import GoRiddles.Tips
/-!
# Quiz — the quiz as one machine

The view model, the player's store, the tips dialogs on screen and the ad flows, moved by what can happen to them: a
load's draw on the I/O thread and its completion on the main thread, the buttons the layout enables, the dialogs, the
delayed jobs, the ad callbacks, and a restart of the screen, which cancels the view model's coroutines and keeps the
store.  An uncaught exception ends the process: nothing but a restart follows it.  `Quiz.log` records what was credited,
charged and revealed.
-/
namespace Riddles

/-- What the log records. -/
inductive Entry where
  /-- The reward branch of `onOption`, on the question with this text, with this increase. -/
  | paid (text : Option Text) (increase : Int)
  /-- `rewardSceneAdShowCallback.onAdReward`. -/
  | adReward
  /-- A tip revealed on a free opportunity. -/
  | freeTip
  /-- A tip revealed for coins. -/
  | paidTip (price : Int)
  deriving DecidableEq, Repr

structure Quiz where
  data        : QuestionData
  usr         : Usr
  tips        : List ViewTipsData
  coinDialogs : Nat
  rewardAds   : Nat
  crashed     : Option Thrown
  log         : List Entry

namespace Quiz

inductive Event where
  /-- Load `k` reads the repository with these draws. -/
  | draw (k : Nat) (draws : List Nat)
  /-- Load `k` resumes on the main thread. -/
  | loaded (k : Nat)
  | onOption (index : Nat)
  /-- Next is pressed; the time scene has a cached ad or not. -/
  | onNextQuestion (cached : Bool)
  | onPreQuestion
  /-- An end dialog's two buttons. -/
  | generateNewQuestions
  | closeEndDialog
  | stayElapsed
  | guideElapsed
  | dismissGuide
  /-- A time-scene show is over: dismissed, failed or refused. -/
  | timeAdCompleted (cached : Bool)
  | openCoinDialog
  | closeCoinDialog
  /-- The coin dialog's ad button; the reward scene has a cached ad or not. -/
  | watchRewardAd (cached : Bool)
  | adReward
  | rewardAdCompleted
  | openTips
  /-- `onViewTips(index)` on dialog `k`. -/
  | viewTips (k : Nat) (index : Int)
  | restart
  deriving DecidableEq, Repr

def crash (s : Quiz) (e : Thrown) : Quiz := { s with crashed := some e }

/-- The screen opens on a store: a new view model, whose `init` reads the level's icon. -/
def opened (usr : Usr) (log : List Entry) : Quiz :=
  let s : Quiz := { data := QuestionData.fresh.initQuestionLib, usr := usr, tips := [], coinDialogs := 0, rewardAds := 0,
                    crashed := none, log := log }
  match checkLevelValue usr.getLevel with
  | .error e => s.crash e
  | .ok _ => s

/-- The first screen of the process. -/
def start (sp : Prefs) : Quiz := opened ⟨sp, []⟩ []

/-- `increase` of `onOption`. -/
def increase (u : Usr) : Int := if 1 ≤ u.getLevel ∧ u.getLevel ≤ 5 then 5 else 10

/-- `mQuestions.getOrNull(mQuestionIndex)?.setAnswered()`. -/
def flagged (s : Quiz) : Usr :=
  match s.data.question? with
  | none => s.usr
  | some q => { s.usr with sp := setAnswered s.usr.sp q }

/-- The reward branch of `onOption` up to `increaseExperience`. -/
def credited (s : Quiz) : Quiz :=
  { s with
    data := { s.data with mUsrRightedCount := s.data.mUsrRightedCount + 1 }
    usr := s.flagged.increaseCoin (increase s.flagged)
    log := s.log ++ [.paid (s.data.question?.map MQuestion.text) (increase s.flagged)] }

/-- The reward branch of `onOption`. -/
def reward (s : Quiz) : Quiz :=
  match s.credited.usr.increaseExperience (increase s.flagged) with
  | .error e => s.credited.crash e
  | .ok usr => { s.credited with usr := usr }

def onOption (s : Quiz) (index : Int) : Quiz :=
  let s' := { s with data := s.data.choose index }
  if s'.data.rightOptionIndex = index then s'.reward else s'

/-- `QuestionActivity.showRewardAd`. -/
def showRewardAd (s : Quiz) (cached : Bool) : Quiz :=
  if cached then { s with data := { s.data with enableViews := false }, rewardAds := s.rewardAds + 1 }
  else { s with data := { s.data with enableViews := true } }

/-- `QuestionData.onViewTips` and the dialog it opens. -/
def onViewTips (s : Quiz) : Quiz :=
  let s' := { s with data := s.data.cancelTipsGuideJob }
  match s.data.question? with
  | none => s'
  | some q =>
    match ViewTipsData.init s.usr q with
    | .error e => s'.crash e
    | .ok t => { s' with tips := s.tips ++ [t] }

/-- One call of a dialog's `onViewTips`. -/
def viewTips (s : Quiz) (k : Nat) (t : ViewTipsData) (index : Int) : Quiz :=
  match t.onViewTips s.usr index with
  | .error e => s.crash e
  | .ok (t', usr, .free) => { s with tips := s.tips.set k t', usr := usr, log := s.log ++ [.freeTip] }
  | .ok (t', usr, .paid price) => { s with tips := s.tips.set k t', usr := usr, log := s.log ++ [.paidTip price] }
  | .ok (t', usr, .refused) => { s with tips := s.tips.set k t', usr := usr, coinDialogs := s.coinDialogs + 1 }

/-- What an event does on a live screen, `none` when the screen does not offer it. -/
def act (lib : Library) (s : Quiz) : Event → Option Quiz
  | .draw k draws =>
    match s.data.loads[k]? with
    | some .launched =>
      match listQuestionsByUsrLevel lib s.usr.sp s.usr.getLevel draws with
      | .error e => some (s.crash e)
      | .ok none => none
      | .ok (some qs) => some { s with data := { s.data with loads := s.data.loads.set k (.drawn qs) } }
    | _ => none
  | .loaded k =>
    match s.data.loads[k]? with
    | some (.drawn qs) =>
      some { s with data := { s.data with loads := s.data.loads.eraseIdx k }.questionsLoaded qs }
    | _ => none
  | .onOption index => if s.data.optionEnabled then some (s.onOption index) else none
  | .onNextQuestion cached => if s.data.nextEnabled then some { s with data := s.data.onNextQuestion cached } else none
  | .onPreQuestion => if s.data.preEnabled then some { s with data := s.data.onPreQuestion } else none
  | .generateNewQuestions =>
    if 0 < s.data.endDialogs then
      some { s with data := { s.data with endDialogs := s.data.endDialogs - 1 }.generateNewQuestions }
    else none
  | .closeEndDialog =>
    if 0 < s.data.endDialogs then some { s with data := { s.data with endDialogs := s.data.endDialogs - 1 } } else none
  | .stayElapsed => if s.data.mStayDurationJob then some { s with data := s.data.stayDurationElapsed } else none
  | .guideElapsed => if s.data.mStartTipsGuideJob then some { s with data := s.data.tipsGuideElapsed } else none
  | .dismissGuide =>
    if s.data.guideViewTips && s.data.enableViews then some { s with data := s.data.onDismissGuideTips } else none
  | .timeAdCompleted cached =>
    if 0 < s.data.timeSceneAds then
      some { s with data := { s.data with timeSceneAds := s.data.timeSceneAds - 1 }.timeSceneAdCompleted cached }
    else none
  | .openCoinDialog => if s.data.enableViews then some { s with coinDialogs := s.coinDialogs + 1 } else none
  | .closeCoinDialog => if 0 < s.coinDialogs then some { s with coinDialogs := s.coinDialogs - 1 } else none
  | .watchRewardAd cached =>
    if 0 < s.coinDialogs then some ({ s with coinDialogs := s.coinDialogs - 1 }.showRewardAd cached) else none
  | .adReward =>
    if 0 < s.rewardAds then
      some { s with data := { s.data with enableViews := true }, usr := s.usr.increaseCoin 40, log := s.log ++ [.adReward] }
    else none
  | .rewardAdCompleted =>
    if 0 < s.rewardAds then some { s with data := { s.data with enableViews := true }, rewardAds := s.rewardAds - 1 }
    else none
  | .openTips => if s.data.enableViews then some s.onViewTips else none
  | .viewTips k index =>
    match s.tips[k]? with
    | none => none
    | some t => if t.usrTipsOptionedIndex < 0 then some (s.viewTips k t index) else none
  | .restart => some (opened s.usr s.log)

def step (lib : Library) (s : Quiz) (e : Event) : Option Quiz :=
  match s.crashed with
  | none => s.act lib e
  | some _ => if e = .restart then some (opened s.usr s.log) else none

end Quiz
end Riddles
