import GoRiddles.AdMoves
import GoRiddles.Quiz
/-!
# NextAd — one press of Next and the ad it may bring

`onNextQuestion` may hand a cached ad to the activity's observer, the observer shows it, and the callback of the show calls
`onNextQuestion` again: when the show is refused, inside the observer.  `NextFlow` is such a press with what the main thread
has still to run (`code`), the observer's `LiveData` and the ad the SDK owes a report on.  A value set inside the observer is
delivered when it returns.  The SDK reports in its own time, at once included, and a load it was asked for is answered only
when the main thread has nothing to run.  While the ad is on screen, a batch of riddles asked for before may land: it goes to
the following question itself, and the callback of the ad goes on from there.
-/
namespace Riddles

/-- `QuestionActivity`, its view model and the ad module, with the main thread idle. -/
structure QuestionScreen where
  data       : QuestionData
  ads        : Ads
  isOnResume : Bool

inductive NextFlow.Call where
  | onNextQuestion
  | startStayDurationJob
  | loadTime
  /-- `enableViews.value = true`. -/
  | enableViews
  /-- The observer of `showTimeSceneAd`. -/
  | showTimeSceneAd (result : AdObject)
  /-- The observer has returned. -/
  | notified
  deriving DecidableEq, Repr

/-- Load `k` can come back with this batch: it is still in the repository, or waits with it for the main thread. -/
def QuestionData.brings (d : QuestionData) (k : Nat) (questions : List MQuestion) : Bool :=
  match d.loads[k]? with
  | some .launched    => true
  | some (.drawn qs)  => decide (qs = questions)
  | none              => false

structure NextFlow extends QuestionScreen where
  code        : List NextFlow.Call
  /-- `showTimeSceneAd` is calling its observer. -/
  dispatching : Bool
  /-- The value set meanwhile. -/
  deferred    : Option AdObject
  waiting     : Option Showing
  attempted   : Bool

def QuestionScreen.press (s : QuestionScreen) : NextFlow :=
  { s with code := [.onNextQuestion], dispatching := false, deferred := none, waiting := none, attempted := false }

namespace NextFlow

def loadTime (s : NextFlow) : NextFlow := { s with ads := s.ads.load .timeScene }

def resultTime (s : NextFlow) : Option AdObject := (s.ads.scene .timeScene).sceneData.data

def setShowTimeSceneAd (s : NextFlow) (result : AdObject) : NextFlow :=
  if s.dispatching then { s with deferred := some result }
  else { s with dispatching := true, code := .showTimeSceneAd result :: .notified :: s.code }

/-- What is left of `showTimeSceneAd.value = …` after the observer: a value set meanwhile is delivered now. -/
def notified (s : NextFlow) : NextFlow :=
  match s.deferred with
  | some result => { s with deferred := none, code := .showTimeSceneAd result :: .notified :: s.code }
  | none        => { s with dispatching := false }

def nextQuestion (s : NextFlow) : NextFlow :=
  { s.loadTime with data := s.data.onNextQuestion s.loadTime.resultTime.isSome }

/-- The ad `onNextQuestion` has for the observer. -/
def timeSceneResult (s : NextFlow) : Option AdObject := if s.data.mCanShowNextAd then s.loadTime.resultTime else none

/-- `onNextQuestion`; nothing comes after `showTimeSceneAd` is set. -/
def onNextQuestion (s : NextFlow) : NextFlow :=
  match s.timeSceneResult with
  | some result => s.nextQuestion.setShowTimeSceneAd result
  | none        => s.nextQuestion

def callback : List Call := [.onNextQuestion, .startStayDurationJob, .loadTime, .enableViews]

def onAdShowCompleted (s : NextFlow) : NextFlow :=
  { s with data := { s.data with timeSceneAds := s.data.timeSceneAds - 1 }, code := callback ++ s.code }

/-- `SceneAdsApi.showTime` with `timeSceneAdShowCallback`. -/
def showTime (s : NextFlow) (result : AdObject) : NextFlow :=
  let s' := { s with ads := s.ads.showAd .timeScene result s.isOnResume [] [], attempted := true }
  if s.ads.refuses result s.isOnResume then s'.onAdShowCompleted
  else { s' with waiting := some ⟨s.ads.calls, .timeScene, result, [], []⟩ }

def exec (s : NextFlow) : Call → NextFlow
  | .onNextQuestion         => s.onNextQuestion
  | .startStayDurationJob   => { s with data := s.data.startStayDurationJob }
  | .loadTime               => s.loadTime
  | .enableViews            => { s with data := { s.data with enableViews := true } }
  | .showTimeSceneAd result => s.showTime result
  | .notified               => s.notified

inductive Event where
  | next
  /-- The ad of this press is dismissed, or failed to show. -/
  | report
  /-- The ad module goes on while the ad of this press is on screen. -/
  | ads (e : Ads.Event)
  | tick (ms : Nat)
  | lifecycle (isOnResume : Bool)
  | stayElapsed
  | guideElapsed
  /-- Load `k` of the view model resumes on the main thread with its batch. -/
  | loaded (k : Nat) (questions : List MQuestion)

/-- The batches of riddles that landed. -/
def batches (es : List Event) : List (List MQuestion) :=
  es.filterMap (fun e => match e with | .loaded _ questions => some questions | _ => none)

/-- The events that carry the press on. -/
def Event.isMove : Event → Bool
  | .next | .report => true
  | _               => false

/-- The main thread is idle, and the SDK owes the report. -/
def onScreen (s : NextFlow) : Bool := s.code.isEmpty && s.waiting.isSome

/-- The press and the ad flow it started, if any, have finished. -/
def isOver (s : NextFlow) : Bool := s.code.isEmpty && s.waiting.isNone

/-- The report on the ad of this press, which is the event `report` here. -/
def isReport (s : NextFlow) : Ads.Event → Bool
  | .report call => s.waiting.any (fun r => r.call == call)
  | _            => false

def step (s : NextFlow) : Event → Option NextFlow
  | .next =>
    match s.code with
    | []           => none
    | call :: code => some ({ s with code := code }.exec call)
  | .report => s.waiting.map (fun r => { s with waiting := none, ads := s.ads.onAdComplete r }.onAdShowCompleted)
  | .ads e => if s.onScreen && !s.isReport e then (s.ads.step e).map (fun ads => { s with ads := ads }) else none
  | .tick ms => some { s with ads := { s.ads with now := s.ads.now + ms } }
  | .lifecycle isOnResume => if s.onScreen then some { s with isOnResume := isOnResume } else none
  | .stayElapsed =>
    if s.onScreen && s.data.mStayDurationJob then some { s with data := s.data.stayDurationElapsed } else none
  | .guideElapsed =>
    if s.onScreen && s.data.mStartTipsGuideJob then some { s with data := s.data.tipsGuideElapsed } else none
  | .loaded k questions =>
    if s.onScreen && s.data.brings k questions then
      some { s with data := { s.data with loads := s.data.loads.eraseIdx k }.questionsLoaded questions }
    else none

/-- **The callback is one step of the quiz**: its four calls do to the view model what `timeSceneAdCompleted` does. -/
theorem data_callback (s : NextFlow) :
    (callback.foldl exec s).data = s.data.timeSceneAdCompleted s.loadTime.resultTime.isSome := by
  have hnext : s.onNextQuestion.data = s.nextQuestion.data := by
    unfold onNextQuestion setShowTimeSceneAd
    cases s.timeSceneResult with
    | none => rfl
    | some result => cases s.nextQuestion.dispatching <;> rfl
  simp only [callback, List.foldl_cons, List.foldl_nil, exec, hnext]
  rfl

end NextFlow

/-! ## The view model and the cache -/

namespace QuestionData

def HasNext (d : QuestionData) : Prop := 0 ≤ d.mQuestionIndex + 1 ∧ d.mQuestionIndex + 1 < d.mQuestions.length

instance decidableHasNext (d : QuestionData) : Decidable d.HasNext := inferInstanceAs (Decidable (_ ∧ _))

theorem enableViews_changeQuestion (d : QuestionData) (k : Nat) : (d.changeQuestion k).enableViews = d.enableViews := by
  unfold changeQuestion
  cases d.mQuestions[k]? with
  | none => rfl
  | some q => cases h : (d.usrOptioned k).isNone <;> simp only [h] <;> rfl

@[simp] theorem mQuestions_changeQuestion (d : QuestionData) (k : Nat) : (d.changeQuestion k).mQuestions = d.mQuestions := by
  unfold changeQuestion
  cases d.mQuestions[k]? with
  | none => rfl
  | some q => cases h : (d.usrOptioned k).isNone <;> simp only [h] <;> rfl

theorem mQuestionIndex_changeQuestion (d : QuestionData) (k : Nat) :
    (d.changeQuestion k).mQuestionIndex = if k < d.mQuestions.length then (k : Int) else d.mQuestionIndex := by
  unfold changeQuestion
  by_cases hk : k < d.mQuestions.length
  · rw [List.getElem?_eq_getElem hk, if_pos hk]
    cases h : (d.usrOptioned k).isNone <;> simp [h, startTipsGuideJob, setQuestionIndex]
  · rw [List.getElem?_eq_none (Nat.le_of_not_lt hk), if_neg hk]

/-- The position after the one on screen, if there is one. -/
def following (d : QuestionData) : Int :=
  if d.mQuestionIndex + 1 < d.mQuestions.length then d.mQuestionIndex + 1 else d.mQuestionIndex

theorem changeQuestion_follows {d : QuestionData} (hpos : 0 ≤ d.mQuestionIndex + 1) :
    (d.changeQuestion (d.mQuestionIndex + 1).toNat).mQuestionIndex = d.following := by
  rw [mQuestionIndex_changeQuestion, following]
  split <;> split <;> omega

/-- **With no ad to show, Next goes to the following question**, and stays at the last one. -/
theorem onNextQuestion_goes {d : QuestionData} {cached : Bool} (hpos : 0 ≤ d.mQuestionIndex + 1)
    (hcached : d.mCanShowNextAd = true → cached = false) :
    (d.onNextQuestion cached).mQuestionIndex = d.following ∧ (d.onNextQuestion cached).enableViews = d.enableViews := by
  have hno : ¬ (d.mCanShowNextAd && cached) = true := by
    intro h
    rw [Bool.and_eq_true] at h
    rw [hcached h.1] at h
    cases h.2
  rw [onNextQuestion, if_neg hno]
  by_cases hend : d.mQuestionIndex + 1 > (d.mQuestions.length : Int) - 1
  · have hlast : d.following = d.mQuestionIndex := if_neg (by omega)
    rw [if_pos hend, hlast]
    split <;> exact ⟨rfl, rfl⟩
  · rw [if_neg hend]
    exact ⟨changeQuestion_follows hpos, enableViews_changeQuestion d _⟩

/-- **A batch that lands goes to the following question** of the list it makes longer. -/
theorem questionsLoaded_goes {d : QuestionData} (qs : List MQuestion) (hpos : 0 ≤ d.mQuestionIndex + 1) :
    (d.questionsLoaded qs).mQuestions = d.mQuestions ++ qs ∧
      (d.questionsLoaded qs).mQuestionIndex =
        if d.mQuestionIndex + 1 < (d.mQuestions.length + qs.length : Nat) then d.mQuestionIndex + 1
        else d.mQuestionIndex := by
  have hfollows := changeQuestion_follows (d := { d with mQuestions := d.mQuestions ++ qs }) hpos
  simp only [following, List.length_append] at hfollows
  unfold questionsLoaded
  simp only
  split
  · rename_i hempty
    have hnil : d.mQuestions ++ qs = [] := List.isEmpty_iff.1 hempty
    rw [← List.length_append, hnil, if_neg (by simpa using hpos)]
    exact ⟨rfl, rfl⟩
  · exact ⟨mQuestions_changeQuestion _ _, hfollows⟩

end QuestionData

/-- A load never fills the cache of the time scene by itself. -/
theorem Ads.load_time_data {a : Ads} (hdata : (a.scene .timeScene).sceneData.data = none) :
    ((a.load .timeScene).scene .timeScene).sceneData.data = none := by
  have hstarted : ∀ s : Scene, s.sceneData.data = none → ∀ s', s.started a.now = some s' → s'.sceneData.data = none := by
    intro s hs s' hs'
    simp only [Scene.started, hs, Option.isSome_none, Bool.false_eq_true, if_false] at hs'
    split at hs'
    · cases hs'
    · cases hs'
      exact hs
  rw [load, setScene_same, Scene.loadInternal_eq]
  cases hs' : (a.scene .timeScene).started a.now with
  | none => exact hdata
  | some s' =>
    have hdata' := hstarted _ hdata s' hs'
    rcases Scene.loadLoop_spec s' 1 (listOption a.config .timeScene) with ⟨hloop, -⟩ | ⟨o, rest, -, hloop⟩
    · simp only [hloop, Option.getD_none, Scene.loadFailed, reduceCtorEq, false_and, if_false]
      exact hdata'
    · simp only [hloop, Option.getD_some]
      exact hdata'

/-! ## The phases of a press -/

namespace NextFlow

variable {d₀ : QuestionData} {s t : NextFlow} {k : Nat}

def Call.isTail : Call → Bool
  | .startStayDurationJob | .loadTime | .enableViews => true
  | _                                                => false

/-- The screen is still on the question Next was pressed at. -/
def Before (d₀ : QuestionData) (s : NextFlow) : Prop :=
  s.data.mQuestionIndex = d₀.mQuestionIndex ∧ s.data.mQuestions = d₀.mQuestions

/-- What may be left to run around a callback. -/
def Around (code : List Call) : Prop := code = [] ∨ code = [.notified]

structure Pressed (d₀ : QuestionData) (s : NextFlow) : Prop where
  before      : Before d₀ s
  code        : s.code = [.onNextQuestion]
  dispatching : s.dispatching = false
  deferred    : s.deferred = none
  waiting     : s.waiting = none
  attempted   : s.attempted = false
  views       : s.data.enableViews = true

/-- An ad goes to the observer: for the first time, or after the callback of a refused show has restarted the stay. -/
structure Delivering (d₀ : QuestionData) (result : AdObject) (s : NextFlow) : Prop where
  before      : Before d₀ s
  code        : s.code = [.showTimeSceneAd result, .notified]
  dispatching : s.dispatching = true
  deferred    : s.deferred = none
  waiting     : s.waiting = none

/-- The first show was refused; the callback may find the ad again. -/
structure Refused (d₀ : QuestionData) (s : NextFlow) : Prop where
  before      : Before d₀ s
  code        : s.code = callback ++ [.notified]
  dispatching : s.dispatching = true
  deferred    : s.deferred = none
  waiting     : s.waiting = none

/-- The callback found it, and it waits for the observer to return. -/
structure Again (d₀ : QuestionData) (rest : List Call) (result : AdObject) (s : NextFlow) : Prop where
  before      : Before d₀ s
  code        : s.code = rest ++ [.notified]
  tail        : ∀ c ∈ rest, c.isTail = true
  stay        : .startStayDurationJob ∈ rest ∨ s.data.mCanShowNextAd = false
  dispatching : s.dispatching = true
  deferred    : s.deferred = some result
  waiting     : s.waiting = none

structure Awaiting (d₀ : QuestionData) (r : Showing) (s : NextFlow) : Prop where
  before      : Before d₀ s
  around      : Around s.code
  scene       : r.scene = .timeScene
  deferred    : s.deferred = none
  waiting     : s.waiting = some r

structure Last (d₀ : QuestionData) (rest : List Call) (s : NextFlow) : Prop where
  before      : Before d₀ s
  around      : Around rest
  code        : s.code = callback ++ rest
  nothing     : s.data.mCanShowNextAd = true → s.resultTime = none
  deferred    : s.deferred = none
  waiting     : s.waiting = none

/-- The following question is on screen, and `code` has what is left to settle. -/
structure Moved (d₀ : QuestionData) (s : NextFlow) : Prop where
  index       : s.data.mQuestionIndex = d₀.following
  code        : ∀ c ∈ s.code, c.isTail = true ∨ c = .notified
  stay        : .startStayDurationJob ∈ s.code ∨ s.attempted = false ∨ s.data.mCanShowNextAd = false
  views       : .enableViews ∈ s.code ∨ s.data.enableViews = true
  deferred    : s.deferred = none
  waiting     : s.waiting = none

/-- **The phases of a press**, each with a bound on the moves that are left. -/
inductive Phase (d₀ : QuestionData) (s : NextFlow) : Nat → Prop
  | pressed (h : Pressed d₀ s) : Phase d₀ s 14
  | delivering {result : AdObject} (h : Delivering d₀ result s) : Phase d₀ s (if s.data.mCanShowNextAd then 13 else 7)
  | refused (h : Refused d₀ s) : Phase d₀ s 12
  | again {rest : List Call} {result : AdObject} (h : Again d₀ rest result s) : Phase d₀ s (rest.length + 8)
  | awaiting {r : Showing} (h : Awaiting d₀ r s) : Phase d₀ s (s.code.length + 5)
  | last {rest : List Call} (h : Last d₀ rest s) : Phase d₀ s s.code.length
  | moved (h : Moved d₀ s) : Phase d₀ s s.code.length

structure Outside (s t : NextFlow) : Prop where
  code        : t.code = s.code
  dispatching : t.dispatching = s.dispatching
  deferred    : t.deferred = s.deferred
  waiting     : t.waiting = s.waiting
  attempted   : t.attempted = s.attempted
  index       : t.data.mQuestionIndex = s.data.mQuestionIndex
  questions   : t.data.mQuestions = s.data.mQuestions
  /-- With no ad on screen only time passes. -/
  still       : s.waiting = none → t.data = s.data ∧ t.ads.scene = s.ads.scene

/-- While the ad is on screen, what changes is the ad module, the activity's life and the view model's timers. -/
theorem outside_onScreen (hon : s.onScreen = true) {data : QuestionData} {ads : Ads} {isOnResume : Bool}
    (hindex : data.mQuestionIndex = s.data.mQuestionIndex) (hquestions : data.mQuestions = s.data.mQuestions) :
    Outside s { s with data := data, ads := ads, isOnResume := isOnResume } := by
  refine ⟨rfl, rfl, rfl, rfl, rfl, hindex, hquestions, fun hwaiting => ?_⟩
  simp [onScreen, hwaiting] at hon

theorem outside_of_step {e : Event} (he : e.isMove = false) (hload : ∀ k qs, e ≠ .loaded k qs) (hstep : s.step e = some t) :
    Outside s t := by
  cases e with
  | next => cases he
  | report => cases he
  | loaded k qs => exact absurd rfl (hload k qs)
  | ads e =>
    simp only [step, Option.ite_none_right_eq_some, Bool.and_eq_true, Option.map_eq_some_iff] at hstep
    obtain ⟨⟨hon, -⟩, a, -, rfl⟩ := hstep
    exact outside_onScreen hon rfl rfl
  | tick ms =>
    simp only [step, Option.some.injEq] at hstep
    subst hstep
    exact ⟨rfl, rfl, rfl, rfl, rfl, rfl, rfl, fun _ => ⟨rfl, rfl⟩⟩
  | lifecycle isOnResume =>
    simp only [step, Option.ite_none_right_eq_some, Option.some.injEq] at hstep
    obtain ⟨hon, rfl⟩ := hstep
    exact outside_onScreen hon rfl rfl
  | stayElapsed =>
    simp only [step, Option.ite_none_right_eq_some, Bool.and_eq_true, Option.some.injEq] at hstep
    obtain ⟨⟨hon, -⟩, rfl⟩ := hstep
    exact outside_onScreen hon rfl rfl
  | guideElapsed =>
    simp only [step, Option.ite_none_right_eq_some, Bool.and_eq_true, Option.some.injEq] at hstep
    obtain ⟨⟨hon, -⟩, rfl⟩ := hstep
    exact outside_onScreen hon rfl rfl

theorem Outside.before (ho : Outside s t) (h : Before d₀ s) : Before d₀ t :=
  ⟨ho.index.trans h.1, ho.questions.trans h.2⟩

theorem Phase.outside (h : Phase d₀ s k) (ho : Outside s t) : Phase d₀ t k := by
  cases h with
  | pressed h =>
    have hviews := h.views
    rw [← (ho.still h.waiting).1] at hviews
    exact .pressed ⟨ho.before h.before, ho.code.trans h.code, ho.dispatching.trans h.dispatching,
      ho.deferred.trans h.deferred, ho.waiting.trans h.waiting, ho.attempted.trans h.attempted, hviews⟩
  | delivering h =>
    rw [← (ho.still h.waiting).1]
    exact .delivering ⟨ho.before h.before, ho.code.trans h.code, ho.dispatching.trans h.dispatching,
      ho.deferred.trans h.deferred, ho.waiting.trans h.waiting⟩
  | refused h =>
    exact .refused ⟨ho.before h.before, ho.code.trans h.code, ho.dispatching.trans h.dispatching,
      ho.deferred.trans h.deferred, ho.waiting.trans h.waiting⟩
  | again h =>
    have hstay := h.stay
    rw [← (ho.still h.waiting).1] at hstay
    exact .again ⟨ho.before h.before, ho.code.trans h.code, h.tail, hstay, ho.dispatching.trans h.dispatching,
      ho.deferred.trans h.deferred, ho.waiting.trans h.waiting⟩
  | awaiting h =>
    have haround := h.around
    rw [← ho.code] at haround ⊢
    exact .awaiting ⟨ho.before h.before, haround, h.scene, ho.deferred.trans h.deferred, ho.waiting.trans h.waiting⟩
  | last h =>
    obtain ⟨hdata, hscenes⟩ := ho.still h.waiting
    have hnothing := h.nothing
    rw [resultTime, ← hdata, ← hscenes] at hnothing
    rw [← ho.code]
    exact .last ⟨ho.before h.before, h.around, ho.code.trans h.code, hnothing, ho.deferred.trans h.deferred,
      ho.waiting.trans h.waiting⟩
  | moved h =>
    obtain ⟨hindex, hcode, hstay, hviews, hdeferred, hwaiting⟩ := h
    obtain ⟨hdata, -⟩ := ho.still hwaiting
    rw [← ho.code] at hcode hstay hviews ⊢
    rw [← hdata] at hindex hstay hviews
    rw [← ho.attempted] at hstay
    exact .moved ⟨hindex, hcode, hstay, hviews, ho.deferred.trans hdeferred, ho.waiting.trans hwaiting⟩

theorem step_next {call : Call} {code : List Call} (hcode : s.code = call :: code) :
    s.step .next = some ({ s with code := code }.exec call) := by
  simp only [step, hcode]

theorem resultTime_loadTime (hnone : s.resultTime = none) : s.loadTime.resultTime = none := Ads.load_time_data hnone

/-- **`onNextQuestion` either has an ad for the observer or goes to the following question.** -/
theorem onNextQuestion_cases (hpos : 0 ≤ d₀.mQuestionIndex + 1) (hbefore : Before d₀ s) :
    (∃ result, s.data.mCanShowNextAd = true ∧ s.loadTime.resultTime = some result ∧ Before d₀ s.nextQuestion ∧
        s.nextQuestion.data.mCanShowNextAd = true ∧ s.onNextQuestion = s.nextQuestion.setShowTimeSceneAd result) ∨
      (s.onNextQuestion = s.nextQuestion ∧ s.nextQuestion.data.mQuestionIndex = d₀.following ∧
        s.nextQuestion.data.enableViews = s.data.enableViews) := by
  obtain ⟨hindex, hquestions⟩ := hbefore
  have hfollowing : s.data.following = d₀.following := by
    rw [QuestionData.following, hindex, hquestions, QuestionData.following]
  unfold onNextQuestion
  cases hresult : s.timeSceneResult with
  | some result =>
    left
    simp only [timeSceneResult, Option.ite_none_right_eq_some] at hresult
    obtain ⟨hcan, hresult⟩ := hresult
    have hdata : s.nextQuestion.data =
        { s.data with enableViews := false, timeSceneAds := s.data.timeSceneAds + 1 } := by
      simp [nextQuestion, QuestionData.onNextQuestion, hcan, hresult]
    refine ⟨result, hcan, hresult, ?_, ?_, rfl⟩
    · rw [Before, hdata]
      exact ⟨hindex, hquestions⟩
    · rw [hdata]
      exact hcan
  | none =>
    right
    have hcached : s.data.mCanShowNextAd = true → s.loadTime.resultTime.isSome = false := by
      intro hcan
      simp only [timeSceneResult, hcan, if_true] at hresult
      simp [hresult]
    obtain ⟨hgoes, hviews⟩ := QuestionData.onNextQuestion_goes (by rw [hindex]; exact hpos) hcached
    exact ⟨rfl, hgoes.trans hfollowing, hviews⟩

/-! ## One move -/

theorem Pressed.next (hpos : 0 ≤ d₀.mQuestionIndex + 1) (h : Pressed d₀ s) (hstep : s.step .next = some t) :
    ∃ k, k < 14 ∧ Phase d₀ t k := by
  rw [step_next h.code, Option.some.injEq, exec] at hstep
  subst hstep
  rcases onNextQuestion_cases (s := { s with code := [] }) hpos h.before with
    ⟨result, -, -, hbefore, hcan, hset⟩ | ⟨hgoes, hindex, hviews⟩
  · rw [hset, setShowTimeSceneAd, if_neg (by simp [nextQuestion, loadTime, h.dispatching])]
    exact ⟨_, by simp [hcan], .delivering ⟨hbefore, rfl, rfl, h.deferred, h.waiting⟩⟩
  · rw [hgoes]
    refine ⟨0, by omega, .moved ⟨hindex, ?_, Or.inr (Or.inl h.attempted), Or.inr (hviews.trans h.views), h.deferred,
      h.waiting⟩⟩
    intro c hc
    cases hc

theorem Delivering.next {result : AdObject} (h : Delivering d₀ result s) (hstep : s.step .next = some t) :
    ∃ k, k < (if s.data.mCanShowNextAd then 13 else 7) ∧ Phase d₀ t k := by
  rw [step_next h.code, Option.some.injEq, exec, showTime] at hstep
  cases hrefuses : s.ads.refuses result s.isOnResume with
  | true =>
    simp only [hrefuses, if_true] at hstep
    subst hstep
    cases hcan : s.data.mCanShowNextAd with
    | true => exact ⟨12, by simp, .refused ⟨h.before, rfl, h.dispatching, h.deferred, h.waiting⟩⟩
    | false =>
      refine ⟨5, by simp, .last ⟨h.before, Or.inr rfl, rfl, ?_, h.deferred, h.waiting⟩⟩
      intro hcan'
      exact absurd (hcan.symm.trans hcan') Bool.false_ne_true
  | false =>
    simp only [hrefuses, Bool.false_eq_true, if_false] at hstep
    subst hstep
    exact ⟨6, by split <;> omega, .awaiting ⟨h.before, Or.inr rfl, rfl, h.deferred, rfl⟩⟩

def afterNext (code : List Call) : List Call := .startStayDurationJob :: .loadTime :: .enableViews :: code

theorem moved_callback {code : List Call} (haround : Around code) (hindex : s.data.mQuestionIndex = d₀.following)
    (hcode : s.code = afterNext code) (hdeferred : s.deferred = none) (hwaiting : s.waiting = none) : Moved d₀ s := by
  refine ⟨hindex, ?_, Or.inl (by simp [hcode, afterNext]), Or.inl (by simp [hcode, afterNext]), hdeferred, hwaiting⟩
  rcases haround with rfl | rfl <;> simp [hcode, afterNext, Call.isTail]

theorem Refused.next (hpos : 0 ≤ d₀.mQuestionIndex + 1) (h : Refused d₀ s) (hstep : s.step .next = some t) :
    ∃ k, k < 12 ∧ Phase d₀ t k := by
  have hcode : s.code = .onNextQuestion :: afterNext [.notified] := h.code
  rw [step_next hcode, Option.some.injEq, exec] at hstep
  subst hstep
  rcases onNextQuestion_cases (s := { s with code := afterNext [.notified] }) hpos h.before with
    ⟨result, -, -, hbefore, -, hset⟩ | ⟨hgoes, hindex, -⟩
  · rw [hset, setShowTimeSceneAd, if_pos (by simp [nextQuestion, loadTime, h.dispatching])]
    refine ⟨11, by omega, @Phase.again _ _ (afterNext []) result ?_⟩
    exact ⟨hbefore, rfl, by simp [afterNext, Call.isTail], by simp [afterNext], h.dispatching, rfl, h.waiting⟩
  · rw [hgoes]
    exact ⟨4, by omega, .moved (moved_callback (Or.inr rfl) hindex rfl h.deferred h.waiting)⟩

theorem Last.next {rest : List Call} (hpos : 0 ≤ d₀.mQuestionIndex + 1) (h : Last d₀ rest s) (hstep : s.step .next = some t) :
    ∃ k, k < s.code.length ∧ Phase d₀ t k := by
  have hcode : s.code = .onNextQuestion :: afterNext rest := h.code
  rw [step_next hcode, Option.some.injEq, exec] at hstep
  subst hstep
  rcases onNextQuestion_cases (s := { s with code := afterNext rest }) hpos h.before with
    ⟨result, hcan, hresult, -⟩ | ⟨hgoes, hindex, -⟩
  · have hnone := resultTime_loadTime (h.nothing hcan)
    exact absurd (hnone.symm.trans hresult) (by simp)
  · rw [hgoes]
    refine ⟨_, ?_, .moved (moved_callback h.around hindex rfl h.deferred h.waiting)⟩
    rw [hcode]
    exact Nat.lt_succ_self _

theorem Awaiting.next {r : Showing} (h : Awaiting d₀ r s) (hstep : s.step .next = some t) :
    ∃ k, k < s.code.length + 5 ∧ Phase d₀ t k := by
  rcases h.around with hcode | hcode
  · simp [step, hcode] at hstep
  · rw [step_next hcode, Option.some.injEq, exec, notified] at hstep
    simp only [h.deferred] at hstep
    subst hstep
    exact ⟨5, by simp [hcode], .awaiting ⟨h.before, Or.inl rfl, h.scene, rfl, h.waiting⟩⟩

/-- **The report**: the cache of the scene is cleared before the callback, so the callback finds no ad. -/
theorem Awaiting.report {r : Showing} (h : Awaiting d₀ r s) (hstep : s.step .report = some t) :
    ∃ k, k < s.code.length + 5 ∧ Phase d₀ t k := by
  simp only [step, h.waiting, Option.map_some, Option.some.injEq] at hstep
  subst hstep
  refine ⟨_, ?_, .last ⟨h.before, h.around, rfl, ?_, h.deferred, rfl⟩⟩
  · simp [onAdShowCompleted, callback]
  · intro _
    simp [resultTime, onAdShowCompleted, Ads.onAdComplete, Ads.onAdShowCompleted, h.scene, Ads.setScene_same,
      Scene.clearSceneData]

theorem Again.next {rest : List Call} {result : AdObject} (h : Again d₀ rest result s) (hstep : s.step .next = some t) :
    ∃ k, k < rest.length + 8 ∧ Phase d₀ t k := by
  obtain ⟨hbefore, hcode, htail, hstay, hdispatching, hdeferred, hwaiting⟩ := h
  cases rest with
  | nil =>
    -- the stay was restarted, so the next callback finds nothing to show
    have hcan : s.data.mCanShowNextAd = false := hstay.resolve_left (by simp)
    rw [step_next hcode, Option.some.injEq, exec, notified] at hstep
    simp only [hdeferred] at hstep
    subst hstep
    exact ⟨_, by simp [hcan], .delivering ⟨hbefore, rfl, hdispatching, rfl, hwaiting⟩⟩
  | cons c rest =>
    have htail' : ∀ c ∈ rest, c.isTail = true := fun c hc => htail c (List.mem_cons_of_mem _ hc)
    rw [List.cons_append] at hcode
    rw [step_next hcode, Option.some.injEq] at hstep
    subst hstep
    refine ⟨rest.length + 8, by simp, @Phase.again _ _ rest result ?_⟩
    cases c with
    | startStayDurationJob =>
      exact ⟨hbefore, rfl, htail', Or.inr rfl, hdispatching, hdeferred, hwaiting⟩
    | loadTime =>
      exact ⟨hbefore, rfl, htail', hstay.imp_left (by simp), hdispatching, hdeferred, hwaiting⟩
    | enableViews =>
      exact ⟨hbefore, rfl, htail', hstay.imp_left (by simp), hdispatching, hdeferred, hwaiting⟩
    | onNextQuestion => cases htail _ List.mem_cons_self
    | showTimeSceneAd result => cases htail _ List.mem_cons_self
    | notified => cases htail _ List.mem_cons_self

theorem Moved.next (h : Moved d₀ s) (hstep : s.step .next = some t) : ∃ k, k < s.code.length ∧ Phase d₀ t k := by
  obtain ⟨hindex, htail, hstay, hviews, hdeferred, hwaiting⟩ := h
  cases hcode : s.code with
  | nil => simp [step, hcode] at hstep
  | cons c code =>
    rw [step_next hcode, Option.some.injEq] at hstep
    rw [hcode] at htail hstay hviews
    have htail' : ∀ c ∈ code, c.isTail = true ∨ c = .notified := fun c hc => htail c (List.mem_cons_of_mem _ hc)
    have hmoved : Moved d₀ t ∧ t.code = code := by
      subst hstep
      cases c with
      | startStayDurationJob =>
        simp only [List.mem_cons, reduceCtorEq, false_or] at hviews
        exact ⟨⟨hindex, htail', Or.inr (Or.inr rfl), hviews, hdeferred, hwaiting⟩, rfl⟩
      | loadTime =>
        simp only [List.mem_cons, reduceCtorEq, false_or] at hstay hviews
        exact ⟨⟨hindex, htail', hstay, hviews, hdeferred, hwaiting⟩, rfl⟩
      | enableViews =>
        simp only [List.mem_cons, reduceCtorEq, false_or] at hstay
        exact ⟨⟨hindex, htail', hstay, Or.inr rfl, hdeferred, hwaiting⟩, rfl⟩
      | notified =>
        simp only [List.mem_cons, reduceCtorEq, false_or] at hstay hviews
        rw [exec, notified]
        simp only [hdeferred]
        exact ⟨⟨hindex, htail', hstay, hviews, rfl, hwaiting⟩, trivial⟩
      | onNextQuestion => simpa [Call.isTail] using htail _ List.mem_cons_self
      | showTimeSceneAd result => simpa [Call.isTail] using htail _ List.mem_cons_self
    refine ⟨_, ?_, .moved hmoved.1⟩
    rw [hmoved.2, List.length_cons]
    exact Nat.lt_succ_self _

theorem Phase.next (hpos : 0 ≤ d₀.mQuestionIndex + 1) (h : Phase d₀ s k) (hstep : s.step .next = some t) :
    ∃ k', k' < k ∧ Phase d₀ t k' := by
  cases h with
  | pressed h => exact h.next hpos hstep
  | delivering h => exact h.next hstep
  | refused h => exact h.next hpos hstep
  | again h => exact h.next hstep
  | awaiting h => exact h.next hstep
  | last h => exact h.next hpos hstep
  | moved h => exact h.next hstep

theorem Phase.report (h : Phase d₀ s k) (hstep : s.step .report = some t) : ∃ k', k' < k ∧ Phase d₀ t k' := by
  have hnone : s.waiting ≠ none := by
    intro hwaiting
    simp [step, hwaiting] at hstep
  cases h with
  | awaiting h => exact h.report hstep
  | pressed h => exact absurd h.waiting hnone
  | delivering h => exact absurd h.waiting hnone
  | refused h => exact absurd h.waiting hnone
  | again h => exact absurd h.waiting hnone
  | last h => exact absurd h.waiting hnone
  | moved h => exact absurd h.waiting hnone

/-- **A batch lands**: the press goes on from the question that the batch went to. -/
theorem Phase.loaded {i : Nat} {qs : List MQuestion} (h : Phase d₀ s k) (hpos : 0 ≤ d₀.mQuestionIndex + 1)
    (hstep : s.step (.loaded i qs) = some t) :
    Phase t.data t k ∧ t.data.mQuestions = d₀.mQuestions ++ qs ∧
      t.data.mQuestionIndex =
        if d₀.mQuestionIndex + 1 < (d₀.mQuestions.length + qs.length : Nat) then d₀.mQuestionIndex + 1
        else d₀.mQuestionIndex := by
  simp only [step, Option.ite_none_right_eq_some, Bool.and_eq_true, Option.some.injEq] at hstep
  obtain ⟨⟨hon, -⟩, rfl⟩ := hstep
  simp only [onScreen, Bool.and_eq_true, Option.isSome_iff_ne_none] at hon
  cases h with
  | awaiting h =>
    obtain ⟨hindex, hquestions⟩ := h.before
    refine ⟨.awaiting ⟨⟨rfl, rfl⟩, h.around, h.scene, h.deferred, h.waiting⟩, ?_⟩
    rw [← hindex] at hpos
    rw [← hindex, ← hquestions]
    exact QuestionData.questionsLoaded_goes (d := { s.data with loads := s.data.loads.eraseIdx i }) qs hpos
  | pressed h => exact absurd h.waiting hon.2
  | delivering h => exact absurd h.waiting hon.2
  | refused h => exact absurd h.waiting hon.2
  | again h => exact absurd h.waiting hon.2
  | last h => exact absurd h.waiting hon.2
  | moved h => exact absurd h.waiting hon.2

/-! ## A whole press -/

/-- The view model that the rest of the press starts from: that of the press itself, or what the batches landed made of it. -/
structure Landed (d₀ : QuestionData) (past : List Event) (d : QuestionData) : Prop where
  questions : d.mQuestions = d₀.mQuestions ++ (batches past).flatten
  untouched : batches past = [] → d.mQuestionIndex = d₀.mQuestionIndex
  gone      : batches past ≠ [] → d₀.mQuestionIndex + 1 ≤ d.mQuestionIndex ∧ d.mQuestionIndex < d.mQuestions.length

theorem batches_snoc_other {past : List Event} {e : Event} (hload : ∀ k qs, e ≠ .loaded k qs) :
    batches (past ++ [e]) = batches past := by
  unfold batches
  rw [List.filterMap_append]
  cases e with
  | loaded k qs => exact absurd rfl (hload k qs)
  | _ => exact List.append_nil _

theorem batches_snoc_loaded (past : List Event) (i : Nat) (qs : List MQuestion) :
    batches (past ++ [.loaded i qs]) = batches past ++ [qs] := List.filterMap_append

theorem Landed.pos {past : List Event} {d : QuestionData} (h : Landed d₀ past d) (hpos : 0 ≤ d₀.mQuestionIndex + 1) :
    0 ≤ d.mQuestionIndex + 1 := by
  by_cases hnone : batches past = []
  · rw [h.untouched hnone]
    exact hpos
  · have hgone := h.gone hnone
    omega

theorem Landed.loaded {past : List Event} {d d' : QuestionData} {i : Nat} {qs : List MQuestion} (h : Landed d₀ past d)
    (hnext : d₀.HasNext) (hquestions : d'.mQuestions = d.mQuestions ++ qs)
    (hindex : d'.mQuestionIndex =
      if d.mQuestionIndex + 1 < (d.mQuestions.length + qs.length : Nat) then d.mQuestionIndex + 1 else d.mQuestionIndex) :
    Landed d₀ (past ++ [.loaded i qs]) d' := by
  obtain ⟨-, hlt⟩ := hnext
  have hlength : d.mQuestions.length = d₀.mQuestions.length + ((batches past).flatten).length := by
    rw [h.questions, List.length_append]
  have hindex' : d₀.mQuestionIndex + 1 ≤ d'.mQuestionIndex ∧ d'.mQuestionIndex < d'.mQuestions.length := by
    rw [hquestions, List.length_append, hindex]
    by_cases hnone : batches past = []
    · have huntouched := h.untouched hnone
      split <;> omega
    · have hgone := h.gone hnone
      split <;> omega
  refine ⟨?_, fun hnone => ?_, fun _ => hindex'⟩
  · rw [hquestions, h.questions, batches_snoc_loaded]
    simp
  · rw [batches_snoc_loaded] at hnone
    simp at hnone

/-- What carries a press through a run. -/
def Going (d₀ : QuestionData) (past : List Event) (s : NextFlow) (k : Nat) : Prop :=
  ∃ d, Landed d₀ past d ∧ Phase d s k

theorem going_move {past : List Event} {e : Event} (hnext : d₀.HasNext) (h : Going d₀ past s k) (he : e.isMove = true)
    (hstep : s.step e = some t) : ∃ k', k' < k ∧ Going d₀ (past ++ [e]) t k' := by
  obtain ⟨d, hlanded, hphase⟩ := h
  have hload : ∀ i qs, e ≠ .loaded i qs := by
    rintro i qs rfl
    cases he
  have hlanded' : Landed d₀ (past ++ [e]) d := by
    obtain ⟨hquestions, huntouched, hgone⟩ := hlanded
    rw [← batches_snoc_other hload] at hquestions huntouched hgone
    exact ⟨hquestions, huntouched, hgone⟩
  have hmoved : ∃ k', k' < k ∧ Phase d t k' := by
    cases e with
    | next => exact hphase.next (hlanded.pos hnext.1) hstep
    | report => exact hphase.report hstep
    | _ => cases he
  obtain ⟨k', hk', hphase'⟩ := hmoved
  exact ⟨k', hk', d, hlanded', hphase'⟩

theorem going_other {past : List Event} {e : Event} (hnext : d₀.HasNext) (h : Going d₀ past s k) (he : e.isMove = false)
    (hstep : s.step e = some t) : Going d₀ (past ++ [e]) t k := by
  obtain ⟨d, hlanded, hphase⟩ := h
  by_cases hload : ∃ i qs, e = .loaded i qs
  · obtain ⟨i, qs, rfl⟩ := hload
    obtain ⟨hphase', hquestions, hindex⟩ := hphase.loaded (hlanded.pos hnext.1) hstep
    exact ⟨t.data, hlanded.loaded hnext hquestions hindex, hphase'⟩
  · have hother : ∀ i qs, e ≠ .loaded i qs := fun i qs heq => hload ⟨i, qs, heq⟩
    obtain ⟨hquestions, huntouched, hgone⟩ := hlanded
    rw [← batches_snoc_other hother] at hquestions huntouched hgone
    exact ⟨d, ⟨hquestions, huntouched, hgone⟩, hphase.outside (outside_of_step he hother hstep)⟩

/-- No batch lands during the press, or those that do bring no riddle, and the following question is the last one. -/
def Undisturbed (d₀ : QuestionData) (es : List Event) : Prop :=
  batches es = [] ∨ d₀.mQuestionIndex + 2 = d₀.mQuestions.length ∧ (batches es).flatten = []

/-- **Where Next leads from there**: one question on exactly when the batches left the press alone. -/
theorem Landed.following_iff {past : List Event} {d : QuestionData} (h : Landed d₀ past d) (hnext : d₀.HasNext) :
    d.following = d₀.mQuestionIndex + 1 ↔ Undisturbed d₀ past := by
  obtain ⟨-, hlt⟩ := hnext
  have hlength : d.mQuestions.length = d₀.mQuestions.length + ((batches past).flatten).length := by
    rw [h.questions, List.length_append]
  unfold Undisturbed QuestionData.following
  by_cases hnone : batches past = []
  · have huntouched := h.untouched hnone
    rw [hnone, List.flatten_nil, List.length_nil] at hlength
    rw [if_pos (by omega), huntouched]
    exact ⟨fun _ => .inl hnone, fun _ => rfl⟩
  · have hgone := h.gone hnone
    rw [← List.length_eq_zero_iff (l := (batches past).flatten)]
    constructor
    · intro hfollows
      right
      split at hfollows <;> omega
    · rintro (hnone' | ⟨hlast, hempty⟩)
      · exact absurd hnone' hnone
      · rw [if_neg (by omega)]
        omega

/-- The press ended where it should: on the following question, with the views enabled, and with the stay restarted if an ad
was tried. -/
def Advanced (d₀ : QuestionData) (s : NextFlow) : Prop :=
  s.data.mQuestionIndex = d₀.mQuestionIndex + 1 ∧ s.data.enableViews = true ∧
    (s.attempted = true → s.data.mCanShowNextAd = false)

theorem Phase.settled (h : Phase d₀ s k) (hover : s.isOver = true) :
    s.data.mQuestionIndex = d₀.following ∧ s.data.enableViews = true ∧
      (s.attempted = true → s.data.mCanShowNextAd = false) := by
  simp only [isOver, Bool.and_eq_true, List.isEmpty_iff, Option.isNone_iff_eq_none] at hover
  obtain ⟨hcode, hwaiting⟩ := hover
  cases h with
  | moved h =>
    obtain ⟨hindex, -, hstay, hviews, -, -⟩ := h
    simp only [hcode, List.not_mem_nil, false_or] at hstay hviews
    refine ⟨hindex, hviews, fun hattempted => ?_⟩
    rcases hstay with hnot | hcan
    · rw [hattempted] at hnot
      cases hnot
    · exact hcan
  | pressed h => simp [h.code] at hcode
  | delivering h => simp [h.code] at hcode
  | refused h => simp [h.code] at hcode
  | again h => simp [h.code] at hcode
  | last h => simp [h.code, callback] at hcode
  | awaiting h => simp [h.waiting] at hwaiting

theorem going_over {past : List Event} (hnext : d₀.HasNext) (h : Going d₀ past s k) (hover : s.isOver = true) :
    s.data.enableViews = true ∧ (s.attempted = true → s.data.mCanShowNextAd = false) ∧
      (Advanced d₀ s ↔ Undisturbed d₀ past) := by
  obtain ⟨d, hlanded, hphase⟩ := h
  obtain ⟨hindex, hviews, hstay⟩ := hphase.settled hover
  refine ⟨hviews, hstay, ?_⟩
  rw [← hlanded.following_iff hnext, ← hindex]
  exact ⟨fun h => h.1, fun h => ⟨h, hviews, hstay⟩⟩

theorem move_enabled (hover : s.isOver = false) : ∃ e t, e.isMove = true ∧ s.step e = some t := by
  cases hcode : s.code with
  | cons c code => exact ⟨.next, _, rfl, step_next hcode⟩
  | nil =>
    cases hwaiting : s.waiting with
    | some r =>
      have hreport : ∃ t, s.step .report = some t := by simp [step, hwaiting]
      obtain ⟨t, ht⟩ := hreport
      exact ⟨.report, t, rfl, ht⟩
    | none => simp [isOver, hcode, hwaiting] at hover

end NextFlow

/-- **When a press of Next advances by one.**  However the main thread, the SDK, the ad module, the clock, the activity's
life and the loads of riddles interleave, the press takes at most fourteen moves and can go on as long as it is not over.
When it is over the views are enabled and the stay was restarted if an ad was tried, and the following question is on screen
if and only if no batch landed in between, those set aside that brought nothing while the following question was the last. -/
theorem QuestionScreen.next_advances_iff (s : QuestionScreen) (hnext : s.data.HasNext) (hviews : s.data.enableViews = true)
    (es : List NextFlow.Event) (t : NextFlow) (hrun : Machine.run NextFlow.step s.press es = some t) :
    es.countP NextFlow.Event.isMove ≤ 14 ∧
      (t.isOver = false → ∃ e u, e.isMove = true ∧ t.step e = some u) ∧
        (t.isOver = true → t.data.enableViews = true ∧ (t.attempted = true → t.data.mCanShowNextAd = false) ∧
          (NextFlow.Advanced s.data t ↔ NextFlow.Undisturbed s.data es)) := by
  have hpressed : NextFlow.Going s.data [] s.press 14 := by
    refine ⟨s.data, ⟨by simp [NextFlow.batches], fun _ => rfl, fun h => absurd rfl h⟩, ?_⟩
    exact .pressed ⟨⟨rfl, rfl⟩, rfl, rfl, rfl, rfl, rfl, hviews⟩
  obtain ⟨k, hgoing, hk⟩ := Machine.run_of_rank (fun _ _ _ _ _ hs he hstep => NextFlow.going_move hnext hs he hstep)
    (fun _ _ _ _ _ hs he hstep => NextFlow.going_other hnext hs he hstep) es [] s.press 14 hpressed hrun
  exact ⟨by omega, NextFlow.move_enabled, NextFlow.going_over hnext hgoing⟩

/-- The first of two questions is answered, the stay is over and an ad is cached, but the activity is not resumed. -/
def QuestionScreen.paused : QuestionScreen where
  data := { QuestionData.fresh with
    mQuestions := [⟨"What has keys?".toList, [⟨"A piano".toList, true⟩], []⟩,
      ⟨"What has hands?".toList, [⟨"A clock".toList, true⟩], []⟩]
    mQuestionIndex := 0, questionSortNum := 1, usrOptionIndex := 0, mCanShowNextAd := true }
  ads := { Ads.created 1 ⟨[], [], []⟩ with scene := fun _ => ⟨false, ⟨1, some ⟨0, some .interAd⟩⟩, none, []⟩ }
  isOnResume := false

/-- The show is refused twice, and the press goes one question on. -/
theorem QuestionScreen.next_advances_iff_paused :
    ∃ t, Machine.run NextFlow.step QuestionScreen.paused.press (List.replicate 13 .next) = some t ∧
      t.isOver = true ∧ t.ads.calls = 2 ∧ t.resultTime.isSome = true ∧ NextFlow.Advanced QuestionScreen.paused.data t := by
  have hrun : ∃ t, Machine.run NextFlow.step QuestionScreen.paused.press (List.replicate 13 .next) = some t ∧
      (t.isOver && t.ads.calls == 2 && t.resultTime.isSome) = true := by
    rw [← Option.any_eq_true]
    decide
  obtain ⟨t, ht, hover⟩ := hrun
  simp only [Bool.and_eq_true, beq_iff_eq] at hover
  obtain ⟨-, -, hadvances⟩ := next_advances_iff .paused (by decide) rfl _ t ht
  exact ⟨t, ht, hover.1.1, hover.1.2, hover.2, (hadvances hover.1.1).2.2.2 (.inl (by decide))⟩

/-- One riddle for the first levels and two for the others. -/
def threeRiddles : Library where
  level1To5  := [⟨"What has keys?".toList, [⟨"A piano".toList, true⟩], []⟩]
  level6To10 := [⟨"What has hands?".toList, [⟨"A clock".toList, true⟩], []⟩,
    ⟨"What has teeth?".toList, [⟨"A comb".toList, true⟩], []⟩]

/-- The batch of the first levels is answered and Next is pressed twice, which launches two loads.  The first one lands, the
riddle it goes to is answered and the stay is over; the second one is still in flight. -/
def Quiz.loadLeft : List Quiz.Event :=
  [.draw 0 [0, 0], .loaded 0, .onOption 0, .onNextQuestion false, .onNextQuestion false, .draw 0 [0, 1, 0, 0],
    .draw 1 [0, 1, 0, 0], .loaded 0, .onOption 0, .stayElapsed]

/-- **Next skips a question.**  The second load lands while the ad of the press is on screen and goes to the following
question, and the callback of the ad goes on to the one after it. -/
theorem QuestionScreen.next_skips :
    ∃ q, Machine.run (Quiz.step threeRiddles)
        (Quiz.start ((Prefs.empty.setAttr .usrLevel 5).setAttr .usrLevelExp 45)) Quiz.loadLeft = some q ∧
      q.data.HasNext ∧ q.data.nextEnabled = true ∧
      ∃ t, Machine.run NextFlow.step (QuestionScreen.press ⟨q.data, paused.ads, true⟩)
          [.next, .next, .next, .loaded 0 threeRiddles.level6To10, .report, .next, .next, .next, .next] = some t ∧
        t.isOver = true ∧ t.data.mQuestionIndex = q.data.mQuestionIndex + 2 ∧ ¬ NextFlow.Advanced q.data t := by
  have hrun : ∃ q, Machine.run (Quiz.step threeRiddles)
        (Quiz.start ((Prefs.empty.setAttr .usrLevel 5).setAttr .usrLevelExp 45)) Quiz.loadLeft = some q ∧
      (decide q.data.HasNext && q.data.nextEnabled &&
        (Machine.run NextFlow.step (QuestionScreen.press ⟨q.data, paused.ads, true⟩)
          [.next, .next, .next, .loaded 0 threeRiddles.level6To10, .report, .next, .next, .next, .next]).any
            (fun t => t.isOver && t.data.mQuestionIndex == q.data.mQuestionIndex + 2)) = true := by
    rw [← Option.any_eq_true]
    decide +kernel
  obtain ⟨q, hq, hpress⟩ := hrun
  simp only [Bool.and_eq_true, decide_eq_true_eq, Option.any_eq_true, beq_iff_eq] at hpress
  obtain ⟨⟨hnext, henabled⟩, t, ht, hover, hindex⟩ := hpress
  refine ⟨q, hq, hnext, henabled, t, ht, hover, hindex, fun hadvanced => ?_⟩
  have hone := hadvanced.1
  omega

end Riddles
