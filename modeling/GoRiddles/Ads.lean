import GoRiddles.Cache
import GoRiddles.Machine
import GoRiddles.Waterfall
/-!
# Ads — the scenes of the ad module

`ScenesAd.kt`, `AdmobFullScreenCallback.kt`, the three ad classes and `SceneUtils.kt`.  The SDK answers requests and reports on
ads in its own time, at once included.  What the app still has to run on the main thread is the list `code`: nothing of the
module comes after a callback into the app, so the code of a callback runs before the rest.
-/
namespace Riddles

open Waterfall (Traffic)

inductive ScenesEnum where
  | openScene
  | rewardScene
  | timeScene
  deriving DecidableEq, Repr

inductive TypesEnum where
  | openAd
  | interAd
  | rewardAd
  deriving DecidableEq, Repr

structure MAdData where
  platform : Text
  dataId   : Text
  type     : Text
  sort     : Int
  deriving DecidableEq, Repr

structure MAdConfig where
  openAds : List MAdData
  reward  : List MAdData
  time    : List MAdData
  deriving DecidableEq, Repr

def toTypesEnum (s : Text) : Option TypesEnum :=
  if s = "o".toList then some .openAd
  else if s = "i".toList then some .interAd
  else if s = "r".toList then some .rewardAd
  else none

/-- What is passed around as `Any`: an ad of the SDK, or an object of no such class. -/
structure AdObject where
  id   : Nat
  type : Option TypesEnum
  deriving DecidableEq, Repr

def listTypesAd : List TypesEnum := [.openAd, .interAd, .rewardAd]

def TypesEnum.isSupported (t : TypesEnum) (data : AdObject) : Bool := data.type = some t

def TypesEnum.isFullScreenType : TypesEnum → Bool
  | .openAd | .interAd | .rewardAd => true

/-! ## Loading -/

structure SceneData where
  createTime : Nat
  data       : Option AdObject
  deriving DecidableEq, Repr

/-- A request at the SDK: the options after it, and the count of the pass. -/
structure Pending where
  options      : List MAdData
  requestCount : Nat
  deriving DecidableEq, Repr

structure Scene where
  isLoading : Bool
  sceneData : SceneData
  pending   : Option Pending
  /-- The requests of the scene and their answers. -/
  log       : List (Traffic MAdData AdObject)
  deriving DecidableEq, Repr

/-- An hour, in milliseconds. -/
def hour : Nat := 1000 * 60 * 60

namespace Scene

def clearSceneData (s : Scene) : Scene := { s with sceneData := ⟨0, none⟩ }

/-- The cached ad is thrown away for its age. -/
def expired (s : Scene) (now : Nat) : Bool := 0 < s.sceneData.createTime && hour < now - s.sceneData.createTime

/-- There is no cached ad that would do. -/
def wanting (s : Scene) (now : Nat) : Bool := s.sceneData.data.isNone || s.expired now

/-- `loadInternal` up to `loadLoop`, `none` where it returns. -/
def started (s : Scene) (now : Nat) : Option Scene :=
  if s.isLoading then none
  else if s.sceneData.data.isSome then
    if s.expired now then some { s.clearSceneData with isLoading := true } else none
  else some { s with isLoading := true }

/-- `loadLoop` from some index on, up to a request; `none` when its callback gets null. -/
def loadLoop (s : Scene) (requestCount : Nat) : List MAdData → Option Scene
  | [] => none
  | option :: options =>
    -- onLoad answers an unknown type with null at once
    match toTypesEnum option.type with
    | none   => s.loadLoop requestCount options
    | some _ => some { s with pending := some ⟨options, requestCount⟩, log := s.log ++ [.request option] }

/-- `loadInternal` when it may call itself so many times. -/
def loadPasses (scene : ScenesEnum) (options : List MAdData) (now : Nat) (passes requestCount : Nat) (s : Scene) : Scene :=
  match s.started now with
  | none    => s
  | some s' =>
    match s'.loadLoop requestCount options with
    | some s'' => s''
    | none =>
      match passes with
      | 0          => { s' with isLoading := false }
      | passes + 1 =>
        if scene = .openScene ∧ requestCount < 2 then
          loadPasses scene options now passes (requestCount + 1) { s' with isLoading := false }
        else { s' with isLoading := false }

def loadInternal (s : Scene) (scene : ScenesEnum) (options : List MAdData) (now requestCount : Nat) : Scene :=
  loadPasses scene options now (2 - requestCount) requestCount s

/-- The callback of `loadLoop` with null. -/
def loadFailed (s : Scene) (scene : ScenesEnum) (options : List MAdData) (now requestCount : Nat) : Scene :=
  if scene = .openScene ∧ requestCount < 2 then
    { s with isLoading := false }.loadInternal scene options now (requestCount + 1)
  else { s with isLoading := false }

/-- `loadInternal` as it is written: it calls itself from the callback of its loop. -/
theorem loadInternal_eq (s : Scene) (scene : ScenesEnum) (options : List MAdData) (now requestCount : Nat) :
    s.loadInternal scene options now requestCount =
      match s.started now with
      | none    => s
      | some s' => (s'.loadLoop requestCount options).getD (s'.loadFailed scene options now requestCount) := by
  unfold loadInternal
  rw [loadPasses]
  cases s.started now with
  | none => rfl
  | some s' =>
    simp only [loadFailed, loadInternal]
    cases s'.loadLoop requestCount options with
    | some s'' => rfl
    | none =>
      simp only [Option.getD_none]
      by_cases hcount : requestCount < 2
      · have hpasses : 2 - requestCount = (2 - (requestCount + 1)) + 1 := by omega
        rw [hpasses]
      · have hpasses : 2 - requestCount = 0 := by omega
        simp [hpasses, hcount]

/-- The SDK answers the request. -/
def answered (s : Scene) (scene : ScenesEnum) (options : List MAdData) (now : Nat) (result : Option AdObject) :
    Option Scene :=
  match s.pending with
  | none => none
  | some p =>
    let s' : Scene := { s with pending := none, log := s.log ++ [.answer result] }
    match result with
    | some ad => some { s' with sceneData := ⟨now, some ad⟩, isLoading := false }
    | none =>
      some ((s'.loadLoop p.requestCount p.options).getD (s'.loadFailed scene options now p.requestCount))

end Scene

def MAdConfig.ofScene (c : MAdConfig) : ScenesEnum → List MAdData
  | .openScene   => c.openAds
  | .rewardScene => c.reward
  | .timeScene   => c.time

def listOption (c : MAdConfig) (scene : ScenesEnum) : List MAdData :=
  (c.ofScene scene).insertionSort (fun a b => b.sort ≤ a.sort)

/-! ## Showing -/

/-- What the app calls, and what it will do in the callbacks of a show. -/
inductive AppCall where
  | load (scene : ScenesEnum)
  | showAd (scene : ScenesEnum) (data : AdObject) (isOnResume : Bool) (onAdReward onAdShowCompleted : List AppCall)

/-- An ad the SDK was asked to show and has not reported on. -/
structure Showing where
  /-- The number of the call of `show`. -/
  call              : Nat
  scene             : ScenesEnum
  ad                : AdObject
  onAdReward        : List AppCall
  onAdShowCompleted : List AppCall

structure Ads where
  now         : Nat
  config      : MAdConfig
  /-- `FullScreenManager.isShowing`. -/
  isShowing   : Bool
  scene       : ScenesEnum → Scene
  outstanding : List Showing
  /-- How often `show` was called. -/
  calls       : Nat
  /-- The calls of `show` that `onAdShowCompleted` was called for. -/
  completed   : List Nat
  /-- The ads passed to the SDK for showing. -/
  shown       : List AdObject
  /-- What the app has still to run. -/
  code        : List AppCall

namespace Ads

def setScene (a : Ads) (scene : ScenesEnum) (s : Scene) : Ads := { a with scene := Function.update a.scene scene s }

def onAdShowCompleted (a : Ads) (call : Nat) (body : List AppCall) : Ads :=
  { a with completed := a.completed ++ [call], code := body ++ a.code }

def load (a : Ads) (scene : ScenesEnum) : Ads :=
  a.setScene scene ((a.scene scene).loadInternal scene (listOption a.config scene) a.now 1)

def showAd (a : Ads) (scene : ScenesEnum) (data : AdObject) (isOnResume : Bool) (onAdReward onAdShowCompleted : List AppCall) :
    Ads :=
  let a' := { a with calls := a.calls + 1 }
  match listTypesAd.find? (fun t => t.isSupported data) with
  | none => a'.onAdShowCompleted a.calls onAdShowCompleted
  | some type =>
    if !isOnResume || (type.isFullScreenType && a.isShowing) then a'.onAdShowCompleted a.calls onAdShowCompleted
    else
      { a' with
        isShowing := true, outstanding := a.outstanding ++ [⟨a.calls, scene, data, onAdReward, onAdShowCompleted⟩]
        shown := a.shown ++ [data] }

/-- `onAdComplete` of the callback of a shown ad. -/
def onAdComplete (a : Ads) (r : Showing) : Ads :=
  let a' := { a with isShowing := false, outstanding := a.outstanding.filter (fun r' => r'.call ≠ r.call) }
  (a'.setScene r.scene (a.scene r.scene).clearSceneData).onAdShowCompleted r.call r.onAdShowCompleted

inductive Event where
  /-- App code starts on the main thread. -/
  | start (code : List AppCall)
  /-- The next call of the code that runs. -/
  | next
  | answer (scene : ScenesEnum) (result : Option AdObject)
  | reward (call : Nat)
  /-- Dismissed, or failed to show. -/
  | report (call : Nat)
  | tick (ms : Nat)
  | configured (config : MAdConfig)

def step (a : Ads) : Event → Option Ads
  | .start code => if a.code.isEmpty then some { a with code := code } else none
  | .next =>
    match a.code with
    | [] => none
    | .load scene :: code => some ({ a with code := code }.load scene)
    | .showAd scene data isOnResume onAdReward onAdShowCompleted :: code =>
      some ({ a with code := code }.showAd scene data isOnResume onAdReward onAdShowCompleted)
  | .answer scene result =>
    ((a.scene scene).answered scene (listOption a.config scene) a.now result).map (a.setScene scene)
  | .reward call =>
    match a.outstanding.find? (fun r => r.call = call) with
    | none => none
    | some r => if r.ad.type = some .rewardAd then some { a with code := r.onAdReward ++ a.code } else none
  | .report call => (a.outstanding.find? (fun r => r.call = call)).map a.onAdComplete
  | .tick ms => some { a with now := a.now + ms }
  | .configured config => some { a with config := config }

/-- The process has started. -/
def created (now : Nat) (config : MAdConfig) : Ads :=
  ⟨now, config, false, fun _ => ⟨false, ⟨0, none⟩, none, []⟩, [], 0, [], [], []⟩

end Ads
end Riddles
