import GoRiddles.Ads
/-!
# AdMoves — what a step does to a scene

Three things happen to a scene: a load call, the answer to its request, and the report on an ad shown for it (`Turn`).  Every
step of the ad module is one of them or leaves the scene alone (`scene_step`), and `Asks` is what the first two have in
common: the options are gone through up to the next request.
-/
namespace Riddles
namespace Scene

inductive Turn where
  | load
  | answer (result : Option AdObject)
  /-- An ad shown for the scene is dismissed, or failed to show. -/
  | clear
  deriving DecidableEq, Repr

def turn (s : Scene) (scene : ScenesEnum) (options : List MAdData) (now : Nat) : Turn → Option Scene
  | .load          => some (s.loadInternal scene options now 1)
  | .answer result => s.answered scene options now result
  | .clear         => some s.clearSceneData

/-! ## Going through the options -/

/-- The options of a type the module knows. -/
def known (options : List MAdData) : List MAdData := options.filter (fun o => (toTypesEnum o.type).isSome)

theorem loadLoop_spec (s : Scene) (requestCount : Nat) : ∀ options : List MAdData,
    (s.loadLoop requestCount options = none ∧ known options = []) ∨
      ∃ o rest, known options = o :: known rest ∧ s.loadLoop requestCount options =
        some { s with pending := some ⟨rest, requestCount⟩, log := s.log ++ [.request o] }
  | [] => Or.inl ⟨rfl, rfl⟩
  | option :: options => by
    cases htype : toTypesEnum option.type with
    | some type =>
      right
      refine ⟨option, options, ?_, ?_⟩
      · simp [known, htype]
      · simp [loadLoop, htype]
    | none =>
      have hknown : known (option :: options) = known options := by simp [known, htype]
      have hloop : s.loadLoop requestCount (option :: options) = s.loadLoop requestCount options := by
        simp [loadLoop, htype]
      rw [hknown, hloop]
      exact loadLoop_spec s requestCount options

/-- What is still to be requested: the rest of the pass, and for Open a second one. -/
def remaining (scene : ScenesEnum) (options : List MAdData) (p : Pending) : List MAdData :=
  known p.options ++ if scene = .openScene ∧ p.requestCount < 2 then known options else []

/-- The head of `q` is requested, and the rest of `q` remains. -/
structure Asks (scene : ScenesEnum) (options q : List MAdData) (s t : Scene) : Prop where
  sceneData : t.sceneData = s.sceneData
  log       : t.log = s.log ++ q.head?.toList.map .request
  isLoading : t.isLoading = true ↔ q ≠ []
  pending   : (t.pending = none ∧ q = []) ∨
    ∃ p o, t.pending = some p ∧ 0 < p.requestCount ∧ q = o :: remaining scene options p

section
variable {scene : ScenesEnum} {options : List MAdData} {now : Nat} {s t : Scene} {p : Pending}

theorem asks_nothing (hpending : s.pending = none) : Asks scene options [] s { s with isLoading := false } :=
  ⟨rfl, by simp, by simp, Or.inl ⟨hpending, rfl⟩⟩

theorem asks_next (p : Pending) (o : MAdData) (hloading : s.isLoading = true) (hcount : 0 < p.requestCount) :
    Asks scene options (o :: remaining scene options p) s
      { s with pending := some p, log := s.log ++ [.request o] } :=
  ⟨rfl, by simp, by simp [hloading], Or.inr ⟨p, o, rfl, hcount, rfl⟩⟩

theorem restarted (hloading : s.isLoading = true) (hdata : s.sceneData.data = none) :
    ({ s with isLoading := false } : Scene).started now = some s := by
  cases s
  simp_all [started]

/-- **One go**: `loadLoop` and, where it finds nothing more, what its callback does. -/
theorem asks_loadLoop (hloading : s.isLoading = true) (hpending : s.pending = none) (hdata : s.sceneData.data = none)
    (hcount : 0 < p.requestCount) :
    Asks scene options (remaining scene options p) s
      ((s.loadLoop p.requestCount p.options).getD (s.loadFailed scene options now p.requestCount)) := by
  rcases loadLoop_spec s p.requestCount p.options with ⟨hloop, hknown⟩ | ⟨o, rest, hknown, hloop⟩
  · rw [hloop, Option.getD_none, loadFailed, remaining, hknown, List.nil_append]
    by_cases hagain : scene = .openScene ∧ p.requestCount < 2
    · -- the second pass, over all of the options
      have hlast : ¬ p.requestCount + 1 < 2 := by omega
      rw [if_pos hagain, if_pos hagain, loadInternal_eq, restarted hloading hdata]
      simp only
      rcases loadLoop_spec s (p.requestCount + 1) options with
        ⟨hloop', hknown'⟩ | ⟨o, rest, hknown', hloop'⟩
      · rw [hloop', Option.getD_none, loadFailed, if_neg (fun h => hlast h.2), hknown']
        exact asks_nothing hpending
      · have hrest : remaining scene options ⟨rest, p.requestCount + 1⟩ = known rest := by
          rw [remaining, if_neg (fun h => hlast h.2), List.append_nil]
        rw [hloop', Option.getD_some, hknown', ← hrest]
        exact asks_next ⟨rest, p.requestCount + 1⟩ o hloading (Nat.succ_pos _)
    · rw [if_neg hagain, if_neg hagain]
      exact asks_nothing hpending
  · rw [hloop, Option.getD_some, remaining, hknown, List.cons_append]
    exact asks_next ⟨rest, p.requestCount⟩ o hloading hcount

/-- **A load call** is ignored while the scene loads or has an ad that will do; otherwise it starts to ask, with nothing
cached. -/
theorem load_spec (scene : ScenesEnum) (options : List MAdData) (now : Nat)
    (hpending : s.isLoading = false → s.pending = none) :
    ((s.isLoading = true ∨ s.wanting now = false) ∧ s.loadInternal scene options now 1 = s) ∨
      (s.isLoading = false ∧ s.wanting now = true ∧ ∃ s' : Scene, s'.sceneData.data = none ∧ s'.log = s.log ∧
        Asks scene options (remaining scene options ⟨options, 1⟩) s' (s.loadInternal scene options now 1)) := by
  rw [loadInternal_eq]
  by_cases hloading : s.isLoading = true
  · left
    simp [started, hloading]
  rw [Bool.not_eq_true] at hloading
  cases hdata : s.sceneData.data with
  | none =>
    right
    refine ⟨hloading, by simp [wanting, hdata], { s with isLoading := true }, hdata, rfl, ?_⟩
    simp only [started, hloading, hdata, Option.isSome_none, Bool.false_eq_true, if_false]
    exact asks_loadLoop (p := ⟨options, 1⟩) rfl (hpending hloading) hdata Nat.one_pos
  | some ad =>
    by_cases hexpired : s.expired now = true
    · right
      refine ⟨hloading, by simp [wanting, hexpired], { s.clearSceneData with isLoading := true }, rfl, rfl, ?_⟩
      simp only [started, hloading, hdata, Option.isSome_some, hexpired, Bool.false_eq_true, if_false, if_true]
      exact asks_loadLoop (p := ⟨options, 1⟩) rfl (hpending hloading) rfl Nat.one_pos
    · left
      rw [Bool.not_eq_true] at hexpired
      simp [started, wanting, hloading, hdata, hexpired]

/-- **An answer**: the ad is cached and the load is over, or the next option is asked for. -/
theorem answer_spec {result : Option AdObject} (hloading : s.isLoading = true) (hdata : s.sceneData.data = none)
    (hpending : s.pending = some p) (hcount : 0 < p.requestCount) (ht : s.answered scene options now result = some t) :
    (∃ ad, result = some ad ∧ t = ⟨false, ⟨now, some ad⟩, none, s.log ++ [.answer result]⟩) ∨
      (result = none ∧ Asks scene options (remaining scene options p)
        { s with pending := none, log := s.log ++ [.answer none] } t) := by
  unfold answered at ht
  rw [hpending] at ht
  cases result with
  | some ad =>
    left
    simp only [Option.some.injEq] at ht
    exact ⟨ad, rfl, ht.symm⟩
  | none =>
    right
    simp only [Option.some.injEq] at ht
    subst ht
    exact ⟨rfl, asks_loadLoop hloading rfl hdata hcount⟩

/-- While a scene loads a request is out and nothing is cached; otherwise none is out. -/
structure Sound (s : Scene) : Prop where
  resting : s.isLoading = false → s.pending = none
  asking  : s.isLoading = true → s.sceneData.data = none ∧ ∃ p, s.pending = some p ∧ 0 < p.requestCount

theorem sound_empty : Sound ⟨false, ⟨0, none⟩, none, []⟩ :=
  ⟨fun _ => rfl, fun hloading => by cases hloading⟩

theorem sound_of_asks {q : List MAdData} (h : Asks scene options q s t) (hdata : s.sceneData.data = none) : Sound t where
  resting hresting := by
    rcases h.pending with ⟨hpending, -⟩ | ⟨p, o, -, -, hq⟩
    · exact hpending
    · rw [h.isLoading.2 (by simp [hq])] at hresting
      cases hresting
  asking hloading := by
    refine ⟨by rw [h.sceneData, hdata], ?_⟩
    rcases h.pending with ⟨-, hq⟩ | ⟨p, o, hpending, hcount, -⟩
    · exact absurd hq (h.isLoading.1 hloading)
    · exact ⟨p, hpending, hcount⟩

theorem Sound.loading (h : Sound s) {result : Option AdObject} (ht : s.answered scene options now result = some t) :
    s.isLoading = true := by
  by_contra hresting
  rw [Bool.not_eq_true] at hresting
  rw [answered, h.resting hresting] at ht
  cases ht

theorem Sound.clear (h : Sound s) : Sound s.clearSceneData :=
  ⟨h.resting, fun hloading => ⟨rfl, (h.asking hloading).2⟩⟩

theorem sound_turn {τ : Turn} (h : Sound s) (ht : s.turn scene options now τ = some t) : Sound t := by
  cases τ with
  | load =>
    simp only [turn, Option.some.injEq] at ht
    subst ht
    rcases load_spec scene options now h.resting with ⟨-, hsame⟩ | ⟨-, -, s', hdata, -, hasks⟩
    · rw [hsame]
      exact h
    · exact sound_of_asks hasks hdata
  | answer result =>
    have hloading := h.loading ht
    obtain ⟨hdata, p, hpending, hcount⟩ := h.asking hloading
    rcases answer_spec hloading hdata hpending hcount ht with ⟨ad, -, rfl⟩ | ⟨-, hasks⟩
    · exact ⟨fun _ => rfl, fun hbusy => by cases hbusy⟩
    · exact sound_of_asks hasks hdata
  | clear =>
    simp only [turn, Option.some.injEq] at ht
    subst ht
    exact h.clear

/-- **What empties the cache**: a report on a shown ad, or the age of what is cached. -/
theorem cleared_or_expired {τ : Turn} {ad : AdObject} (h : Sound s) (ht : s.turn scene options now τ = some t)
    (hdata : s.sceneData.data = some ad) (hgone : t.sceneData.data ≠ some ad) : τ = .clear ∨ s.expired now = true := by
  cases τ with
  | load =>
    simp only [turn, Option.some.injEq] at ht
    subst ht
    rcases load_spec scene options now h.resting with ⟨-, hsame⟩ | ⟨-, hwanting, -⟩
    · rw [hsame] at hgone
      exact absurd hdata hgone
    · right
      simpa [wanting, hdata] using hwanting
  | answer result =>
    rw [(h.asking (h.loading ht)).1] at hdata
    cases hdata
  | clear => exact Or.inl rfl

end
end Scene
namespace Ads

variable {a b : Ads} {e : Event}

/-- What the scene hears of an event. -/
def heard (a : Ads) (scene : ScenesEnum) : Event → Option Scene.Turn
  | .next =>
    match a.code with
    | .load scene' :: _ => if scene' = scene then some .load else none
    | _                 => none
  | .answer scene' result => if scene' = scene then some (.answer result) else none
  | .report call =>
    match a.outstanding.find? (fun r => r.call = call) with
    | some r => if r.scene = scene then some .clear else none
    | none   => none
  | _ => none

theorem setScene_same (a : Ads) (scene : ScenesEnum) (s : Scene) : (a.setScene scene s).scene scene = s := by
  simp [setScene]

theorem setScene_other (a : Ads) {scene scene' : ScenesEnum} (s : Scene) (hne : scene' ≠ scene) :
    (a.setScene scene' s).scene scene = a.scene scene := by
  simp [setScene, hne.symm]

/-- `show` refuses: the object is no ad, the activity is not resumed, or another ad is on screen. -/
def refuses (a : Ads) (data : AdObject) (isOnResume : Bool) : Bool :=
  data.type.isNone || !isOnResume || a.isShowing

theorem listTypesAd_find (data : AdObject) : listTypesAd.find? (fun t => t.isSupported data) = data.type := by
  obtain ⟨id, type⟩ := data
  cases type with
  | none => rfl
  | some t => cases t <;> rfl

theorem showAd_eq (a : Ads) (scene : ScenesEnum) (data : AdObject) (isOnResume : Bool) (rewarded completed : List AppCall) :
    a.showAd scene data isOnResume rewarded completed =
      if a.refuses data isOnResume then { a with calls := a.calls + 1 }.onAdShowCompleted a.calls completed
      else
        { a with
          calls := a.calls + 1, isShowing := true, shown := a.shown ++ [data]
          outstanding := a.outstanding ++ [⟨a.calls, scene, data, rewarded, completed⟩] } := by
  unfold showAd refuses
  rw [listTypesAd_find]
  cases data.type with
  | none => rfl
  | some type =>
    have hfull : type.isFullScreenType = true := by cases type <;> rfl
    simp only [hfull, Bool.true_and, Option.isNone_some, Bool.false_or]

/-- **The steps**, with a show call that is refused apart from one that is not. -/
inductive Stepped (a : Ads) : Event → Ads → Prop
  | start (code : List AppCall) : Stepped a (.start code) { a with code := code }
  | load {scene : ScenesEnum} {code : List AppCall} (hcode : a.code = .load scene :: code) :
      Stepped a .next ({ a with code := code }.load scene)
  | refused {scene : ScenesEnum} {data : AdObject} {isOnResume : Bool} {rewarded completed code : List AppCall}
      (hcode : a.code = .showAd scene data isOnResume rewarded completed :: code)
      (hrefuses : a.refuses data isOnResume = true) :
      Stepped a .next
        { a with calls := a.calls + 1, completed := a.completed ++ [a.calls], code := completed ++ code }
  | passed {scene : ScenesEnum} {data : AdObject} {isOnResume : Bool} {rewarded completed code : List AppCall}
      (hcode : a.code = .showAd scene data isOnResume rewarded completed :: code)
      (hrefuses : a.refuses data isOnResume = false) :
      Stepped a .next
        { a with
          calls := a.calls + 1, isShowing := true, shown := a.shown ++ [data], code := code
          outstanding := a.outstanding ++ [⟨a.calls, scene, data, rewarded, completed⟩] }
  | answer {scene : ScenesEnum} {result : Option AdObject} {s : Scene}
      (hs : (a.scene scene).answered scene (listOption a.config scene) a.now result = some s) :
      Stepped a (.answer scene result) (a.setScene scene s)
  | reward {r : Showing} (hr : a.outstanding.find? (fun r' => r'.call = r.call) = some r) :
      Stepped a (.reward r.call) { a with code := r.onAdReward ++ a.code }
  | report {r : Showing} (hr : a.outstanding.find? (fun r' => r'.call = r.call) = some r) :
      Stepped a (.report r.call) (a.onAdComplete r)
  | tick (ms : Nat) : Stepped a (.tick ms) { a with now := a.now + ms }
  | configured (config : MAdConfig) : Stepped a (.configured config) { a with config := config }

theorem stepped_of_step (hstep : a.step e = some b) : Stepped a e b := by
  cases e with
  | start code =>
    simp only [step, Option.ite_none_right_eq_some, Option.some.injEq] at hstep
    rw [← hstep.2]
    exact .start code
  | next =>
    simp only [step] at hstep
    cases hcode : a.code with
    | nil => rw [hcode] at hstep; cases hstep
    | cons call code =>
      rw [hcode] at hstep
      cases call with
      | load scene =>
        simp only [Option.some.injEq] at hstep
        rw [← hstep]
        exact .load hcode
      | showAd scene data isOnResume rewarded completed =>
        simp only [Option.some.injEq, showAd_eq] at hstep
        cases hrefuses : a.refuses data isOnResume with
        | true =>
          have hrefuses' : ({ a with code := code } : Ads).refuses data isOnResume = true := hrefuses
          rw [if_pos hrefuses'] at hstep
          rw [← hstep]
          exact .refused hcode hrefuses
        | false =>
          have hrefuses' : ({ a with code := code } : Ads).refuses data isOnResume = false := hrefuses
          rw [hrefuses', if_neg Bool.false_ne_true] at hstep
          rw [← hstep]
          exact .passed hcode hrefuses
  | answer scene result =>
    simp only [step, Option.map_eq_some_iff] at hstep
    obtain ⟨s, hs, rfl⟩ := hstep
    exact .answer hs
  | reward call =>
    simp only [step] at hstep
    cases hfind : a.outstanding.find? (fun r => r.call = call) with
    | none => rw [hfind] at hstep; cases hstep
    | some r =>
      rw [hfind] at hstep
      simp only [Option.ite_none_right_eq_some, Option.some.injEq] at hstep
      have hcall : r.call = call := by simpa using List.find?_some hfind
      rw [← hstep.2]
      subst hcall
      exact .reward hfind
  | report call =>
    simp only [step, Option.map_eq_some_iff] at hstep
    obtain ⟨r, hfind, rfl⟩ := hstep
    have hcall : r.call = call := by simpa using List.find?_some hfind
    subst hcall
    exact .report hfind
  | tick ms =>
    simp only [step, Option.some.injEq] at hstep
    rw [← hstep]
    exact .tick ms
  | configured config =>
    simp only [step, Option.some.injEq] at hstep
    rw [← hstep]
    exact .configured config

/-- **Every step leaves a scene alone or is a turn of it.** -/
theorem scene_step (hstep : a.step e = some b) (scene : ScenesEnum) :
    match a.heard scene e with
    | none   => b.scene scene = a.scene scene
    | some τ => (a.scene scene).turn scene (listOption a.config scene) a.now τ = some (b.scene scene) := by
  cases stepped_of_step hstep with
  | @load scene' code hcode =>
    simp only [heard, hcode]
    by_cases hsame : scene' = scene
    · subst hsame
      simp only [if_true, load, setScene_same]
      rfl
    · simp only [if_neg hsame, load]
      exact setScene_other _ _ hsame
  | refused hcode _ => simp only [heard, hcode]
  | passed hcode _ => simp only [heard, hcode]
  | @answer scene' result s hs =>
    simp only [heard]
    by_cases hsame : scene' = scene
    · subst hsame
      simp only [if_true, setScene_same]
      exact hs
    · simp only [if_neg hsame]
      exact setScene_other _ _ hsame
  | @report r hr =>
    simp only [heard, hr]
    by_cases hsame : r.scene = scene
    · subst hsame
      simp only [if_true, onAdComplete, onAdShowCompleted, setScene_same]
      rfl
    · simp only [if_neg hsame, onAdComplete, onAdShowCompleted]
      exact setScene_other _ _ hsame
  | _ => rfl

end Ads
end Riddles
