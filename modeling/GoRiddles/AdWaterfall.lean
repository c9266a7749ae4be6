import GoRiddles.AdMoves
import GoRiddles.StableSort
/-!
# AdWaterfall — a load goes down the list of options

The whole ad module runs, and one scene is followed: `course` is the load that was started last, as `Waterfall` describes
it, and the scene's own log and flags must agree with it.  A synchronous callback of the SDK is an answer that comes next:
nothing of a load call is left to run once the request is made.
-/
namespace Riddles

open Waterfall (Traffic Outcome)

/-- What a load requests as long as it gets nothing: the known options, for Open twice. -/
def Scene.waterfall (scene : ScenesEnum) (options : List MAdData) : List MAdData :=
  Scene.known options ++ if scene = .openScene then Scene.known options else []

/-- A load: what the log held before, what there is to request, and the answers it got. -/
structure Course where
  before  : List (Traffic MAdData AdObject)
  queue   : List MAdData
  answers : List (Option AdObject)

namespace Course

def log (c : Course) : List (Traffic MAdData AdObject) := c.before ++ Waterfall.course c.queue c.answers

def outcome (c : Course) : Outcome AdObject := Waterfall.outcome c.queue c.answers

def left (c : Course) : List MAdData := Waterfall.left c.queue c.answers

def answered (c : Course) (result : Option AdObject) : Course := { c with answers := c.answers ++ [result] }

/-- After an answer: the course has found the ad, which is cached, or it has found none so far and none is cached. -/
def Caches (c : Course) (now : Nat) (data : SceneData) : Option AdObject → Prop
  | some ad => c.outcome = .found ad ∧ data = ⟨now, some ad⟩
  | none    => (∀ ad, c.outcome ≠ .found ad) ∧ data.data = none

end Course

namespace Scene

/-- The scene is where the course is. -/
structure Tracks (scene : ScenesEnum) (options : List MAdData) (s : Scene) (c : Course) : Prop where
  sound : Sound s
  log   : s.log = c.log
  ended : s.pending = none → c.left = []
  going : ∀ p, s.pending = some p → ∃ o, c.left = o :: remaining scene options p

section
variable {scene : ScenesEnum} {options : List MAdData} {now : Nat} {s t : Scene} {c : Course}

theorem remaining_start : remaining scene options ⟨options, 1⟩ = waterfall scene options := by
  simp [remaining, waterfall]

theorem Tracks.loading_iff (h : Tracks scene options s c) : s.isLoading = true ↔ c.outcome = .asking := by
  rw [Course.outcome, Waterfall.outcome_eq_asking]
  constructor
  · intro hloading hleft
    obtain ⟨-, p, hpending, -⟩ := h.sound.asking hloading
    obtain ⟨o, hp⟩ := h.going p hpending
    rw [Course.left, hleft] at hp
    cases hp
  · intro hleft
    by_contra hresting
    rw [Bool.not_eq_true] at hresting
    exact hleft (h.ended (h.sound.resting hresting))

theorem tracks_of_asks (h : Asks scene options c.left s t) (hdata : s.sceneData.data = none)
    (hlog : s.log ++ c.left.head?.toList.map .request = c.log) : Tracks scene options t c where
  sound := sound_of_asks h hdata
  log   := h.log.trans hlog
  ended hnone := by
    rcases h.pending with ⟨-, hleft⟩ | ⟨p, o, hpending, -, -⟩
    · exact hleft
    · rw [hnone] at hpending
      cases hpending
  going p hp := by
    rcases h.pending with ⟨hnone, -⟩ | ⟨p', o, hpending, -, hleft⟩
    · rw [hnone] at hp
      cases hp
    · rw [hp] at hpending
      cases hpending
      exact ⟨o, hleft⟩

theorem Tracks.load (h : Tracks scene options s c) (now : Nat) :
    ((s.isLoading = true ∨ s.wanting now = false) ∧ s.loadInternal scene options now 1 = s) ∨
      (s.isLoading = false ∧ s.wanting now = true ∧
        Tracks scene options (s.loadInternal scene options now 1) ⟨s.log, waterfall scene options, []⟩) := by
  rcases load_spec scene options now h.sound.resting with
    hignored | ⟨hresting, hwanting, s', hdata, hlog, hasks⟩
  · exact Or.inl hignored
  · right
    refine ⟨hresting, hwanting, tracks_of_asks ?_ hdata ?_⟩
    · rw [Course.left, Waterfall.left_start, ← remaining_start]
      exact hasks
    · rw [Course.left, Course.log, Waterfall.left_start, Waterfall.course_start, hlog]

/-- **An answer**: a positive one ends the course with the ad cached, a negative one takes it on. -/
theorem Tracks.answer {result : Option AdObject} (h : Tracks scene options s c)
    (ht : s.answered scene options now result = some t) :
    Tracks scene options t (c.answered result) ∧ (c.answered result).Caches now t.sceneData result := by
  have hloading := h.sound.loading ht
  obtain ⟨hdata, p, hpending, hcount⟩ := h.sound.asking hloading
  obtain ⟨o, hleft⟩ := h.going p hpending
  rcases answer_spec hloading hdata hpending hcount ht with ⟨ad, rfl, rfl⟩ | ⟨rfl, hasks⟩
  · obtain ⟨hcourse, hfound⟩ := Waterfall.granted ad c.queue c.answers hleft
    have hsound : Sound ⟨false, ⟨now, some ad⟩, none, s.log ++ [.answer (some ad)]⟩ :=
      ⟨fun _ => rfl, fun hbusy => by cases hbusy⟩
    refine ⟨⟨hsound, ?_, fun _ => ?_, fun _ hp => by cases hp⟩, hfound, rfl⟩
    · simp only [Course.log, Course.answered, hcourse, h.log, List.append_assoc]
    · have hend := (Waterfall.outcome_eq_asking c.queue (c.answers ++ [some ad])).not.1 (by rw [hfound]; simp)
      exact not_not.1 hend
  · obtain ⟨hrest, hcourse, houtcome⟩ := Waterfall.refused c.queue c.answers hleft
    have hleft' : (c.answered none).left = remaining scene options p := hrest
    rw [← hleft'] at hasks
    refine ⟨tracks_of_asks hasks hdata ?_, fun ad hfound => ?_, hasks.sceneData ▸ hdata⟩
    · rw [hleft']
      simp only [h.log, Course.log, Course.answered, hcourse, List.append_assoc, List.cons_append, List.nil_append]
    · rw [Course.outcome, Course.answered, houtcome] at hfound
      split at hfound <;> cases hfound

/-- The options of a scene at rest do not matter. -/
theorem Tracks.configured (h : Tracks scene options s c) (hresting : s.isLoading = false) (options' : List MAdData) :
    Tracks scene options' s c where
  sound := h.sound
  log   := h.log
  ended := h.ended
  going p hp := by
    rw [h.sound.resting hresting] at hp
    cases hp

theorem Tracks.clear (h : Tracks scene options s c) : Tracks scene options s.clearSceneData c where
  sound := h.sound.clear
  log   := h.log
  ended := h.ended
  going := h.going

end
end Scene

/-! ## A scene of the running module -/

structure Followed where
  ads    : Ads
  course : Course

def Ads.Event.configures : Ads.Event → Bool
  | .configured _ => true
  | _             => false

namespace Followed

def start (now : Nat) (config : MAdConfig) : Followed := ⟨Ads.created now config, ⟨[], [], []⟩⟩

/-- A load call that finds neither a load going on nor an ad that will do begins a course, and an answer takes it on. -/
def courseAfter (l : Followed) (scene : ScenesEnum) : Option Scene.Turn → Course
  | some .load =>
    if (l.ads.scene scene).isLoading || !(l.ads.scene scene).wanting l.ads.now then l.course
    else ⟨(l.ads.scene scene).log, Scene.waterfall scene (listOption l.ads.config scene), []⟩
  | some (.answer result) => l.course.answered result
  | _ => l.course

/-- The ad module takes a step; the configuration stays while the scene loads. -/
def step (scene : ScenesEnum) (l : Followed) (e : Ads.Event) : Option Followed :=
  if e.configures && (l.ads.scene scene).isLoading then none
  else (l.ads.step e).map (fun b => ⟨b, l.courseAfter scene (l.ads.heard scene e)⟩)

/-- The requests and answers are those of the courses, one after the other, and the scene loads while a request is out. -/
def Agrees (scene : ScenesEnum) (l : Followed) : Prop :=
  (l.ads.scene scene).log = l.course.log ∧ ((l.ads.scene scene).isLoading = true ↔ l.course.outcome = .asking)

/-- **What a step does to the load of the scene.**  A load call is ignored or begins a course over the configured options; an
answer takes the course on, and the ad it ends with is what is cached; nothing else makes a request. -/
def Serves (scene : ScenesEnum) (l : Followed) (e : Ads.Event) (m : Followed) : Prop :=
  match l.ads.heard scene e with
  | some .load =>
    if (l.ads.scene scene).isLoading = true ∨ (l.ads.scene scene).wanting l.ads.now = false then
      m.course = l.course ∧ m.ads.scene scene = l.ads.scene scene
    else m.course = ⟨(l.ads.scene scene).log, Scene.waterfall scene (listOption l.ads.config scene), []⟩
  | some (.answer result) =>
    m.course = l.course.answered result ∧ m.course.Caches l.ads.now (m.ads.scene scene).sceneData result
  | some .clear => m.course = l.course
  | none        => m.course = l.course ∧ m.ads.scene scene = l.ads.scene scene

/-- The options of a load, as the configuration gives them: of known type, by descending index, and in the order of the
configuration where the index is the same. -/
def InOrder (config options : List MAdData) : Prop :=
  options.Pairwise (fun o o' => o'.sort ≤ o.sort) ∧
    ∀ i, options.filter (fun o => o.sort = i) = (Scene.known config).filter (fun o => o.sort = i)

theorem inOrder_listOption (config : MAdConfig) (scene : ScenesEnum) :
    InOrder (config.ofScene scene) (Scene.known (listOption config scene)) := by
  constructor
  · exact (List.pairwise_insertionSort _ _).filter _
  · intro i
    simp only [Scene.known, List.filter_filter]
    have hstable := StableSort.filter_rank MAdData.sort (config.ofScene scene) i
    have hfiltered := congrArg (List.filter (fun o => (toTypesEnum o.type).isSome)) hstable
    simp only [List.filter_filter] at hfiltered
    simpa only [listOption, Bool.and_comm] using hfiltered

example :
    (Scene.known (listOption ⟨[], [⟨[], "a".toList, "i".toList, 1⟩, ⟨[], "b".toList, "x".toList, 5⟩,
      ⟨[], "c".toList, "r".toList, 3⟩, ⟨[], "d".toList, "o".toList, 3⟩], []⟩ .rewardScene)).map MAdData.dataId =
        ["c".toList, "d".toList, "a".toList] := by
  decide

variable {scene : ScenesEnum} {l m : Followed} {e : Ads.Event}

def Kept (scene : ScenesEnum) (l : Followed) : Prop :=
  Scene.Tracks scene (listOption l.ads.config scene) (l.ads.scene scene) l.course

theorem kept_start (now : Nat) (config : MAdConfig) : Kept scene (start now config) :=
  ⟨Scene.sound_empty, rfl, fun _ => rfl, fun _ hp => by cases hp⟩

theorem Kept.agrees (h : Kept scene l) : Agrees scene l := ⟨h.log, h.loading_iff⟩

theorem step_eq_some (hstep : step scene l e = some m) :
    l.ads.step e = some m.ads ∧ m.course = l.courseAfter scene (l.ads.heard scene e) ∧
      ((l.ads.scene scene).isLoading = true → e.configures = false) := by
  unfold step at hstep
  by_cases hblocked : (e.configures && (l.ads.scene scene).isLoading) = true
  · rw [if_pos hblocked] at hstep
    cases hstep
  · rw [if_neg hblocked, Option.map_eq_some_iff] at hstep
    obtain ⟨b, hb, rfl⟩ := hstep
    refine ⟨hb, rfl, fun hloading => ?_⟩
    rw [hloading, Bool.and_true, Bool.not_eq_true] at hblocked
    exact hblocked

/-- The step, and the options it leaves the scene with. -/
theorem kept_serves (h : Kept scene l) (hstep : step scene l e = some m) :
    Scene.Tracks scene (listOption l.ads.config scene) (m.ads.scene scene) m.course ∧ Serves scene l e m := by
  obtain ⟨hads, hcourse, -⟩ := step_eq_some hstep
  have hscene := Ads.scene_step hads scene
  unfold Serves
  cases hheard : l.ads.heard scene e with
  | none =>
    rw [hheard] at hscene hcourse
    simp only [courseAfter] at hscene hcourse ⊢
    rw [hscene, hcourse]
    exact ⟨h, rfl, rfl⟩
  | some τ =>
    rw [hheard] at hscene hcourse
    cases τ with
    | load =>
      simp only [Scene.turn, Option.some.injEq] at hscene
      simp only [courseAfter] at hcourse ⊢
      rcases Scene.Tracks.load h l.ads.now with ⟨hbusy, hsame⟩ | ⟨hresting, hwanting, htracks⟩
      · rw [hsame] at hscene
        have hignored : ((l.ads.scene scene).isLoading || !(l.ads.scene scene).wanting l.ads.now) = true := by
          rcases hbusy with hbusy | hbusy <;> simp [hbusy]
        rw [if_pos hignored] at hcourse
        rw [if_pos hbusy, ← hscene, hcourse]
        exact ⟨h, rfl, rfl⟩
      · simp only [hresting, hwanting, Bool.not_true, Bool.or_self, Bool.false_eq_true, if_false] at hcourse
        simp only [hresting, hwanting, Bool.false_eq_true, Bool.true_eq_false, or_self, if_false]
        rw [← hscene, hcourse]
        exact ⟨htracks, rfl⟩
    | answer result =>
      obtain ⟨htracks, hresult⟩ := Scene.Tracks.answer h hscene
      simp only [courseAfter] at hcourse ⊢
      rw [hcourse]
      exact ⟨htracks, rfl, hresult⟩
    | clear =>
      simp only [Scene.turn, Option.some.injEq] at hscene
      simp only [courseAfter] at hcourse ⊢
      rw [← hscene, hcourse]
      exact ⟨h.clear, rfl⟩

theorem config_step {a b : Ads} (hstep : a.step e = some b) (he : e.configures = false) : b.config = a.config := by
  cases Ads.stepped_of_step hstep with
  | configured config => cases he
  | _ => rfl

theorem kept_step (h : Kept scene l) (hstep : step scene l e = some m) : Kept scene m := by
  have htracks := (kept_serves h hstep).1
  obtain ⟨hads, -, hconfig⟩ := step_eq_some hstep
  by_cases he : e.configures = true
  · have hscene := Ads.scene_step hads scene
    cases e with
    | configured config =>
      have hresting : (l.ads.scene scene).isLoading = false := by
        by_contra hloading
        rw [Bool.not_eq_false] at hloading
        rw [hconfig hloading] at he
        cases he
      refine htracks.configured ?_ _
      rw [hscene]
      exact hresting
    | _ => cases he
  · rw [Bool.not_eq_true] at he
    rw [Kept, config_step hads he]
    exact htracks

/-- **The waterfall.**  In every run of the ad module each scene goes down its configured options: a load call that finds the
scene not loading and without an ad that will do begins a course over the known options, by descending index and in the
order of the configuration, for Open twice; the requests are made one at a time, each after a negative answer to the one
before; the first positive answer ends the course, and its ad is cached; the scene loads exactly as long as a request of the
course is not answered, and until then further load calls do nothing. -/
theorem waterfall_followed (scene : ScenesEnum) (now : Nat) (config : MAdConfig) (es : List Ads.Event) :
    Machine.always (step scene) (Agrees scene) (start now config) es ∧
      Machine.along (step scene) (Serves scene) (start now config) es ∧
        ∀ config', InOrder (config'.ofScene scene) (Scene.known (listOption config' scene)) := by
  have hkept : ∀ l e m, Kept scene l → step scene l e = some m → Kept scene m := fun _ _ _ => kept_step
  refine ⟨?_, ?_, fun config' => inOrder_listOption config' scene⟩
  · exact Machine.always_mono (fun _ => Kept.agrees) es _ (Machine.always_of_inv hkept es _ (kept_start now config))
  · exact Machine.along_of_inv hkept (fun _ _ _ h hstep => (kept_serves h hstep).2) es _ (kept_start now config)

end Followed
end Riddles
