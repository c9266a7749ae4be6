import GoRiddles.AdMoves
/-!
# AdCache — what becomes of a loaded ad

The report on a shown ad empties the cache of its scene, whatever is in it by then.  A loaded ad is kept until it is shown
or too old as long as what a report finds in the cache is the ad it is about.
-/
namespace Riddles
namespace Ads

variable {scene : ScenesEnum} {a b : Ads} {e : Event}

/-- What is cached for the scene was put there more than an hour ago. -/
def Old (a : Ads) (scene : ScenesEnum) : Prop := hour < a.now - (a.scene scene).sceneData.createTime

instance (a : Ads) (scene : ScenesEnum) : Decidable (a.Old scene) :=
  inferInstanceAs (Decidable (hour < a.now - (a.scene scene).sceneData.createTime))

/-- **The step throws no ad of the scene away unseen**: a cached ad that is not cached any more was passed to the SDK before,
or is old. -/
def NoneWasted (scene : ScenesEnum) (a b : Ads) : Prop :=
  ∀ ad ∈ (a.scene scene).sceneData.data, (b.scene scene).sceneData.data = some ad ∨ ad ∈ a.shown ∨ a.Old scene

/-- The report on an ad finds that ad in the cache of its scene, or nothing, or something old. -/
def ReportsCached (a : Ads) : Event → Prop
  | .report call =>
    ∀ r ∈ a.outstanding, r.call = call → ∀ ad ∈ (a.scene r.scene).sceneData.data, ad = r.ad ∨ a.Old r.scene
  | _ => True

instance (scene : ScenesEnum) (a b : Ads) : Decidable (NoneWasted scene a b) :=
  inferInstanceAs (Decidable (∀ ad ∈ (a.scene scene).sceneData.data, _))

instance (a : Ads) : ∀ e : Event, Decidable (a.ReportsCached e)
  | .report call =>
    inferInstanceAs (Decidable (∀ r ∈ a.outstanding, r.call = call → ∀ ad ∈ (a.scene r.scene).sceneData.data, _))
  | .start _ | .next | .answer _ _ | .reward _ | .tick _ | .configured _ => isTrue trivial

structure Seen (scene : ScenesEnum) (a : Ads) : Prop where
  sound : (a.scene scene).Sound
  shown : ∀ r ∈ a.outstanding, r.ad ∈ a.shown

theorem seen_created (scene : ScenesEnum) (now : Nat) (config : MAdConfig) : Seen scene (created now config) :=
  ⟨Scene.sound_empty, fun r hr => by cases hr⟩

theorem shown_step (h : ∀ r ∈ a.outstanding, r.ad ∈ a.shown) (hstep : a.step e = some b) :
    ∀ r ∈ b.outstanding, r.ad ∈ b.shown := by
  cases stepped_of_step hstep with
  | passed hcode hrefuses =>
    intro r hr
    rcases List.mem_append.1 hr with hr | hr
    · exact List.mem_append_left _ (h r hr)
    · rw [List.mem_singleton] at hr
      rw [hr]
      exact List.mem_append_right _ (List.mem_singleton_self _)
  | report hr' =>
    intro r hr
    exact h r (List.mem_filter.1 hr).1
  | _ => exact h

theorem seen_step (h : Seen scene a) (hstep : a.step e = some b) : Seen scene b := by
  refine ⟨?_, shown_step h.shown hstep⟩
  have hscene := scene_step hstep scene
  cases hheard : a.heard scene e with
  | none =>
    rw [hheard] at hscene
    simp only at hscene
    rw [hscene]
    exact h.sound
  | some τ =>
    rw [hheard] at hscene
    exact Scene.sound_turn h.sound hscene

theorem report_of_heard (hheard : a.heard scene e = some .clear) :
    ∃ r ∈ a.outstanding, e = .report r.call ∧ r.scene = scene := by
  cases e with
  | report call =>
    simp only [heard] at hheard
    cases hfind : a.outstanding.find? (fun r => r.call = call) with
    | none =>
      rw [hfind] at hheard
      cases hheard
    | some r =>
      rw [hfind] at hheard
      simp only [Option.ite_none_right_eq_some] at hheard
      have hcall : r.call = call := by simpa using List.find?_some hfind
      exact ⟨r, List.mem_of_find?_eq_some hfind, by rw [hcall], hheard.1⟩
  | next =>
    simp only [heard] at hheard
    split at hheard
    · simp at hheard
    · cases hheard
  | answer scene' result => simp [heard] at hheard
  | _ => cases hheard

/-- **One step**: a report that finds its own ad wastes none, and nothing else does. -/
theorem noneWasted_step (h : Seen scene a) (hcached : a.ReportsCached e) (hstep : a.step e = some b) :
    NoneWasted scene a b := by
  intro ad had
  have hscene := scene_step hstep scene
  by_cases hkept : (b.scene scene).sceneData.data = some ad
  · exact Or.inl hkept
  right
  cases hheard : a.heard scene e with
  | none =>
    rw [hheard] at hscene
    simp only at hscene
    rw [hscene] at hkept
    exact absurd had hkept
  | some τ =>
    rw [hheard] at hscene
    rcases Scene.cleared_or_expired h.sound hscene had hkept with rfl | hexpired
    · obtain ⟨r, hr, rfl, rfl⟩ := report_of_heard hheard
      rcases hcached r hr rfl ad had with rfl | hold
      · exact Or.inl (h.shown r hr)
      · exact Or.inr hold
    · simp only [Scene.expired, Bool.and_eq_true, decide_eq_true_eq] at hexpired
      exact Or.inr hexpired.2

/-- **A loaded ad is never thrown away unseen** in a run in which the report on an ad finds that ad in the cache of its
scene, or nothing, or something more than an hour old. -/
theorem loaded_ads_seen (scene : ScenesEnum) (now : Nat) (config : MAdConfig) (es : List Event)
    (hes : Machine.along step (fun a e _ => a.ReportsCached e) (created now config) es) :
    Machine.along step (fun a _ b => NoneWasted scene a b) (created now config) es :=
  Machine.along_of_along (fun _ _ _ h hcached hstep => ⟨seen_step h hstep, noneWasted_step h hcached hstep⟩) es _
    (seen_created scene now config) hes

/-- One rewarded ad configured for the Reward scene. -/
def oneReward : MAdConfig := ⟨[], [⟨"admob".toList, "unit".toList, "r".toList, 1⟩], []⟩

def adX : AdObject := ⟨0, some .rewardAd⟩

def adY : AdObject := ⟨1, some .rewardAd⟩

/-- An ad is loaded, shown and rewarded, and dismissed within the hour. -/
def shownInTime : List Event :=
  [.start [.load .rewardScene], .next, .answer .rewardScene (some adX),
    .start [.showAd .rewardScene adX true [.load .rewardScene] [.load .rewardScene]], .next, .reward 0, .next, .report 0,
    .next,
    .answer .rewardScene (some adY)]

theorem loaded_ads_seen_in_time :
    (Machine.run step (created 1 oneReward) shownInTime).isSome ∧
      Machine.along step (fun a _ b => NoneWasted .rewardScene a b) (created 1 oneReward) shownInTime :=
  ⟨by decide, loaded_ads_seen .rewardScene 1 oneReward shownInTime (by decide)⟩

/-- The hour is over while the ad is on screen, and the reward's callback loads. -/
def shownTooLong : List Event :=
  [.start [.load .rewardScene], .next, .answer .rewardScene (some adX),
    .start [.showAd .rewardScene adX true [.load .rewardScene] []], .next, .tick (hour + 1), .reward 0, .next,
    .answer .rewardScene (some adY)]

/-- **An ad is thrown away unseen.**  The one on screen is too old for the load of the reward's callback, which throws it
away and loads another; the report on the first then empties the cache of the second. -/
theorem loaded_ad_unseen :
    ∃ a b, Machine.run step (created 1 oneReward) shownTooLong = some a ∧
      (a.scene .rewardScene).sceneData = ⟨a.now, some adY⟩ ∧ adY ∉ a.shown ∧ a.step (.report 0) = some b ∧
        (b.scene .rewardScene).sceneData.data = none ∧ ¬ NoneWasted .rewardScene a b := by
  refine ⟨_, _, rfl, rfl, ?_, rfl, rfl, ?_⟩
  · decide
  · decide

end Ads
end Riddles
