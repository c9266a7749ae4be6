import GoRiddles.BrowserShown
/-!
# BrowserPaused — when the visible page is frozen

A web page runs if its view is not paused and the timers of the process run.  The activity that made the manager observes
it and has the shown page resumed whenever it is resumed itself; an activity created later does not.  A search from the
home page and the removal of the current tab bring up a page without resuming it.
-/
namespace Riddles
namespace Browser

variable {b b' : Browser} {t : Nat} {e : Event}

/-- The web view of the tab is not paused and the timers run. -/
def Runs (b : Browser) (t : Nat) : Prop := (b.tab t).paused = false ∧ b.timers = true

instance (b : Browser) (t : Nat) : Decidable (b.Runs t) := inferInstanceAs (Decidable (_ ∧ _))

/-- **The visible page is not frozen.** -/
def VisiblePageRuns (b : Browser) : Prop :=
  b.resumed = true → ∀ t ∈ b.mCurTab, (b.tab t).viewIsHome = false → b.Runs t

instance (b : Browser) : Decidable b.VisiblePageRuns := inferInstanceAs (Decidable (_ → _))

/-- The page that is shown will not be resumed again by the activity: it is resumed already, or does not observe the
manager. -/
def Unattended (b : Browser) : Prop := b.resumed = true ∨ b.observed = false

instance (b : Browser) : Decidable b.Unattended := inferInstanceAs (Decidable (_ ∨ _))

/-- The activity is created again only while no frozen page is shown; and where the shown page will not be resumed, a
search from the home page and the removal of the current tab bring up a page that runs. -/
def BringsUpRunning (b : Browser) : Event → Prop
  | .recreate _ => ∀ t ∈ b.mCurTab, (b.tab t).viewIsHome = false → b.Runs t
  | .onNewIntent true => b.Unattended → ∀ t ∈ b.mCurTab, (b.tab t).viewIsHome = true → b.Runs t
  | .removeTab r =>
    b.Unattended → b.mCurTab = some r → ∀ t ∈ (b.m.tabs.erase r).head?, (b.tab t).viewIsHome = false → b.Runs t
  | _ => True

instance (b : Browser) : (e : Event) → Decidable (b.BringsUpRunning e)
  | .recreate _ => inferInstanceAs (Decidable (∀ t ∈ b.mCurTab, _))
  | .onNewIntent true => inferInstanceAs (Decidable (_ → _))
  | .removeTab _ => inferInstanceAs (Decidable (_ → _))
  | .addTab | .changeTab _ | .openGrid _ | .closeGrid _ | .onNavBack _ | .onNavForward | .onNavHome | .onBackPressed _
  | .onNewIntent false | .onPostResume | .onPause | .onStop => isTrue trivial

/-- What every step keeps: a page nobody will resume runs. -/
structure Awake (b : Browser) : Prop where
  coupled : Coupled b
  runs    : b.Unattended → ∀ t, b.mCurTab = some t → (b.tab t).viewIsHome = false → b.Runs t

theorem Awake.visiblePageRuns (h : Awake b) : b.VisiblePageRuns :=
  fun hr t ht hweb => h.runs (.inl hr) t ht hweb

/-! ## Pages -/

theorem runs_webResume (b : Browser) (t : Nat) : (b.webResume t).Runs t := by
  simp [Runs, webResume, modify]

theorem runs_onLayoutResume (hweb : ((b.onLayoutResume t).tab t).viewIsHome = false) : (b.onLayoutResume t).Runs t := by
  rw [(kept_onLayoutResume b t).home] at hweb
  rw [onLayoutResume, hweb, if_neg Bool.false_ne_true]
  exact runs_webResume b t

theorem contentChanged_frame (b : Browser) (t : Nat) :
    (b.contentChanged t).mCurTab = b.mCurTab ∧ (b.contentChanged t).resumed = b.resumed ∧
      (b.contentChanged t).observed = b.observed := by
  unfold contentChanged
  split <;> exact ⟨rfl, rfl, rfl⟩

theorem runs_contentChanged (b : Browser) (t u : Nat) : (b.contentChanged t).Runs u ↔ b.Runs u := by
  unfold contentChanged
  split <;> rfl

theorem home_contentChanged (b : Browser) (t u : Nat) :
    ((b.contentChanged t).tab u).viewIsHome = (b.tab u).viewIsHome := by
  unfold contentChanged
  split <;> rfl

theorem home_changeContentViewTo (b : Browser) (t : Nat) (isHome : Bool) :
    ((b.changeContentViewTo t isHome).tab t).viewIsHome = isHome := by
  unfold changeContentViewTo
  rw [home_contentChanged]
  cases isHome <;> simp [webPause, webResume, modify]

theorem cur_changeContentViewTo (b : Browser) (t : Nat) (isHome : Bool) :
    (b.changeContentViewTo t isHome).mCurTab = b.mCurTab := by
  unfold changeContentViewTo
  rw [(contentChanged_frame _ t).1]
  cases isHome <;> rfl

theorem runs_changeContentViewTo_web (b : Browser) (t : Nat) : (b.changeContentViewTo t false).Runs t := by
  unfold changeContentViewTo
  rw [runs_contentChanged]
  exact runs_webResume _ t

theorem Shown.runs (h : Shown b t b') {u : Nat} : b'.Runs u ↔ b.Runs u := by
  unfold Runs
  rw [h.paused, h.timers]

theorem removed_tab (b : Browser) (r u : Nat) :
    ((b.onLayoutDestroy r).tab u).viewIsHome = (b.tab u).viewIsHome ∧ ((b.onLayoutDestroy r).Runs u ↔ b.Runs u) := by
  unfold Runs onLayoutDestroy removeCallback
  rw [tab_modify]
  split <;> exact ⟨rfl, Iff.rfl⟩

/-! ## Moves -/

theorem Update.flags {op : TabManager.Event} (h : Update b op b') : b'.resumed = b.resumed ∧ b'.observed = b.observed := by
  cases h with
  | same | added => exact ⟨rfl, rfl⟩
  | changed m' c t =>
    have hp := kept_onLayoutPause { b with m := m' } c
    have hi := initTab_shown ({ b with m := m' }.onLayoutPause c) t
    have hr := kept_onLayoutResume (({ b with m := m' }.onLayoutPause c).initTab t) t
    exact ⟨hr.resumed.trans (hi.resumed.trans hp.resumed), hr.observed.trans (hi.observed.trans hp.observed)⟩
  | removed m' r t | removedLast m' r =>
    exact ⟨(initTab_shown _ _).resumed, (initTab_shown _ _).observed⟩
  | resumed m' t => exact ⟨(kept_onLayoutResume _ t).resumed, (kept_onLayoutResume _ t).observed⟩
  | paused m' t => exact ⟨(kept_onLayoutPause _ t).resumed, (kept_onLayoutPause _ t).observed⟩

/-- The current tab's page runs once the tab is resumed. -/
theorem runs_resumed {m' : TabManager} {t u : Nat} (htop : some t = b.mCurTab)
    (hcur : ({ b with m := m' }.onLayoutResume t).mCurTab = some u)
    (hweb : (({ b with m := m' }.onLayoutResume t).tab u).viewIsHome = false) :
    ({ b with m := m' }.onLayoutResume t).Runs u := by
  rw [(kept_onLayoutResume _ t).cur] at hcur
  have htu : t = u := Option.some.inj (htop.trans hcur)
  subst htu
  exact runs_onLayoutResume hweb

/-- After a grid's operation the current tab runs, unless it was removed. -/
theorem Awake.update {op : TabManager.Event} (h : Awake b) (hu : Update b op b') (hop : op ≠ .onLayoutPause)
    (hq : ∀ r, op = .removeTab r → b.BringsUpRunning (.removeTab r)) : Awake b' := by
  refine ⟨h.coupled.update hu, fun hun t hcur hweb => ?_⟩
  obtain ⟨hres, hobs⟩ := hu.flags
  have hun' : b.Unattended := by
    unfold Unattended at hun ⊢
    rw [← hres, ← hobs]
    exact hun
  obtain ⟨c, hc, htop⟩ := h.coupled.current
  cases hu with
  | same m' => exact h.runs hun' t hcur hweb
  | added m' =>
    have hct : c = t := Option.some.inj (hc.symm.trans hcur)
    subst hct
    have hne : c ≠ b.m.created := Nat.ne_of_lt (h.coupled.ready.sane.created c (h.coupled.ready.sane.top c htop))
    have htab : ({ b with m := m' }.onLayoutCreate b.m.created).tab c = b.tab c := by
      rw [onLayoutCreate, tab_modify, if_neg hne]
    rw [htab] at hweb
    obtain ⟨hp, ht⟩ := h.runs hun' c hc hweb
    exact ⟨htab ▸ hp, ht⟩
  | changed m' c' t' =>
    rw [(kept_onLayoutResume _ t').cur, (initTab_shown _ t').cur, Option.some.injEq] at hcur
    subst hcur
    exact runs_onLayoutResume hweb
  | removed m' r t' event _ listed next =>
    have hs := initTab_shown ({ b with m := m' }.onLayoutDestroy r) t'
    have hd := removed_tab { b with m := m' } r t'
    rw [hs.cur, Option.some.injEq] at hcur
    subst hcur
    rw [hs.home, hd.1] at hweb
    rw [hs.runs, hd.2]
    by_cases hr : b.mCurTab = some r
    · exact hq r event hun' hr t' next hweb
    · -- a tab behind the current one is removed, and the current one stays in front
      obtain ⟨x, l, htabs, hx⟩ := h.coupled.ready.front
      have hcx : c = x := Option.some.inj (htop.symm.trans hx)
      have hxr : x ≠ r := fun hxr => hr (by rw [hc, hcx, hxr])
      rw [htabs, List.erase_cons_tail (by simpa using hxr), List.head?_cons, Option.some.injEq] at next
      exact h.runs hun' t' (by rw [hc, hcx, next]) hweb
  | removedLast m' r =>
    have hs := initTab_shown (({ b with m := m' }.onLayoutDestroy r).onLayoutCreate b.m.created) b.m.created
    rw [hs.cur, Option.some.injEq] at hcur
    subst hcur
    rw [hs.home, onLayoutCreate, tab_modify, if_pos rfl] at hweb
    cases hweb
  | resumed m' t' _ _ was => exact runs_resumed (was.symm.trans (htop.trans hc.symm)) hcur hweb
  | paused m' t' event => exact absurd event hop

theorem awake_step (b : Browser) (e : Event) (b' : Browser) (h : Awake b) (hq : b.BringsUpRunning e)
    (hs : step b e = some b') : Awake b' := by
  have hcoupled := coupled_step b e b' h.coupled hs
  cases move_of_step h.coupled.ready h.coupled.cur hs with
  | managed op event update =>
    refine h.update update ?_ ?_
    · rintro rfl
      cases e <;> cases event
    · rintro r rfl
      cases e <;> cases event
      exact hq
  | idle => exact h
  | home t _ cur =>
    refine ⟨hcoupled, fun _ u hu hweb => ?_⟩
    have htu : t = u := Option.some.inj (cur.symm.trans ((cur_changeContentViewTo b t true).symm.trans hu))
    subst htu
    rw [home_changeContentViewTo] at hweb
    cases hweb
  | web t _ cur =>
    refine ⟨hcoupled, fun _ u hu _ => ?_⟩
    have htu : t = u := Option.some.inj (cur.symm.trans ((cur_changeContentViewTo b t false).symm.trans hu))
    subst htu
    exact runs_changeContentViewTo_web b t
  | searched t event cur home =>
    subst event
    have hframe := contentChanged_frame (b.modify t (fun x => { x with viewIsHome := false })) t
    refine ⟨hcoupled, fun hun u hu _ => ?_⟩
    have htu : t = u := Option.some.inj (cur.symm.trans (hframe.1.symm.trans hu))
    subst htu
    rw [runs_contentChanged]
    rw [Unattended, hframe.2.1, hframe.2.2] at hun
    have hrun := hq hun t cur home
    refine ⟨?_, hrun.2⟩
    rw [tab_modify, if_pos rfl]
    exact hrun.1
  | resumed _ _ update =>
    obtain ⟨c, hc, htop⟩ := h.coupled.current
    refine ⟨hcoupled, fun _ u hu hweb => ?_⟩
    cases update with
    | resumed m' t _ _ was => exact runs_resumed (was.symm.trans (htop.trans hc.symm)) hu hweb
    | same _ _ _ _ quiet => exact absurd rfl quiet
    | added _ event | changed _ _ _ event | removed _ _ _ event | removedLast _ _ event | paused _ _ event => cases event
  | resumedUnseen event unseen => exact ⟨hcoupled, fun _ => h.runs (.inr unseen)⟩
  | paused _ seen update =>
    obtain ⟨hres, hobs⟩ := update.flags
    refine ⟨hcoupled, fun hun => ?_⟩
    rcases hun with hun | hun
    · cases hres.symm.trans hun
    · cases hun.symm.trans (hobs.trans seen)
  | pausedUnseen event unseen => exact ⟨hcoupled, fun _ => h.runs (.inr unseen)⟩
  | stopped _ _ update =>
    exact h.update update (by simp) (fun r hr => by cases hr)
  | recreated ctx event was update =>
    subst event
    refine ⟨hcoupled, fun _ u hu hweb => ?_⟩
    cases update with
    | same m' => exact hq u hu hweb
    | added _ event | changed _ _ _ event | removed _ _ _ event | removedLast _ _ event | resumed _ _ event
    | paused _ _ event => cases event

/-- **The visible page is never frozen** in a run in which the activity is created again only while no frozen page is
shown, and a page that nobody will resume is brought up running. -/
theorem visible_page_runs (ctx : Nat) (timers : Bool) (b₀ : Browser) (h₀ : initTabManager ctx timers none = .ok b₀)
    (es : List Event) (hes : Machine.along step (fun b e _ => b.BringsUpRunning e) b₀ es) :
    Machine.always step VisiblePageRuns b₀ es := by
  obtain ⟨b₁, h₁, hcoupled, hres, hobs⟩ := coupled_created ctx timers
  cases h₀.symm.trans h₁
  have hawake : Awake b₀ := by
    refine ⟨hcoupled, fun hun => ?_⟩
    rcases hun with hun | hun
    · cases hres.symm.trans hun
    · cases hun.symm.trans hobs
  exact Machine.always_mono (fun _ h => h.visiblePageRuns) es b₀ (Machine.always_of_along awake_step es b₀ hawake hes)

/-- The activity is created again while the home page is shown, and the web page is opened afterwards. -/
theorem visible_page_runs_recreated :
    ∃ b₀, initTabManager 0 true none = .ok b₀ ∧
      (Machine.run step b₀ [.onPostResume, .onNavForward, .onNavHome, .onPause, .recreate 1, .onPostResume,
        .onNavForward]).isSome ∧
      Machine.always step VisiblePageRuns b₀
        [.onPostResume, .onNavForward, .onNavHome, .onPause, .recreate 1, .onPostResume, .onNavForward] := by
  obtain ⟨b₀, h₀⟩ : ∃ b₀, initTabManager 0 true none = .ok b₀ := ⟨_, rfl⟩
  refine ⟨b₀, h₀, ?_, visible_page_runs 0 true b₀ h₀ _ ?_⟩
  · cases h₀
    decide
  · cases h₀
    decide

/-- **A page is frozen by creating the activity again.**  The old activity pauses the page it shows; the new one does not
observe the manager, so its resume reaches no tab. -/
theorem page_frozen_recreated :
    ∃ b₀ b, initTabManager 0 true none = .ok b₀ ∧
      Machine.run step b₀ [.onPostResume, .onNavForward, .onPause, .recreate 1, .onPostResume] = some b ∧
      b.resumed = true ∧ b.mCurTab = some 0 ∧ (b.tab 0).viewIsHome = false ∧ (b.tab 0).paused = true ∧
      b.timers = false ∧ ¬ b.VisiblePageRuns := by
  refine ⟨_, _, rfl, rfl, rfl, rfl, rfl, rfl, rfl, ?_⟩
  decide

end Browser
end Riddles
