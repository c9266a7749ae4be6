import GoRiddles.BrowserMoves
/-!
# BrowserShown — the browser screen shows the current tab

Manager, tab and view model each hold a part: the top tab, the home flag and the callback, the tab and the view on the
screen.  `Coupled` says how the parts agree, and every move keeps it.
-/
namespace Riddles
namespace Browser

variable {b b' : Browser} {t : Nat} {e : Event}

/-- **The screen shows the manager's current tab**, no other tab would tell the screen of a change, and every event the
screen allows succeeds. -/
structure ShowsCurrent (b : Browser) : Prop where
  current  : ∃ t, b.m.getCurTab = .ok (some t, b.m) ∧ b.mCurTab = some t ∧
    b.addOrRemoveTabContentView = some (b.getTabContentView t) ∧ ∀ u, (b.tab u).tabCallback = some browserData → u = t
  succeeds : ∀ e, b.allows e = true → ∃ b', step b e = some b'

/-- How manager, tabs and view model agree. -/
structure Coupled (b : Browser) : Prop where
  ready   : Ready b.m
  current : ∃ t, b.mCurTab = some t ∧ b.m.topTab = some t
  holder  : ∀ u, (b.tab u).tabCallback = some browserData ↔ b.mCurTab = some u
  content : ∀ t, b.mCurTab = some t → b.addOrRemoveTabContentView = some (b.getTabContentView t)

theorem Coupled.cur (h : Coupled b) : ∃ t, b.mCurTab = some t := by
  obtain ⟨t, ht, -⟩ := h.current
  exact ⟨t, ht⟩

theorem Coupled.showsCurrent (h : Coupled b) : ShowsCurrent b := by
  obtain ⟨t, hcur, htop⟩ := h.current
  obtain ⟨x, l, htabs, -⟩ := h.ready.front
  refine ⟨⟨t, ?_, hcur, h.content t hcur, fun u hu => ?_⟩, fun e ha => ?_⟩
  · simp [TabManager.getCurTab, h.ready.live, TabManager.ensureTabs, htabs, htop]
  · have hu' := (h.holder u).1 hu
    rw [hcur, Option.some.injEq] at hu'
    exact hu'.symm
  · obtain ⟨b', hb', -⟩ := move_act h.ready h.cur ha
    exact ⟨b', by simp [step, ha, hb', Except.toOption]⟩

/-! ## Parts of a move -/

/-- Same manager, same screen, same activity; a tab keeps its home flag and its callback. -/
structure Kept (b b' : Browser) : Prop where
  m        : b'.m = b.m
  resumed  : b'.resumed = b.resumed
  observed : b'.observed = b.observed
  cur      : b'.mCurTab = b.mCurTab
  content  : b'.addOrRemoveTabContentView = b.addOrRemoveTabContentView
  home     : ∀ u, (b'.tab u).viewIsHome = (b.tab u).viewIsHome
  callback : ∀ u, (b'.tab u).tabCallback = (b.tab u).tabCallback

theorem kept_modify {f : Tab → Tab} (hhome : ∀ x, (f x).viewIsHome = x.viewIsHome)
    (hcb : ∀ x, (f x).tabCallback = x.tabCallback) (b : Browser) (t : Nat) : Kept b (b.modify t f) := by
  refine ⟨rfl, rfl, rfl, rfl, rfl, fun u => ?_, fun u => ?_⟩
  · rw [tab_modify]
    split
    · exact hhome _
    · rfl
  · rw [tab_modify]
    split
    · exact hcb _
    · rfl

theorem kept_webPause (b : Browser) (t : Nat) : Kept b (b.webPause t) := by
  obtain ⟨hm, hr, ho, hcur, hcontent, hhome, hcb⟩ := kept_modify (f := fun x => { x with paused := true }) (fun _ => rfl)
    (fun _ => rfl) b t
  exact ⟨hm, hr, ho, hcur, hcontent, hhome, hcb⟩

theorem kept_webResume (b : Browser) (t : Nat) : Kept b (b.webResume t) := by
  obtain ⟨hm, hr, ho, hcur, hcontent, hhome, hcb⟩ := kept_modify (f := fun x => { x with paused := false }) (fun _ => rfl)
    (fun _ => rfl) b t
  exact ⟨hm, hr, ho, hcur, hcontent, hhome, hcb⟩

theorem kept_onLayoutPause (b : Browser) (t : Nat) : Kept b (b.onLayoutPause t) := by
  unfold onLayoutPause
  split
  · exact ⟨rfl, rfl, rfl, rfl, rfl, fun _ => rfl, fun _ => rfl⟩
  · exact kept_webPause b t

theorem kept_onLayoutResume (b : Browser) (t : Nat) : Kept b (b.onLayoutResume t) := by
  unfold onLayoutResume
  split
  · exact ⟨rfl, rfl, rfl, rfl, rfl, fun _ => rfl, fun _ => rfl⟩
  · exact kept_webResume b t

theorem Kept.view (h : Kept b b') (t : Nat) : b'.getTabContentView t = b.getTabContentView t := by
  unfold getTabContentView
  rw [h.home]

theorem Coupled.kept (h : Coupled b) (hk : Kept b b') : Coupled b' := by
  refine ⟨hk.m ▸ h.ready, ?_, fun u => ?_, fun t ht => ?_⟩
  · rw [hk.cur, hk.m]
    exact h.current
  · rw [hk.callback, hk.cur]
    exact h.holder u
  · rw [hk.content, hk.view]
    exact h.content t (hk.cur ▸ ht)

/-- Another manager with the same top tab. -/
theorem Coupled.withManager {m' : TabManager} (h : Coupled b) (hr : Ready m') (htop : m'.topTab = b.m.topTab) :
    Coupled { b with m := m' } := by
  obtain ⟨t, hcur, ht⟩ := h.current
  exact ⟨hr, ⟨t, hcur, htop.trans ht⟩, h.holder, h.content⟩

/-- Showing the top tab couples the screen to it, if no tab but the one shown before has the screen as callback. -/
theorem coupled_initTab (hr : Ready b.m) (htop : b.m.topTab = some t)
    (hcb : ∀ u, (b.tab u).tabCallback = some browserData → b.mCurTab = some u) : Coupled (b.initTab t) := by
  have hs := initTab_shown b t
  refine ⟨hs.m ▸ hr, ⟨t, hs.cur, hs.m ▸ htop⟩, fun u => ?_, fun u hu => ?_⟩
  · rw [hs.callback, hs.cur]
    by_cases hu : u = t
    · simp [hu]
    · rw [if_neg hu]
      by_cases hc : b.mCurTab = some u
      · simp [hc, Ne.symm hu]
      · rw [if_neg hc]
        simp only [Option.some.injEq, Ne.symm hu, iff_false]
        exact fun h => hc (hcb u h)
  · cases hs.cur.symm.trans hu
    rw [hs.content, getTabContentView, getTabContentView, hs.home]

/-- Whatever happened to the current tab's view, telling the screen couples it again. -/
theorem Coupled.contentChanged {b₁ : Browser} (h : Coupled b) (hcur : b.mCurTab = some t) (hm : b₁.m = b.m)
    (hcur₁ : b₁.mCurTab = b.mCurTab) (hcb : ∀ u, (b₁.tab u).tabCallback = (b.tab u).tabCallback) :
    Coupled (b₁.contentChanged t) := by
  have hholds := (hcb t).trans ((h.holder t).2 hcur)
  unfold Browser.contentChanged
  rw [if_pos hholds]
  refine ⟨hm ▸ h.ready, ?_, fun u => ?_, fun u hu => ?_⟩
  · obtain ⟨c, hc, htop⟩ := h.current
    exact ⟨c, hcur₁.trans hc, hm ▸ htop⟩
  · have := h.holder u
    rw [← hcb u, ← hcur₁] at this
    exact this
  · cases (hcur₁.trans hcur).symm.trans hu
    rfl

theorem callback_modify_home (b : Browser) (t : Nat) (isHome : Bool) (u : Nat) :
    ((b.modify t (fun x => { x with viewIsHome := isHome })).tab u).tabCallback = (b.tab u).tabCallback := by
  rw [tab_modify]
  split <;> rfl

theorem Coupled.changeContentViewTo (h : Coupled b) (hcur : b.mCurTab = some t) (isHome : Bool) :
    Coupled (b.changeContentViewTo t isHome) := by
  cases isHome with
  | true =>
    exact h.contentChanged hcur rfl rfl
      (fun u => ((kept_webPause _ t).callback u).trans (callback_modify_home b t true u))
  | false =>
    exact h.contentChanged hcur rfl rfl
      (fun u => ((kept_webResume _ t).callback u).trans (callback_modify_home b t false u))

theorem holder_of_modify {f : Tab → Tab} (hf : ∀ x, (f x).tabCallback = none) {u : Nat}
    (hu : ((b.modify t f).tab u).tabCallback = some browserData) : (b.tab u).tabCallback = some browserData := by
  rw [tab_modify] at hu
  split at hu
  · rw [hf] at hu
    cases hu
  · exact hu

theorem holder_onLayoutCreate {u : Nat} (hu : ((b.onLayoutCreate t).tab u).tabCallback = some browserData) :
    (b.tab u).tabCallback = some browserData :=
  holder_of_modify (fun _ => rfl) hu

theorem holder_onLayoutDestroy {u : Nat} (hu : ((b.onLayoutDestroy t).tab u).tabCallback = some browserData) :
    (b.tab u).tabCallback = some browserData := by
  unfold onLayoutDestroy removeCallback at hu
  exact holder_of_modify (fun _ => rfl) hu

theorem Coupled.update {op : TabManager.Event} (h : Coupled b) (hu : Update b op b') : Coupled b' := by
  cases hu with
  | same m' ready top => exact h.withManager ready top
  | added m' event ready top =>
    -- the new tab is behind the others, so it is not the current one
    obtain ⟨t, hcur, ht⟩ := h.current
    have hne : t ≠ b.m.created := Nat.ne_of_lt (h.ready.sane.created t (h.ready.sane.top t ht))
    refine ⟨ready, ⟨t, hcur, top.trans ht⟩, fun u => ⟨fun hu => ?_, fun hu => ?_⟩, fun u hu => ?_⟩
    · exact (h.holder u).1 (holder_onLayoutCreate hu)
    · cases hcur.symm.trans hu
      rw [onLayoutCreate, tab_modify, if_neg hne]
      exact (h.holder t).2 hcur
    · cases hcur.symm.trans hu
      rw [onLayoutCreate, getTabContentView, tab_modify, if_neg hne]
      exact h.content t hcur
  | changed m' c t event ready was top =>
    have hpaused := kept_onLayoutPause { b with m := m' } c
    refine (coupled_initTab (hpaused.m ▸ ready) (hpaused.m ▸ top) (fun u hu => ?_)).kept (kept_onLayoutResume _ t)
    rw [hpaused.callback] at hu
    rw [hpaused.cur]
    exact (h.holder u).1 hu
  | removed m' r t event ready listed next top =>
    exact coupled_initTab ready top (fun u hu => (h.holder u).1 (holder_onLayoutDestroy hu))
  | removedLast m' r event ready listed top =>
    refine coupled_initTab ready top (fun u hu => ?_)
    exact (h.holder u).1 (holder_onLayoutDestroy (holder_onLayoutCreate hu))
  | resumed m' t event ready was top =>
    exact (h.withManager ready (top.trans was.symm)).kept (kept_onLayoutResume _ t)
  | paused m' t event ready was top =>
    exact (h.withManager ready (top.trans was.symm)).kept (kept_onLayoutPause _ t)

theorem Coupled.flags (h : Coupled b) (r o : Bool) : Coupled { b with resumed := r, observed := o } :=
  ⟨h.ready, h.current, h.holder, h.content⟩

theorem coupled_step (b : Browser) (e : Event) (b' : Browser) (h : Coupled b) (hs : step b e = some b') : Coupled b' := by
  cases move_of_step h.ready h.cur hs with
  | managed op event update => exact h.update update
  | idle => exact h
  | home t _ cur => exact h.changeContentViewTo cur true
  | web t _ cur => exact h.changeContentViewTo cur false
  | searched t _ cur => exact h.contentChanged cur rfl rfl (callback_modify_home b t false)
  | resumed _ _ update => exact (h.flags true b.observed).update update
  | resumedUnseen => exact h.flags true b.observed
  | paused _ _ update => exact (h.flags false b.observed).update update
  | pausedUnseen => exact h.flags false b.observed
  | stopped _ _ update => exact h.update update
  | recreated ctx _ _ update => exact (h.update update).flags _ false

theorem coupled_created (ctx : Nat) (timers : Bool) :
    ∃ b₀, initTabManager ctx timers none = .ok b₀ ∧ Coupled b₀ ∧ b₀.resumed = false ∧ b₀.observed = true := by
  refine ⟨_, rfl, ?_, rfl, rfl⟩
  refine coupled_initTab ⟨⟨fun _ => rfl, ?_, ?_, ?_⟩, rfl, ⟨0, [], rfl, rfl⟩, List.mem_singleton.2 rfl⟩ rfl (fun u hu => ?_)
  · intro hd
    cases hd
  · intro t ht
    rw [List.mem_singleton.1 ht]
    exact Nat.one_pos
  · intro t ht
    cases ht
    exact List.mem_singleton.2 rfl
  · cases holder_onLayoutCreate (b := withManager ctx timers) (t := 0) hu

/-- **The browser screen shows the current tab.**  From the creation of its manager on, whatever the tab grid, the
navigation buttons, searches and the activity's own life do, in any order. -/
theorem browser_shows_current (ctx : Nat) (timers : Bool) :
    ∃ b₀, initTabManager ctx timers none = .ok b₀ ∧ ∀ es, Machine.always step ShowsCurrent b₀ es := by
  obtain ⟨b₀, h₀, hc, -⟩ := coupled_created ctx timers
  refine ⟨b₀, h₀, fun es => ?_⟩
  exact Machine.always_mono (fun _ h => h.showsCurrent) es b₀ (Machine.always_of_inv coupled_step es b₀ hc)

end Browser
end Riddles
