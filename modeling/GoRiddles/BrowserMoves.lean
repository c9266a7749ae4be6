import GoRiddles.Browser
import GoRiddles.Machine
/-!
# BrowserMoves — what an operation does to the browser screen

`Update` lists what an operation of the manager does once its calls have been received, `Move` what an event does.
`Ready` is what the screen needs of its manager and every move keeps.
-/
namespace Riddles
namespace Browser

variable {b b' : Browser} {t u : Nat}

theorem tab_modify (b : Browser) (t u : Nat) (f : Tab → Tab) :
    (b.modify t f).tab u = if u = t then f (b.tab u) else b.tab u := by
  by_cases h : u = t
  · subst h
    simp [modify]
  · simp [modify, h]

/-! ## The tab that `BrowserData` is the callback of -/

/-- What `initTab` leaves. -/
structure Shown (b : Browser) (t : Nat) (b' : Browser) : Prop where
  m        : b'.m = b.m
  timers   : b'.timers = b.timers
  resumed  : b'.resumed = b.resumed
  observed : b'.observed = b.observed
  home     : ∀ u, (b'.tab u).viewIsHome = (b.tab u).viewIsHome
  paused   : ∀ u, (b'.tab u).paused = (b.tab u).paused
  cur      : b'.mCurTab = some t
  content  : b'.addOrRemoveTabContentView = some (b.getTabContentView t)
  callback : ∀ u, (b'.tab u).tabCallback =
    if u = t then some browserData else if b.mCurTab = some u then none else (b.tab u).tabCallback

theorem initTab_shown (b : Browser) (t : Nat) : Shown b t (b.initTab t) := by
  unfold initTab
  cases hcur : b.mCurTab with
  | none =>
    refine ⟨rfl, rfl, rfl, rfl, fun u => ?_, fun u => ?_, rfl, rfl, fun u => ?_⟩ <;>
      simp only [setCallback, tab_modify] <;> split <;> simp_all
  | some c =>
    refine ⟨rfl, rfl, rfl, rfl, fun u => ?_, fun u => ?_, rfl, ?_, fun u => ?_⟩
    · simp only [setCallback, removeCallback, tab_modify]
      split <;> split <;> rfl
    · simp only [setCallback, removeCallback, tab_modify]
      split <;> split <;> rfl
    · simp only [setCallback, modify, getTabContentView, removeCallback, Function.update_apply]
      split <;> simp_all
    · simp only [setCallback, removeCallback, tab_modify, hcur, Option.some.injEq]
      by_cases hu : u = t
      · simp [hu]
      · by_cases hc : u = c
        · subst hc
          simp [hu]
        · simp [hu, hc, Ne.symm hc]

theorem initTab_initTab (b : Browser) (t : Nat) : (b.initTab t).initTab t = b.initTab t := by
  unfold initTab
  cases hcur : b.mCurTab with
  | none => simp [setCallback, removeCallback, modify, getTabContentView]
  | some c =>
    simp only [setCallback, removeCallback, modify, getTabContentView, Function.update_idem, Function.update_self]
    rfl

/-! ## Receiving calls -/

theorem foldl_receive_ignored {α : Type} {f : α → Call} (hf : ∀ b a, receive b (f a) = b) (l : List α) (b : Browser) :
    (l.map f).foldl receive b = b := by
  induction l with
  | nil => rfl
  | cons a l ih => rw [List.map_cons, List.foldl_cons, hf, ih]

theorem foldl_receive_shown (t : Nat) (l : List Nat) (b : Browser) :
    (l.map (fun cb => Call.onCurTabChanged cb t)).foldl receive (b.initTab t) = b.initTab t := by
  induction l with
  | nil => rfl
  | cons cb l ih =>
    rw [List.map_cons, List.foldl_cons, receive]
    by_cases h : cb = browserData
    · rw [if_pos h, initTab_initTab, ih]
    · rw [if_neg h, ih]

/-- However many callbacks are told, `BrowserData` shows the tab. -/
theorem foldl_receive_curTabChanged (t : Nat) (l : List Nat) (b : Browser) (h : browserData ∈ l) :
    (l.map (fun cb => Call.onCurTabChanged cb t)).foldl receive b = b.initTab t := by
  induction l with
  | nil => cases h
  | cons cb l ih =>
    rw [List.map_cons, List.foldl_cons, receive]
    by_cases hcb : cb = browserData
    · rw [if_pos hcb, foldl_receive_shown]
    · rw [if_neg hcb]
      exact ih ((List.mem_cons.1 h).resolve_left (Ne.symm hcb))

/-! ## Operations of the manager -/

/-- The manager is alive, shows the first of its tabs, and tells `BrowserData`. -/
structure Ready (m : TabManager) : Prop where
  sane       : m.Sane
  live       : m.isDestroyed = false
  front      : ∃ x l, m.tabs = x :: l ∧ m.topTab = some x
  registered : browserData ∈ m.manageCallback

/-- The operations that reach the manager of a screen that is not cleared. -/
def Operation (m : TabManager) : TabManager.Event → Prop
  | .addTab | .removeTab _ | .changeContext _ | .onLayoutResume | .onLayoutPause | .onLayoutStop | .setCallback _ => True
  | .changeTab t => t < m.created
  | .removeCallback cb => cb ≠ browserData
  | .getCurTab | .destroy => False

inductive Update (b : Browser) (e : TabManager.Event) : Browser → Prop
  | same (m' : TabManager) (ready : Ready m') (top : m'.topTab = b.m.topTab) (only : ∀ r, e = .removeTab r → r ∉ b.m.tabs)
      (quiet : e ≠ .onLayoutResume) : Update b e { b with m := m' }
  | added (m' : TabManager) (event : e = .addTab) (ready : Ready m') (top : m'.topTab = b.m.topTab) :
      Update b e ({ b with m := m' }.onLayoutCreate b.m.created)
  | changed (m' : TabManager) (c t : Nat) (event : e = .changeTab t) (ready : Ready m') (was : b.m.topTab = some c)
      (top : m'.topTab = some t) :
      Update b e ((({ b with m := m' }.onLayoutPause c).initTab t).onLayoutResume t)
  | removed (m' : TabManager) (r t : Nat) (event : e = .removeTab r) (ready : Ready m') (listed : r ∈ b.m.tabs)
      (next : (b.m.tabs.erase r).head? = some t) (top : m'.topTab = some t) :
      Update b e (({ b with m := m' }.onLayoutDestroy r).initTab t)
  | removedLast (m' : TabManager) (r : Nat) (event : e = .removeTab r) (ready : Ready m') (listed : r ∈ b.m.tabs)
      (top : m'.topTab = some b.m.created) :
      Update b e ((({ b with m := m' }.onLayoutDestroy r).onLayoutCreate b.m.created).initTab b.m.created)
  | resumed (m' : TabManager) (t : Nat) (event : e = .onLayoutResume) (ready : Ready m') (was : b.m.topTab = some t)
      (top : m'.topTab = some t) : Update b e ({ b with m := m' }.onLayoutResume t)
  | paused (m' : TabManager) (t : Nat) (event : e = .onLayoutPause) (ready : Ready m') (was : b.m.topTab = some t)
      (top : m'.topTab = some t) : Update b e ({ b with m := m' }.onLayoutPause t)

theorem manage_of_tells {e : TabManager.Event} {m' : TabManager} {cs : List Call} (hact : b.m.act e = .ok m')
    (h : m'.calls = b.m.calls ++ cs) : b.manage e = .ok (cs.foldl receive { b with m := m' }) := by
  rw [manage, hact]
  simp only [Except.map, received, h, List.drop_left]

theorem Ready.top (h : Ready b.m) : ∃ t, b.m.topTab = some t := by
  obtain ⟨x, l, -, htop⟩ := h.front
  exact ⟨x, htop⟩

/-- The manager after an operation, from what the operation leaves of it. -/
theorem ready_of_shift {m m' : TabManager} {e : TabManager.Event} (h : Ready m) (hs : TabManager.Shift m e m')
    (hop : Operation m e) (hreg : browserData ∈ m'.manageCallback) : Ready m' := by
  have hsane : m'.Sane := by
    apply hs.sane h.sane
    rintro t rfl
    exact hop
  obtain ⟨x, l, htabs, htop⟩ := h.front
  cases hs with
  | quiet alive _ tabs top => exact ⟨hsane, alive.1.trans h.live, ⟨x, l, tabs.trans htabs, top.trans htop⟩, hreg⟩
  | first _ event =>
    rw [event] at hop
    exact hop.elim
  | added alive _ _ tabs top =>
    exact ⟨hsane, alive.1.trans h.live, ⟨x, l ++ [m.created], by rw [tabs, htabs]; rfl, top.trans htop⟩, hreg⟩
  | changed alive t c _ _ _ _ tabs top => exact ⟨hsane, alive.1.trans h.live, ⟨t, _, tabs, top⟩, hreg⟩
  | removed alive t _ _ _ left tabs top =>
    obtain ⟨y, l', hl'⟩ := List.exists_cons_of_ne_nil left
    exact ⟨hsane, alive.1.trans h.live, ⟨y, l', tabs.trans hl', by rw [top, hl']; rfl⟩, hreg⟩
  | removedLast alive t _ _ _ _ tabs top => exact ⟨hsane, alive.1.trans h.live, ⟨_, _, tabs, top⟩, hreg⟩
  | destroyed event =>
    rw [event] at hop
    exact hop.elim

theorem update_addTab (h : Ready b.m) : ∃ b', b.manage .addTab = .ok b' ∧ Update b .addTab b' := by
  obtain ⟨m', hm', hshift⟩ := TabManager.addTab_spec h.sane
  have htells := TabManager.addTab_tells h.sane h.live hm'
  have hready := ready_of_shift h hshift trivial (htells.callbacks ▸ h.registered)
  refine ⟨_, manage_of_tells hm' htells.calls, ?_⟩
  rw [List.foldl_cons, foldl_receive_ignored (fun _ _ => rfl)]
  refine .added m' rfl hready ?_
  cases hshift with
  | quiet _ _ _ top => exact top
  | added _ _ _ _ top => exact top
  | first _ event | changed _ _ _ event | removed _ _ event | removedLast _ _ event | destroyed event => cases event

theorem update_changeTab (h : Ready b.m) (ht : t < b.m.created) :
    ∃ b', b.manage (.changeTab t) = .ok b' ∧ Update b (.changeTab t) b' := by
  obtain ⟨c, hc⟩ := h.top
  have hact : b.m.act (.changeTab t) = .ok (b.m.changeTab t) := rfl
  by_cases hne : c = t
  · -- the tab is the current one already
    have hsame : b.m.changeTab t = b.m := by
      unfold TabManager.changeTab
      simp [h.live, hc, hne]
    rw [hsame] at hact
    refine ⟨_, manage_of_tells hact (List.append_nil _).symm, ?_⟩
    exact .same b.m h rfl (fun _ he => by cases he) (fun he => by cases he)
  · have htells := TabManager.changeTab_tells h.live hc hne
    have hshift := TabManager.changeTab_spec (m := b.m) t
    have hready := ready_of_shift h hshift ht (htells.callbacks ▸ h.registered)
    refine ⟨_, manage_of_tells hact htells.calls, ?_⟩
    rw [List.foldl_cons, List.foldl_append, foldl_receive_curTabChanged t _ _ h.registered]
    refine .changed _ c t rfl hready hc ?_
    simp [TabManager.changeTab, h.live, hc, hne, TabManager.call, TabManager.curTabChanged]

theorem update_removeTab (h : Ready b.m) (r : Nat) :
    ∃ b', b.manage (.removeTab r) = .ok b' ∧ Update b (.removeTab r) b' := by
  obtain ⟨m', hm', hshift⟩ := TabManager.removeTab_spec h.sane r
  by_cases hr : r ∈ b.m.tabs
  · obtain ⟨t, ht⟩ : ∃ t, m'.topTab = some t := by
      cases hshift with
      | quiet _ _ _ top => exact ⟨_, top.trans h.top.choose_spec⟩
      | removed _ _ _ _ _ left _ top =>
        obtain ⟨y, l', hl'⟩ := List.exists_cons_of_ne_nil left
        exact ⟨y, by rw [top, hl']; rfl⟩
      | removedLast _ _ _ _ _ _ _ top => exact ⟨_, top⟩
      | first _ event | added _ event | changed _ _ _ event | destroyed event => cases event
    have htells := TabManager.removeTab_tells h.sane h.live hr hm' ht
    have hready := ready_of_shift h hshift trivial (htells.callbacks ▸ h.registered)
    refine ⟨_, manage_of_tells hm' htells.calls, ?_⟩
    rw [List.foldl_cons, List.foldl_append, List.foldl_append, foldl_receive_ignored (fun _ _ => rfl),
      foldl_receive_curTabChanged t _ _ h.registered]
    cases hshift with
    | quiet _ idle =>
      rcases idle with hd | hnot
      · rw [h.live] at hd
        cases hd
      · exact absurd hr hnot
    | removed _ _ event _ _ left _ top =>
      cases event
      rw [if_neg left]
      exact .removed m' r t rfl hready hr (top ▸ ht) ht
    | removedLast _ _ event _ _ left _ top =>
      cases event
      rw [if_pos left]
      cases top.symm.trans ht
      exact .removedLast m' r rfl hready hr top
    | first _ event | added _ event | changed _ _ _ event | destroyed event => cases event
  · -- a tab that is not listed is not removed
    have hsame : b.m.removeTab r = .ok b.m := by
      unfold TabManager.removeTab
      simp [h.live, hr]
    have hact : b.m.act (.removeTab r) = .ok b.m := hsame
    refine ⟨_, manage_of_tells hact (List.append_nil _).symm, ?_⟩
    exact .same b.m h rfl (fun r' he => by cases he; exact hr) (fun he => by cases he)

/-- The manager after an operation that makes calls but moves no tab. -/
theorem ready_of_call {m m' : TabManager} {e : TabManager.Event} (h : Ready m) (hact : m.act e = .ok m')
    (hop : Operation m e) (hreg : browserData ∈ m'.manageCallback) : Ready m' := by
  obtain ⟨m₁, hm₁, hshift⟩ := TabManager.act_spec h.sane e
  cases hact.symm.trans hm₁
  exact ready_of_shift h hshift hop hreg

theorem update_same {e : TabManager.Event} (m' : TabManager) (cs : List Call) (h : Ready b.m)
    (hact : b.m.act e = .ok m') (hop : Operation b.m e) (hreg : browserData ∈ m'.manageCallback)
    (hcalls : m'.calls = b.m.calls ++ cs) (hcs : ∀ b, cs.foldl receive b = b) (htop : m'.topTab = b.m.topTab)
    (honly : ∀ r, e = .removeTab r → r ∉ b.m.tabs) (hquiet : e ≠ .onLayoutResume) :
    ∃ b', b.manage e = .ok b' ∧ Update b e b' := by
  refine ⟨_, manage_of_tells hact hcalls, ?_⟩
  rw [hcs]
  exact .same m' (ready_of_call h hact hop hreg) htop honly hquiet

/-- **Every operation succeeds and does one of the things listed.** -/
theorem update_manage {e : TabManager.Event} (h : Ready b.m) (hop : Operation b.m e) :
    ∃ b', b.manage e = .ok b' ∧ Update b e b' := by
  obtain ⟨t, htop⟩ := h.top
  cases e with
  | addTab => exact update_addTab h
  | changeTab t => exact update_changeTab h hop
  | removeTab r => exact update_removeTab h r
  | changeContext ctx =>
    refine update_same (b.m.changeContext ctx) (b.m.tabs.map (fun t => .changeContext t ctx)) h rfl trivial
      ?_ ?_ (foldl_receive_ignored (fun _ _ => rfl) _) ?_ (by simp) (by simp) <;>
      simp [TabManager.changeContext, h.live, TabManager.call, h.registered]
  | onLayoutResume =>
    have hact : b.m.act .onLayoutResume = .ok b.m.onLayoutResume := rfl
    have hcalls : b.m.onLayoutResume.calls = b.m.calls ++ [.onLayoutResume t] := by
      simp [TabManager.onLayoutResume, TabManager.call, htop]
    exact ⟨_, manage_of_tells hact hcalls, .resumed _ t rfl (ready_of_call h hact trivial h.registered) htop htop⟩
  | onLayoutPause =>
    have hact : b.m.act .onLayoutPause = .ok b.m.onLayoutPause := rfl
    have hcalls : b.m.onLayoutPause.calls = b.m.calls ++ [.onLayoutPause t] := by
      simp [TabManager.onLayoutPause, TabManager.call, htop]
    exact ⟨_, manage_of_tells hact hcalls, .paused _ t rfl (ready_of_call h hact trivial h.registered) htop htop⟩
  | onLayoutStop =>
    refine update_same b.m.onLayoutStop (b.m.topTab.toList.map .onLayoutStop) h rfl trivial h.registered rfl
      (foldl_receive_ignored (fun _ _ => rfl) _) rfl (by simp) (by simp)
  | setCallback cb =>
    have hreg : browserData ∈ (b.m.setCallback cb).manageCallback := by
      unfold TabManager.setCallback
      rw [h.live, if_neg Bool.false_ne_true]
      split
      · exact h.registered
      · exact List.mem_append_left _ h.registered
    refine update_same (b.m.setCallback cb) [] h rfl trivial hreg ?_ (fun _ => rfl) ?_ (by simp) (by simp) <;>
      unfold TabManager.setCallback <;> split <;> try split
    all_goals simp
  | removeCallback cb =>
    have hreg : browserData ∈ (b.m.removeCallback cb).manageCallback := (List.mem_erase_of_ne (Ne.symm hop)).2 h.registered
    exact update_same (b.m.removeCallback cb) [] h rfl hop hreg (List.append_nil _).symm (fun _ => rfl) rfl
      (by simp) (by simp)
  | getCurTab => exact hop.elim
  | destroy => exact hop.elim

/-! ## Events -/

/-- The operation of the manager that a tab grid's event is. -/
def Event.operation? : Event → Option TabManager.Event
  | .addTab        => some .addTab
  | .changeTab t   => some (.changeTab t)
  | .removeTab t   => some (.removeTab t)
  | .openGrid cb   => some (.setCallback cb)
  | .closeGrid cb  => some (.removeCallback cb)
  | _              => none

inductive Move (b : Browser) (e : Event) : Browser → Prop
  | managed (op : TabManager.Event) (event : e.operation? = some op) {b' : Browser} (update : Update b op b') : Move b e b'
  | idle (event : e.operation? = none) : Move b e b
  | home (t : Nat) (event : e.operation? = none) (cur : b.mCurTab = some t) (web : (b.tab t).viewIsHome = false) :
      Move b e (b.changeContentViewTo t true)
  | web (t : Nat) (event : e = .onNavForward) (cur : b.mCurTab = some t) (home : (b.tab t).viewIsHome = true) :
      Move b e (b.changeContentViewTo t false)
  | searched (t : Nat) (event : e = .onNewIntent true) (cur : b.mCurTab = some t) (home : (b.tab t).viewIsHome = true) :
      Move b e ((b.modify t (fun x => { x with viewIsHome := false })).contentChanged t)
  | resumed (event : e = .onPostResume) (seen : b.observed = true) {b' : Browser}
      (update : Update { b with resumed := true } .onLayoutResume b') : Move b e b'
  | resumedUnseen (event : e = .onPostResume) (unseen : b.observed = false) : Move b e { b with resumed := true }
  | paused (event : e = .onPause) (seen : b.observed = true) {b' : Browser}
      (update : Update { b with resumed := false } .onLayoutPause b') : Move b e b'
  | pausedUnseen (event : e = .onPause) (unseen : b.observed = false) : Move b e { b with resumed := false }
  | stopped (event : e = .onStop) (seen : b.observed = true) {b' : Browser} (update : Update b .onLayoutStop b') :
      Move b e b'
  | recreated (ctx : Nat) (event : e = .recreate ctx) (was : b.resumed = false) {b' : Browser}
      (update : Update b (.changeContext ctx) b') : Move b e { b' with observed := false }

theorem move_navHome {e : Event} (t : Nat) (he : e.operation? = none) (hcur : b.mCurTab = some t) :
    Move b e (b.navHome t) := by
  unfold navHome
  by_cases hhome : (b.tab t).viewIsHome = true
  · rw [if_pos hhome]
    exact .idle he
  · rw [if_neg hhome]
    exact .home t he hcur (Bool.eq_false_iff.2 hhome)

theorem ok_move {e : Event} (h : Move b e b') : ∃ b₁, (Except.ok b' : Except Thrown Browser) = .ok b₁ ∧ Move b e b₁ :=
  ⟨b', rfl, h⟩

theorem move_managed {e : Event} (h : Ready b.m) (op : TabManager.Event) (hop : Operation b.m op)
    (he : e.operation? = some op) (hact : b.act e = b.manage op) : ∃ b', b.act e = .ok b' ∧ Move b e b' := by
  obtain ⟨b', hb', hu⟩ := update_manage h hop
  exact ⟨b', hact.trans hb', .managed op he hu⟩

/-- **Every allowed event succeeds and is one of the moves listed.** -/
theorem move_act {e : Event} (h : Ready b.m) (hcur : ∃ t, b.mCurTab = some t) (ha : b.allows e = true) :
    ∃ b', b.act e = .ok b' ∧ Move b e b' := by
  obtain ⟨t, hcur⟩ := hcur
  cases e with
  | addTab => exact move_managed h .addTab trivial rfl rfl
  | changeTab t =>
    have ht : t < b.m.created := of_decide_eq_true ha
    exact move_managed h (.changeTab t) ht rfl rfl
  | removeTab t => exact move_managed h (.removeTab t) trivial rfl rfl
  | openGrid cb => exact move_managed h (.setCallback cb) trivial rfl rfl
  | closeGrid cb =>
    have hcb : cb ≠ browserData := of_decide_eq_true ha
    exact move_managed h (.removeCallback cb) hcb rfl rfl
  | onNavBack canGoBack =>
    simp only [act, onCurTab, hcur, navBack]
    split
    · exact ok_move (.idle rfl)
    · split
      · exact ok_move (.idle rfl)
      · exact ok_move (move_navHome t rfl hcur)
  | onNavForward =>
    simp only [act, onCurTab, hcur, navForward]
    split
    · exact ok_move (.web t rfl hcur ‹_›)
    · exact ok_move (.idle rfl)
  | onNavHome =>
    simp only [act, onCurTab, hcur]
    exact ok_move (move_navHome t rfl hcur)
  | onBackPressed canGoBack => exact ok_move (.idle rfl)
  | onNewIntent notBlank =>
    cases notBlank with
    | false => exact ok_move (.idle rfl)
    | true =>
      simp only [act, onCurTab, hcur, searchContent, if_true]
      split
      · exact ok_move (.searched t rfl hcur ‹_›)
      · exact ok_move (.idle rfl)
  | onPostResume =>
    simp only [act, forward]
    split
    · obtain ⟨b', hb', hu⟩ := update_manage (b := { b with resumed := true }) (e := .onLayoutResume) h trivial
      exact ⟨b', hb', .resumed rfl ‹_› hu⟩
    · exact ok_move (.resumedUnseen rfl (Bool.eq_false_iff.2 ‹_›))
  | onPause =>
    simp only [act, forward]
    split
    · obtain ⟨b', hb', hu⟩ := update_manage (b := { b with resumed := false }) (e := .onLayoutPause) h trivial
      exact ⟨b', hb', .paused rfl ‹_› hu⟩
    · exact ok_move (.pausedUnseen rfl (Bool.eq_false_iff.2 ‹_›))
  | onStop =>
    simp only [act, forward]
    split
    · obtain ⟨b', hb', hu⟩ := update_manage (e := .onLayoutStop) h trivial
      exact ⟨b', hb', .stopped rfl ‹_› hu⟩
    · exact ok_move (.idle rfl)
  | recreate ctx =>
    obtain ⟨b', hb', hu⟩ := update_manage (e := .changeContext ctx) h trivial
    simp only [act, initTabManager, hb']
    refine ok_move (.recreated ctx rfl ?_ hu)
    simpa [allows] using ha

theorem move_of_step {e : Event} (h : Ready b.m) (hcur : ∃ t, b.mCurTab = some t) (hs : step b e = some b') :
    Move b e b' := by
  unfold step at hs
  split at hs
  · obtain ⟨b₁, hb₁, hmove⟩ := move_act h hcur ‹_›
    rw [hb₁] at hs
    cases hs
    exact hmove
  · cases hs

end Browser
end Riddles
