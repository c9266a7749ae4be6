import GoRiddles.Machine
import GoRiddles.Usr
/-!
# TabManager — the browser's tabs

`TabManager.kt`.  A tab is its number in the order of creation: the source compares tabs by identity.  What the manager
calls on its tabs and callbacks is kept in `calls`, in order.  `Shift` lists what an operation can do to the list of tabs
and the top tab.
-/
namespace Riddles

/-- A call the manager makes on a tab or a registered callback. -/
inductive Call where
  | onLayoutCreate (tab : Nat)
  | onLayoutResume (tab : Nat)
  | onLayoutPause (tab : Nat)
  | onLayoutStop (tab : Nat)
  | onLayoutDestroy (tab : Nat)
  | changeContext (tab : Nat) (newCtx : Nat)
  | onCurTabChanged (cb : Nat) (curTab : Nat)
  | onTabSetChanged (cb : Nat)
  deriving DecidableEq, Repr

structure TabManager where
  tabs           : List Nat
  isDestroyed    : Bool
  manageCallback : List Nat
  topTab         : Option Nat
  useContext     : Option Nat
  /-- How many tabs have been created. -/
  created        : Nat
  calls          : List Call
  deriving DecidableEq, Repr

namespace TabManager

/-- The constructor. -/
def new (context : Nat) : TabManager where
  tabs           := []
  isDestroyed    := false
  manageCallback := []
  topTab         := none
  useContext     := some context
  created        := 0
  calls          := []

def call (m : TabManager) (cs : List Call) : TabManager := { m with calls := m.calls ++ cs }

def newTab (m : TabManager) : Except Thrown (Nat × TabManager) :=
  match m.useContext with
  | none => .error (.illegalState "Tab is detached from context.".toList)
  | some _ => .ok (m.created, { m.call [.onLayoutCreate m.created] with created := m.created + 1 })

def addTabInternal (m : TabManager) (add : Nat) (isTop : Bool) : TabManager :=
  { m with tabs := if isTop then add :: m.tabs else m.tabs ++ [add] }

def ensureTabs (m : TabManager) : Except Thrown TabManager :=
  if m.tabs.isEmpty then
    match m.newTab with
    | .error e => .error e
    | .ok (tab, m') => .ok { m'.addTabInternal tab true with topTab := (m'.addTabInternal tab true).tabs.head? }
  else .ok m

def getCurTab (m : TabManager) : Except Thrown (Option Nat × TabManager) :=
  if m.isDestroyed then .ok (none, m)
  else
    match m.ensureTabs with
    | .error e => .error e
    | .ok m' => .ok (m'.topTab, m')

def changeContext (m : TabManager) (newCtx : Nat) : TabManager :=
  if m.isDestroyed then m
  else { m.call (m.tabs.map (fun t => .changeContext t newCtx)) with useContext := some newCtx }

def tabSetChanged (m : TabManager) : TabManager := m.call (m.manageCallback.map .onTabSetChanged)

def curTabChanged (m : TabManager) (curTab : Nat) : TabManager :=
  m.call (m.manageCallback.map (fun cb => .onCurTabChanged cb curTab))

def addTab (m : TabManager) : Except Thrown TabManager :=
  if m.isDestroyed then .ok m
  else
    match m.newTab with
    | .error e => .error e
    | .ok (tab, m') => .ok (m'.addTabInternal tab false).tabSetChanged

def changeTab (m : TabManager) (toTab : Nat) : TabManager :=
  if m.isDestroyed then m
  else
    match m.topTab with
    | none => m
    | some curTop =>
      if curTop = toTab then m
      else
        let m' := { m.call [.onLayoutPause curTop] with tabs := m.tabs.erase toTab }
        ({ m'.addTabInternal toTab true with topTab := some toTab }.curTabChanged toTab).call [.onLayoutResume toTab]

/-- `removeTab` up to the choice of a new top tab. -/
def dropTab (m : TabManager) (remove : Nat) : TabManager :=
  { m.call [.onLayoutDestroy remove] with tabs := m.tabs.erase remove }

/-- The new top tab of `removeTab`. -/
def settleTop (m : TabManager) : Except Thrown TabManager :=
  if m.tabs.isEmpty then m.ensureTabs else .ok { m with topTab := m.tabs.head? }

/-- The announcements that end `removeTab`. -/
def announced (m : TabManager) : TabManager :=
  match m.topTab with
  | none => m.tabSetChanged
  | some topTab => (m.curTabChanged topTab).tabSetChanged

def removeTab (m : TabManager) (remove : Nat) : Except Thrown TabManager :=
  if m.isDestroyed then .ok m
  else if m.tabs.contains remove then (m.dropTab remove).settleTop.map announced
  else .ok m

def onLayoutResume (m : TabManager) : TabManager := m.call (m.topTab.toList.map .onLayoutResume)

def onLayoutPause (m : TabManager) : TabManager := m.call (m.topTab.toList.map .onLayoutPause)

def onLayoutStop (m : TabManager) : TabManager := m.call (m.topTab.toList.map .onLayoutStop)

def destroy (m : TabManager) : TabManager :=
  if m.isDestroyed then m
  else
    { m.call (m.tabs.map .onLayoutDestroy) with
      isDestroyed := true, useContext := none, tabs := [], topTab := none, manageCallback := [] }

def setCallback (m : TabManager) (cb : Nat) : TabManager :=
  if m.isDestroyed then m
  else if m.manageCallback.contains cb then m
  else { m with manageCallback := m.manageCallback ++ [cb] }

def removeCallback (m : TabManager) (cb : Nat) : TabManager := { m with manageCallback := m.manageCallback.erase cb }

def listTabs (m : TabManager) : List Nat := m.tabs

inductive Event where
  | getCurTab
  | addTab
  | changeTab (toTab : Nat)
  | removeTab (remove : Nat)
  | changeContext (newCtx : Nat)
  | onLayoutResume
  | onLayoutPause
  | onLayoutStop
  | setCallback (cb : Nat)
  | removeCallback (cb : Nat)
  | destroy
  deriving DecidableEq, Repr

def act (m : TabManager) : Event → Except Thrown TabManager
  | .getCurTab            => m.getCurTab.map Prod.snd
  | .addTab               => m.addTab
  | .changeTab toTab      => .ok (m.changeTab toTab)
  | .removeTab remove     => m.removeTab remove
  | .changeContext newCtx => .ok (m.changeContext newCtx)
  | .onLayoutResume       => .ok m.onLayoutResume
  | .onLayoutPause        => .ok m.onLayoutPause
  | .onLayoutStop         => .ok m.onLayoutStop
  | .setCallback cb       => .ok (m.setCallback cb)
  | .removeCallback cb    => .ok (m.removeCallback cb)
  | .destroy              => .ok m.destroy

/-! ## What an operation can do -/

/-- The tab has been destroyed. -/
def Closed (m : TabManager) (t : Nat) : Prop := Call.onLayoutDestroy t ∈ m.calls

/-- A manager has a context until it is destroyed, and nothing after; its tabs have been created. -/
structure Sane (m : TabManager) : Prop where
  context   : m.isDestroyed = false → m.useContext.isSome
  destroyed : m.isDestroyed = true → m.tabs = [] ∧ m.topTab = none
  created   : ∀ t ∈ m.tabs, t < m.created
  top       : ∀ t, m.topTab = some t → t ∈ m.tabs

/-- The manager is as alive as before: destroyed or not, and with its context. -/
def Alive (m m' : TabManager) : Prop :=
  m'.isDestroyed = m.isDestroyed ∧ (m.useContext.isSome → m'.useContext.isSome)

/-- The operation is one that this state ignores, or one that moves no tab. -/
def Idle (m : TabManager) : Event → Prop
  | .getCurTab => m.isDestroyed = true ∨ m.tabs ≠ []
  | .addTab | .destroy => m.isDestroyed = true
  | .removeTab t => m.isDestroyed = true ∨ t ∉ m.tabs
  | .changeTab t => m.isDestroyed = true ∨ m.topTab = none ∨ m.topTab = some t
  | _ => True

/-- The kinds of effect on tabs, top tab and what is closed. -/
inductive Shift (m : TabManager) (e : Event) (m' : TabManager) : Prop
  | quiet (alive : Alive m m') (idle : Idle m e) (tabs : m'.tabs = m.tabs) (top : m'.topTab = m.topTab)
      (created : m'.created = m.created) (closed : ∀ t, m'.Closed t ↔ m.Closed t)
  | first (alive : Alive m m') (event : e = .getCurTab) (live : m.isDestroyed = false) (none : m.tabs = [])
      (tabs : m'.tabs = [m.created]) (top : m'.topTab = some m.created) (created : m'.created = m.created + 1)
      (closed : ∀ t, m'.Closed t ↔ m.Closed t)
  | added (alive : Alive m m') (event : e = .addTab) (live : m.isDestroyed = false)
      (tabs : m'.tabs = m.tabs ++ [m.created]) (top : m'.topTab = m.topTab) (created : m'.created = m.created + 1)
      (closed : ∀ t, m'.Closed t ↔ m.Closed t)
  | changed (alive : Alive m m') (t curTop : Nat) (event : e = .changeTab t) (live : m.isDestroyed = false)
      (was : m.topTab = some curTop) (other : curTop ≠ t) (tabs : m'.tabs = t :: m.tabs.erase t) (top : m'.topTab = some t)
      (created : m'.created = m.created) (closed : ∀ u, m'.Closed u ↔ m.Closed u)
  | removed (alive : Alive m m') (t : Nat) (event : e = .removeTab t) (live : m.isDestroyed = false) (listed : t ∈ m.tabs)
      (left : m.tabs.erase t ≠ []) (tabs : m'.tabs = m.tabs.erase t) (top : m'.topTab = (m.tabs.erase t).head?)
      (created : m'.created = m.created) (closed : ∀ u, m'.Closed u ↔ m.Closed u ∨ u = t)
  | removedLast (alive : Alive m m') (t : Nat) (event : e = .removeTab t) (live : m.isDestroyed = false) (listed : t ∈ m.tabs)
      (left : m.tabs.erase t = []) (tabs : m'.tabs = [m.created]) (top : m'.topTab = some m.created)
      (created : m'.created = m.created + 1) (closed : ∀ u, m'.Closed u ↔ m.Closed u ∨ u = t)
  | destroyed (event : e = .destroy) (gone : m'.isDestroyed = true) (tabs : m'.tabs = []) (top : m'.topTab = none)
      (created : m'.created = m.created) (closed : ∀ t, m'.Closed t ↔ m.Closed t ∨ t ∈ m.tabs)

variable {m m' : TabManager} {e : Event}

theorem closed_append {cs : List Call} (hcs : ∀ t, Call.onLayoutDestroy t ∉ cs) (t : Nat) :
    Call.onLayoutDestroy t ∈ m.calls ++ cs ↔ Call.onLayoutDestroy t ∈ m.calls := by
  rw [List.mem_append]
  exact or_iff_left (hcs t)

theorem not_mem_map {α : Type} {f : α → Call} {l : List α} (hf : ∀ a t, f a ≠ Call.onLayoutDestroy t) (t : Nat) :
    Call.onLayoutDestroy t ∉ l.map f := by
  intro h
  obtain ⟨a, -, ha⟩ := List.mem_map.1 h
  exact hf a t ha

theorem newTab_eq (h : m.useContext.isSome) :
    m.newTab = .ok (m.created, { m.call [.onLayoutCreate m.created] with created := m.created + 1 }) := by
  unfold newTab
  split
  · rename_i hnone
    rw [hnone] at h
    cases h
  · rfl

theorem ensureTabs_spec (hs : m.Sane) (hl : m.isDestroyed = false) :
    ∃ m', m.ensureTabs = .ok m' ∧ Alive m m' ∧ (m' = m ∧ m.tabs ≠ [] ∨
      m.tabs = [] ∧ m'.tabs = [m.created] ∧ m'.topTab = some m.created ∧ m'.created = m.created + 1 ∧
        m'.manageCallback = m.manageCallback ∧ m'.calls = m.calls ++ [.onLayoutCreate m.created]) := by
  unfold ensureTabs
  by_cases hempty : m.tabs = []
  · rw [if_pos (List.isEmpty_iff.2 hempty), newTab_eq (hs.context hl)]
    refine ⟨_, rfl, ⟨rfl, id⟩, .inr ⟨hempty, ?_, rfl, rfl, rfl, rfl⟩⟩
    show m.created :: m.tabs = [m.created]
    rw [hempty]
  · rw [if_neg (fun h => hempty (List.isEmpty_iff.1 h))]
    exact ⟨m, rfl, ⟨rfl, id⟩, .inl ⟨rfl, hempty⟩⟩

theorem getCurTab_spec (hs : m.Sane) : ∃ m', m.getCurTab.map Prod.snd = .ok m' ∧ Shift m .getCurTab m' := by
  unfold getCurTab
  by_cases hl : m.isDestroyed = true
  · rw [if_pos hl]
    exact ⟨m, rfl, .quiet ⟨rfl, id⟩ (.inl hl) rfl rfl rfl (fun _ => Iff.rfl)⟩
  · have hlive := Bool.eq_false_iff.2 hl
    obtain ⟨m', hm', halive, hcase⟩ := ensureTabs_spec hs hlive
    rw [if_neg hl, hm']
    refine ⟨m', rfl, ?_⟩
    rcases hcase with ⟨rfl, hsome⟩ | ⟨hnil, htabs, htop, hcr, -, hcalls⟩
    · exact .quiet ⟨rfl, id⟩ (.inr hsome) rfl rfl rfl (fun _ => Iff.rfl)
    · refine .first halive rfl hlive hnil htabs htop hcr (fun t => ?_)
      unfold Closed
      rw [hcalls]
      exact closed_append (by simp) t

theorem addTab_spec (hs : m.Sane) : ∃ m', m.addTab = .ok m' ∧ Shift m .addTab m' := by
  unfold addTab
  by_cases hl : m.isDestroyed = true
  · rw [if_pos hl]
    exact ⟨m, rfl, .quiet ⟨rfl, id⟩ hl rfl rfl rfl (fun _ => Iff.rfl)⟩
  · have hlive := Bool.eq_false_iff.2 hl
    rw [if_neg hl, newTab_eq (hs.context hlive)]
    refine ⟨_, rfl, .added ⟨rfl, id⟩ rfl hlive rfl rfl rfl (fun t => ?_)⟩
    show Call.onLayoutDestroy t ∈ (m.calls ++ [.onLayoutCreate m.created]) ++ m.manageCallback.map .onTabSetChanged ↔ _
    rw [List.append_assoc]
    refine closed_append (fun u hu => ?_) t
    rcases List.mem_append.1 hu with hu | hu
    · cases List.mem_singleton.1 hu
    · exact not_mem_map (fun _ _ h => by cases h) u hu

theorem changeTab_spec (t : Nat) : Shift m (.changeTab t) (m.changeTab t) := by
  unfold changeTab
  by_cases hl : m.isDestroyed = true
  · rw [if_pos hl]
    exact .quiet ⟨rfl, id⟩ (.inl hl) rfl rfl rfl (fun _ => Iff.rfl)
  · rw [if_neg hl]
    split
    · exact .quiet ⟨rfl, id⟩ (.inr (.inl ‹_›)) rfl rfl rfl (fun _ => Iff.rfl)
    · rename_i curTop hcur
      by_cases hsame : curTop = t
      · rw [if_pos hsame]
        exact .quiet ⟨rfl, id⟩ (.inr (.inr (hsame ▸ hcur))) rfl rfl rfl (fun _ => Iff.rfl)
      · rw [if_neg hsame]
        refine .changed ⟨rfl, id⟩ t curTop rfl (Bool.eq_false_iff.2 hl) hcur hsame rfl rfl rfl (fun u => ?_)
        show Call.onLayoutDestroy u ∈ ((m.calls ++ [.onLayoutPause curTop]) ++
          m.manageCallback.map (fun cb => Call.onCurTabChanged cb t)) ++ [.onLayoutResume t] ↔ _
        rw [List.append_assoc, List.append_assoc]
        refine closed_append (fun v hv => ?_) u
        rcases List.mem_append.1 hv with hv | hv
        · cases List.mem_singleton.1 hv
        · rcases List.mem_append.1 hv with hv | hv
          · exact not_mem_map (fun _ _ h => by cases h) v hv
          · cases List.mem_singleton.1 hv

theorem announced_spec (m : TabManager) :
    m.announced.tabs = m.tabs ∧ m.announced.topTab = m.topTab ∧ m.announced.created = m.created ∧
      Alive m m.announced ∧ ∀ t, m.announced.Closed t ↔ m.Closed t := by
  unfold announced
  split
  · exact ⟨rfl, rfl, rfl, ⟨rfl, id⟩, closed_append (not_mem_map (fun _ _ h => by cases h))⟩
  · rename_i topTab _
    refine ⟨rfl, rfl, rfl, ⟨rfl, id⟩, fun t => ?_⟩
    show Call.onLayoutDestroy t ∈ (m.calls ++ m.manageCallback.map (fun cb => Call.onCurTabChanged cb topTab)) ++
      m.manageCallback.map .onTabSetChanged ↔ _
    rw [List.append_assoc]
    refine closed_append (fun u hu => ?_) t
    rcases List.mem_append.1 hu with hu | hu
    · exact not_mem_map (fun _ _ h => by cases h) u hu
    · exact not_mem_map (fun _ _ h => by cases h) u hu

theorem closed_dropTab (t u : Nat) : (m.dropTab t).Closed u ↔ m.Closed u ∨ u = t := by
  show Call.onLayoutDestroy u ∈ m.calls ++ [.onLayoutDestroy t] ↔ _
  rw [List.mem_append, List.mem_singleton, Call.onLayoutDestroy.injEq]
  rfl

/-- The top tab is the first that is left, or a new one. -/
theorem settleTop_spec (hctx : m.useContext.isSome) :
    ∃ m', m.settleTop = .ok m' ∧ Alive m m' ∧ (∀ t, m'.Closed t ↔ m.Closed t) ∧
      (m.tabs ≠ [] ∧ m'.tabs = m.tabs ∧ m'.topTab = m.tabs.head? ∧ m'.created = m.created ∨
        m.tabs = [] ∧ m'.tabs = [m.created] ∧ m'.topTab = some m.created ∧ m'.created = m.created + 1) := by
  unfold settleTop
  by_cases hempty : m.tabs = []
  · rw [if_pos (List.isEmpty_iff.2 hempty), ensureTabs, if_pos (List.isEmpty_iff.2 hempty), newTab_eq hctx]
    refine ⟨_, rfl, ⟨rfl, id⟩, closed_append (by simp), .inr ⟨hempty, ?_, rfl, rfl⟩⟩
    show m.created :: m.tabs = [m.created]
    rw [hempty]
  · rw [if_neg (fun h => hempty (List.isEmpty_iff.1 h))]
    exact ⟨_, rfl, ⟨rfl, id⟩, fun _ => Iff.rfl, .inl ⟨hempty, rfl, rfl, rfl⟩⟩

theorem removeTab_spec (hs : m.Sane) (t : Nat) :
    ∃ m', m.removeTab t = .ok m' ∧ Shift m (.removeTab t) m' := by
  unfold removeTab
  by_cases hl : m.isDestroyed = true
  · rw [if_pos hl]
    exact ⟨m, rfl, .quiet ⟨rfl, id⟩ (.inl hl) rfl rfl rfl (fun _ => Iff.rfl)⟩
  rw [if_neg hl]
  by_cases hmem : t ∈ m.tabs
  · have hlive := Bool.eq_false_iff.2 hl
    obtain ⟨m₁, hm₁, halive₁, hclosed₁, hcase⟩ := settleTop_spec (m := m.dropTab t) (hs.context hlive)
    obtain ⟨htabs, htop, hcr, halive, hclosed⟩ := m₁.announced_spec
    rw [if_pos (List.contains_iff_mem.2 hmem), hm₁]
    refine ⟨m₁.announced, rfl, ?_⟩
    have hlife : Alive m m₁.announced := ⟨halive.1.trans halive₁.1, fun h => halive.2 (halive₁.2 h)⟩
    have hgone : ∀ u, m₁.announced.Closed u ↔ m.Closed u ∨ u = t :=
      fun u => (hclosed u).trans ((hclosed₁ u).trans (closed_dropTab t u))
    rcases hcase with ⟨hleft, ht, hp, hc⟩ | ⟨hleft, ht, hp, hc⟩
    · exact .removed hlife t rfl hlive hmem hleft (htabs.trans ht) (htop.trans hp) (hcr.trans hc) hgone
    · exact .removedLast hlife t rfl hlive hmem hleft (htabs.trans ht) (htop.trans hp) (hcr.trans hc) hgone
  · rw [if_neg (fun h => hmem (List.contains_iff_mem.1 h))]
    exact ⟨m, rfl, .quiet ⟨rfl, id⟩ (.inr hmem) rfl rfl rfl (fun _ => Iff.rfl)⟩

theorem shift_topCall {f : Nat → Call} (hf : ∀ a t, f a ≠ Call.onLayoutDestroy t) (he : Idle m e) :
    Shift m e (m.call (m.topTab.toList.map f)) :=
  .quiet ⟨rfl, id⟩ he rfl rfl rfl (closed_append (not_mem_map hf))

theorem destroy_spec : Shift m .destroy m.destroy := by
  unfold destroy
  split
  · exact .quiet ⟨rfl, id⟩ ‹_› rfl rfl rfl (fun _ => Iff.rfl)
  · refine .destroyed rfl rfl rfl rfl rfl (fun t => ?_)
    show Call.onLayoutDestroy t ∈ m.calls ++ m.tabs.map .onLayoutDestroy ↔ _
    rw [List.mem_append, List.mem_map]
    simp only [Call.onLayoutDestroy.injEq, exists_eq_right]
    rfl

/-- **Every operation succeeds and does one of the things listed.** -/
theorem act_spec (hs : m.Sane) (e : Event) : ∃ m', m.act e = .ok m' ∧ Shift m e m' := by
  cases e with
  | getCurTab => exact getCurTab_spec hs
  | addTab => exact addTab_spec hs
  | changeTab t => exact ⟨_, rfl, changeTab_spec t⟩
  | removeTab t => exact removeTab_spec hs t
  | changeContext ctx =>
    refine ⟨_, rfl, ?_⟩
    unfold changeContext
    split
    · exact .quiet ⟨rfl, id⟩ trivial rfl rfl rfl (fun _ => Iff.rfl)
    · exact .quiet ⟨rfl, fun _ => rfl⟩ trivial rfl rfl rfl (closed_append (not_mem_map (fun _ _ h => by cases h)))
  | onLayoutResume => exact ⟨_, rfl, shift_topCall (fun _ _ h => by cases h) trivial⟩
  | onLayoutPause => exact ⟨_, rfl, shift_topCall (fun _ _ h => by cases h) trivial⟩
  | onLayoutStop => exact ⟨_, rfl, shift_topCall (fun _ _ h => by cases h) trivial⟩
  | setCallback cb =>
    refine ⟨_, rfl, ?_⟩
    unfold setCallback
    split
    · exact .quiet ⟨rfl, id⟩ trivial rfl rfl rfl (fun _ => Iff.rfl)
    · split <;> exact .quiet ⟨rfl, id⟩ trivial rfl rfl rfl (fun _ => Iff.rfl)
  | removeCallback cb => exact ⟨_, rfl, .quiet ⟨rfl, id⟩ trivial rfl rfl rfl (fun _ => Iff.rfl)⟩
  | destroy => exact ⟨_, rfl, destroy_spec⟩

theorem Alive.context (h : Alive m m') (hs : m.Sane) (hl : m'.isDestroyed = false) : m'.useContext.isSome :=
  h.2 (hs.context (h.1 ▸ hl))

theorem Alive.live (h : Alive m m') (hl : m.isDestroyed = false) {p : Prop} (hd : m'.isDestroyed = true) : p := by
  rw [h.1, hl] at hd
  cases hd

/-- **Sanity is kept**, if only tabs that were created are passed in. -/
theorem Shift.sane (h : Shift m e m') (hs : m.Sane) (hknown : ∀ t, e = .changeTab t → t < m.created) : m'.Sane := by
  cases h with
  | quiet alive _ tabs top created =>
    refine ⟨alive.context hs, fun hd => ?_, ?_, ?_⟩
    · rw [tabs, top]
      exact hs.destroyed (alive.1 ▸ hd)
    · rw [tabs, created]
      exact hs.created
    · rw [tabs, top]
      exact hs.top
  | first alive _ live nil tabs top created | removedLast alive _ _ live _ _ tabs top created =>
    refine ⟨alive.context hs, alive.live live, fun t ht => ?_, fun t ht => ?_⟩
    · rw [tabs, List.mem_singleton] at ht
      rw [ht, created]
      exact Nat.lt_succ_self _
    · rw [top, Option.some.injEq] at ht
      rw [tabs, ht]
      exact List.mem_singleton.2 rfl
  | added alive _ live tabs top created =>
    refine ⟨alive.context hs, alive.live live, fun t ht => ?_, fun t ht => ?_⟩
    · rw [created]
      rw [tabs, List.mem_append, List.mem_singleton] at ht
      rcases ht with ht | rfl
      · exact Nat.lt_succ_of_lt (hs.created t ht)
      · exact Nat.lt_succ_self _
    · rw [tabs]
      exact List.mem_append_left _ (hs.top t (top ▸ ht))
  | changed alive u c event live was other tabs top created =>
    refine ⟨alive.context hs, alive.live live, fun t ht => ?_, fun t ht => ?_⟩
    · rw [created]
      rw [tabs] at ht
      rcases List.mem_cons.1 ht with rfl | ht
      · exact hknown t event
      · exact hs.created t (List.mem_of_mem_erase ht)
    · rw [top, Option.some.injEq] at ht
      rw [tabs, ht]
      exact List.mem_cons_self
  | removed alive u event live listed left tabs top created =>
    refine ⟨alive.context hs, alive.live live, fun t ht => ?_, fun t ht => ?_⟩
    · rw [created]
      rw [tabs] at ht
      exact hs.created t (List.mem_of_mem_erase ht)
    · rw [tabs]
      exact List.mem_of_head? (top ▸ ht)
  | destroyed event gone tabs top created =>
    refine ⟨fun hl => ?_, fun _ => ⟨tabs, top⟩, fun t ht => ?_, fun t ht => ?_⟩
    · rw [gone] at hl
      cases hl
    · rw [tabs] at ht
      cases ht
    · rw [top] at ht
      cases ht

theorem sane_new (context : Nat) : (new context).Sane :=
  ⟨fun _ => rfl, fun h => (by cases h), fun _ h => (by cases h), fun _ h => (by cases h)⟩

/-! ## What an operation calls -/

/-- The operation keeps the callbacks and makes these calls. -/
structure Tells (m m' : TabManager) (cs : List Call) : Prop where
  callbacks : m'.manageCallback = m.manageCallback
  calls     : m'.calls = m.calls ++ cs

theorem addTab_tells (hs : m.Sane) (hl : m.isDestroyed = false) (h : m.addTab = .ok m') :
    Tells m m' (.onLayoutCreate m.created :: m.manageCallback.map .onTabSetChanged) := by
  rw [addTab, hl, if_neg Bool.false_ne_true, newTab_eq (hs.context hl)] at h
  cases h
  exact ⟨rfl, List.append_assoc _ _ _⟩

theorem changeTab_tells {c t : Nat} (hl : m.isDestroyed = false) (hc : m.topTab = some c) (hne : c ≠ t) :
    Tells m (m.changeTab t)
      (.onLayoutPause c :: (m.manageCallback.map (fun cb => .onCurTabChanged cb t) ++ [.onLayoutResume t])) := by
  unfold changeTab
  rw [hl, if_neg Bool.false_ne_true, hc]
  simp only [if_neg hne]
  refine ⟨rfl, ?_⟩
  simp only [call, curTabChanged, addTabInternal, List.append_assoc, List.cons_append, List.nil_append]

theorem announced_tells {t : Nat} (h : m.announced.topTab = some t) :
    Tells m m.announced (m.manageCallback.map (fun cb => .onCurTabChanged cb t) ++ m.manageCallback.map .onTabSetChanged) := by
  rw [m.announced_spec.2.1] at h
  unfold announced
  rw [h]
  exact ⟨rfl, List.append_assoc _ _ _⟩

theorem settleTop_tells (hctx : m.useContext.isSome) (h : m.settleTop = .ok m') :
    Tells m m' (if m.tabs = [] then [.onLayoutCreate m.created] else []) := by
  unfold settleTop at h
  by_cases hempty : m.tabs = []
  · rw [if_pos (List.isEmpty_iff.2 hempty), ensureTabs, if_pos (List.isEmpty_iff.2 hempty), newTab_eq hctx] at h
    cases h
    rw [if_pos hempty]
    exact ⟨rfl, rfl⟩
  · rw [if_neg (fun he => hempty (List.isEmpty_iff.1 he))] at h
    cases h
    rw [if_neg hempty]
    exact ⟨rfl, (List.append_nil _).symm⟩

theorem removeTab_tells {r t : Nat} (hs : m.Sane) (hl : m.isDestroyed = false) (hr : r ∈ m.tabs)
    (h : m.removeTab r = .ok m') (ht : m'.topTab = some t) :
    Tells m m' (.onLayoutDestroy r :: ((if m.tabs.erase r = [] then [.onLayoutCreate m.created] else []) ++
      (m.manageCallback.map (fun cb => .onCurTabChanged cb t) ++ m.manageCallback.map .onTabSetChanged))) := by
  obtain ⟨m₁, hm₁, -⟩ := settleTop_spec (m := m.dropTab r) (hs.context hl)
  rw [removeTab, hl, if_neg Bool.false_ne_true, if_pos (List.contains_iff_mem.2 hr), hm₁] at h
  cases h
  have hsettled := settleTop_tells (m := m.dropTab r) (hs.context hl) hm₁
  have hannounced := announced_tells ht
  refine ⟨hannounced.callbacks.trans hsettled.callbacks, ?_⟩
  rw [hannounced.calls, hsettled.calls, hsettled.callbacks]
  simp only [dropTab, call, List.append_assoc, List.cons_append, List.nil_append]
  rfl

end TabManager
end Riddles
