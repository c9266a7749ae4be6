import GoRiddles.Recency
import GoRiddles.TabManager
/-!
# TabOrder — the tabs are a most-recently-used list

`Usage` is what a browser's tabs are for: which tabs are open, and which have been the current one, the latest first.  It
follows the operations and knows nothing of the manager.  A `Session` runs both side by side.  As long as only listed tabs
are chosen and closed, `listTabs` is the most-recently-used order of the usage (`Recency.order`), and the current tab is
the one in use.
-/
namespace Riddles
namespace TabManager

open Recency (recency order)

/-- The tabs created, those open, and the tabs that have been current, the latest first. -/
structure Usage where
  created : Nat
  opened  : List Nat
  history : List Nat
  deriving DecidableEq, Repr

namespace Usage

/-- The open tabs, those ever used by their latest use, then the others as they were created. -/
def tabs (u : Usage) : List Nat := order u.history (List.range u.created) u.opened

def current (u : Usage) : Option Nat := u.history.head?

def use (u : Usage) (t : Nat) : Usage := { u with history := t :: u.history }

def create (u : Usage) : Usage := { u with created := u.created + 1, opened := u.opened ++ [u.created] }

def createCurrent (u : Usage) : Usage := u.create.use u.created

/-- A tab is no longer open.  After the current one, the first of those left is in use, or a new one. -/
def close (u : Usage) (t : Nat) : Usage :=
  let left := { u with opened := u.opened.filter (· ≠ t) }
  if u.current = some t then
    match left.tabs.head? with
    | some t' => left.use t'
    | none    => left.createCurrent
  else left

def act (u : Usage) : Event → Usage
  | .getCurTab        => if u.opened.isEmpty then u.createCurrent else u
  | .addTab           => u.create
  | .changeTab toTab  => u.use toTab
  | .removeTab remove => u.close remove
  | _                 => u

end Usage

/-- A manager and the usage of its tabs. -/
structure Session where
  m     : TabManager
  usage : Usage
  deriving DecidableEq, Repr

/-- The tab an operation is called with has been created. -/
def Known (m : TabManager) : Event → Bool
  | .changeTab t | .removeTab t => decide (t < m.created)
  | _ => true

def step (s : Session) (e : Event) : Option Session :=
  if s.m.Known e then
    match s.m.act e with
    | .error _ => none
    | .ok m' => some ⟨m', s.usage.act e⟩
  else none

def start (context : Nat) : Session := ⟨new context, ⟨0, [], []⟩⟩

variable {s t : Session} {e : Event}

theorem shift_of_step (hs : s.m.Sane) (h : step s e = some t) :
    Shift s.m e t.m ∧ t.m.Sane ∧ t.usage = s.usage.act e := by
  unfold step at h
  split at h
  · rename_i hknown
    obtain ⟨m', hm', hshift⟩ := act_spec hs e
    rw [hm'] at h
    cases h
    refine ⟨hshift, hshift.sane hs (fun u hu => ?_), rfl⟩
    rw [hu] at hknown
    exact of_decide_eq_true hknown
  · cases h

/-! ## The order -/

/-- The operation names a listed tab, if any, and does not destroy. -/
def OnListed (m : TabManager) : Event → Prop
  | .changeTab t | .removeTab t => t ∈ m.tabs
  | .destroy => False
  | _ => True

instance (m : TabManager) : (e : Event) → Decidable (OnListed m e)
  | .changeTab t | .removeTab t => inferInstanceAs (Decidable (t ∈ m.tabs))
  | .destroy => isFalse id
  | .getCurTab | .addTab | .changeContext _ | .onLayoutResume | .onLayoutPause | .onLayoutStop | .setCallback _
  | .removeCallback _ => isTrue trivial

/-- **The list is the most-recently-used order of the usage, with the tab in use current and in front.** -/
structure Mru (s : Session) : Prop where
  nonempty : s.m.listTabs ≠ []
  nodup    : s.m.listTabs.Nodup
  current  : ∃ t, s.m.getCurTab = .ok (some t, s.m) ∧ s.m.listTabs.head? = some t ∧ s.usage.current = some t
  ordered  : s.m.listTabs = s.usage.tabs
  succeeds : ∀ e, ∃ m', s.m.act e = .ok m'

/-- What is current after an operation: the tab chosen; after the current tab was closed, the tab used most recently before
it, or else the oldest one never used, or else a new one; and after anything else what was current before. -/
structure Follows (s : Session) (e : Event) (t : Session) : Prop where
  chosen : ∀ u, e = .changeTab u → t.m.topTab = some u
  closed : ∀ u, e = .removeTab u → s.m.topTab = some u →
    t.m.topTab = (((recency s.usage.history).filter (· ∈ s.m.listTabs.erase u)).head?.or
      ((List.range s.m.created).filter (fun x => x ∈ s.m.listTabs.erase u ∧ x ∉ s.usage.history)).head?).or
        (some s.m.created)
  others : (∀ u, e ≠ .changeTab u) → (∀ u, e = .removeTab u → s.m.topTab ≠ some u) → t.m.topTab = s.m.topTab

/-- What carries the order through a run. -/
structure Ordered (s : Session) : Prop where
  sane    : s.m.Sane
  live    : s.m.isDestroyed = false
  created : s.usage.created = s.m.created
  opened  : ∀ x, x ∈ s.usage.opened ↔ x ∈ s.m.tabs
  front   : ∃ x l, s.m.tabs = x :: l ∧ s.m.topTab = some x ∧ s.usage.current = some x
  ordered : s.usage.tabs = s.m.tabs
  known   : ∀ x ∈ s.usage.history, x < s.m.created

theorem Ordered.nodup (h : Ordered s) : s.m.tabs.Nodup := by
  rw [← h.ordered]
  exact Recency.nodup_order List.nodup_range

theorem Ordered.erase_eq (h : Ordered s) (u : Nat) : s.m.tabs.erase u = s.m.tabs.filter (· ≠ u) := by
  rw [h.nodup.erase_eq_filter]
  refine List.filter_congr (fun y _ => ?_)
  by_cases hy : y = u <;> simp [hy]

theorem Ordered.mru (h : Ordered s) : Mru s := by
  obtain ⟨x, l, htabs, htop, hcur⟩ := h.front
  refine ⟨?_, h.nodup, ⟨x, ?_, ?_, hcur⟩, h.ordered.symm, fun e => ?_⟩
  · rw [listTabs, htabs]
    exact List.cons_ne_nil x l
  · unfold getCurTab ensureTabs
    rw [h.live, htabs]
    show Except.ok (s.m.topTab, s.m) = _
    rw [htop]
  · rw [listTabs, htabs]
    rfl
  · obtain ⟨m', hm', -⟩ := act_spec h.sane e
    exact ⟨m', hm'⟩

/-- The usage after a tab is used that the list already has in front. -/
theorem Ordered.use_front {x : Nat} {l : List Nat} (hcreated : t.usage.created = t.m.created)
    (hopened : ∀ y, y ∈ t.usage.opened ↔ y ∈ t.m.tabs) (hsane : t.m.Sane) (hlive : t.m.isDestroyed = false)
    (htabs : t.m.tabs = x :: l) (htop : t.m.topTab = some x) {u : Usage} (husage : t.usage = u.use x)
    (hord : u.tabs = x :: l) (hknown : ∀ y ∈ u.history, y < t.m.created) : Ordered t := by
  have hx : x ∈ t.m.tabs := by
    rw [htabs]
    exact List.mem_cons_self
  refine ⟨hsane, hlive, hcreated, hopened, ⟨x, l, htabs, htop, by rw [husage]; rfl⟩, ?_, fun y hy => ?_⟩
  · rw [husage, htabs]
    exact Recency.order_use_head List.nodup_range hord
  · rw [husage] at hy
    rcases List.mem_cons.1 hy with rfl | hy
    · exact hsane.created y hx
    · exact hknown y hy

/-- What is left of the usage when a tab is closed. -/
theorem Ordered.left (h : Ordered s) (u : Nat) :
    ({ s.usage with opened := s.usage.opened.filter (· ≠ u) } : Usage).tabs = s.m.tabs.erase u ∧
      ∀ y, y ∈ s.usage.opened.filter (· ≠ u) ↔ y ∈ s.m.tabs.erase u := by
  constructor
  · rw [h.erase_eq, ← h.ordered]
    exact Recency.order_remove u
  · intro y
    rw [h.erase_eq, List.mem_filter, List.mem_filter, h.opened]

theorem ordered_quiet (h : Ordered s) (hon : OnListed s.m e) (hidle : Idle s.m e) (halive : Alive s.m t.m)
    (hsane : t.m.Sane) (husage : t.usage = s.usage.act e) (htabs : t.m.tabs = s.m.tabs) (htop : t.m.topTab = s.m.topTab)
    (hcreated : t.m.created = s.m.created) : Ordered t := by
  obtain ⟨x, l, hx, hxtop, hcur⟩ := h.front
  have hlive : t.m.isDestroyed = false := halive.1.trans h.live
  have hsame : t.usage = s.usage → Ordered t := by
    intro hu
    refine ⟨hsane, hlive, ?_, ?_, ⟨x, l, htabs.trans hx, htop.trans hxtop, by rw [hu]; exact hcur⟩, ?_, ?_⟩
    · rw [hu, hcreated, h.created]
    · rw [hu, htabs]
      exact h.opened
    · rw [hu, htabs, h.ordered]
    · rw [hu, hcreated]
      exact h.known
  cases e with
  | getCurTab =>
    have hsome : s.usage.opened.isEmpty = false := by
      have hmem := (h.opened x).2 (hx ▸ List.mem_cons_self)
      cases ho : s.usage.opened with
      | nil =>
        rw [ho] at hmem
        cases hmem
      | cons y l => rfl
    refine hsame (husage.trans ?_)
    rw [Usage.act, hsome]
    rfl
  | addTab =>
    rw [Idle, h.live] at hidle
    cases hidle
  | changeTab u =>
    have hu : u = x := by
      rcases hidle with hd | hnone | hsome
      · rw [h.live] at hd
        cases hd
      · rw [hxtop] at hnone
        cases hnone
      · rw [hxtop] at hsome
        exact (Option.some.inj hsome).symm
    subst hu
    refine Ordered.use_front ?_ ?_ hsane hlive (htabs.trans hx) (htop.trans hxtop) husage (h.ordered.trans hx) ?_
    · rw [husage, hcreated]
      exact h.created
    · rw [husage, htabs]
      exact h.opened
    · rw [hcreated]
      exact h.known
  | removeTab u =>
    rcases hidle with hd | hnot
    · rw [h.live] at hd
      cases hd
    · exact absurd hon hnot
  | destroy => exact hon.elim
  | changeContext | onLayoutResume | onLayoutPause | onLayoutStop | setCallback | removeCallback => exact hsame husage

theorem ordered_removed {u : Nat} (h : Ordered s) (halive : Alive s.m t.m) (hsane : t.m.Sane)
    (husage : t.usage = s.usage.close u) (hleft : s.m.tabs.erase u ≠ []) (htabs : t.m.tabs = s.m.tabs.erase u)
    (htop : t.m.topTab = (s.m.tabs.erase u).head?) (hcreated : t.m.created = s.m.created) : Ordered t := by
  obtain ⟨x, l, hx, hxtop, hcur⟩ := h.front
  obtain ⟨y, l', hl'⟩ := List.exists_cons_of_ne_nil hleft
  obtain ⟨hord, hopened⟩ := h.left u
  have hlive : t.m.isDestroyed = false := halive.1.trans h.live
  have hknown : ∀ z ∈ s.usage.history, z < t.m.created := by
    rw [hcreated]
    exact h.known
  rw [hl'] at htabs htop hord
  have hhead : t.m.topTab = some y := htop
  simp only [hl', ← htabs] at hopened
  by_cases hsame : s.usage.current = some u
  · have hclose : t.usage = ({ s.usage with opened := s.usage.opened.filter (· ≠ u) } : Usage).use y := by
      rw [husage, Usage.close]
      simp only [hord, List.head?_cons, if_pos hsame]
    refine Ordered.use_front ?_ ?_ hsane hlive htabs hhead hclose hord hknown
    · rw [hclose, hcreated]
      exact h.created
    · rw [hclose]
      exact hopened
  · have hclose : t.usage = { s.usage with opened := s.usage.opened.filter (· ≠ u) } := by
      rw [husage, Usage.close]
      simp only [if_neg hsame]
    -- the current tab is in front before and after
    have hux : x ≠ u := fun heq => hsame (heq ▸ hcur)
    have hxy : y = x := by
      rw [hx, List.erase_cons_tail (by simpa using hux)] at hl'
      exact (List.cons.inj hl').1.symm
    refine ⟨hsane, hlive, ?_, ?_, ⟨y, l', htabs, hhead, ?_⟩, ?_, ?_⟩
    · rw [hclose, hcreated]
      exact h.created
    · rw [hclose]
      exact hopened
    · rw [hclose, hxy]
      exact hcur
    · rw [hclose, htabs]
      exact hord
    · rw [hclose]
      exact hknown

theorem ordered_removedLast {u : Nat} (h : Ordered s) (halive : Alive s.m t.m) (hsane : t.m.Sane)
    (husage : t.usage = s.usage.close u) (hleft : s.m.tabs.erase u = []) (htabs : t.m.tabs = [s.m.created])
    (htop : t.m.topTab = some s.m.created) (hcreated : t.m.created = s.m.created + 1) : Ordered t := by
  obtain ⟨x, l, hx, hxtop, hcur⟩ := h.front
  obtain ⟨hord, hopened⟩ := h.left u
  rw [hleft] at hord
  have hux : x = u := by
    by_contra hne
    rw [hx, List.erase_cons_tail (by simpa using hne)] at hleft
    cases hleft
  have hnone : s.usage.opened.filter (· ≠ u) = [] := by
    refine List.eq_nil_iff_forall_not_mem.2 (fun y hy => ?_)
    have hmem := (hopened y).1 hy
    rw [hleft] at hmem
    cases hmem
  have hclose : t.usage = ⟨s.m.created + 1, [s.m.created], s.m.created :: s.usage.history⟩ := by
    rw [husage, Usage.close]
    simp only [hord, List.head?_nil, if_pos (hux ▸ hcur)]
    simp only [Usage.createCurrent, Usage.create, Usage.use, hnone, h.created, List.nil_append]
  refine ⟨hsane, halive.1.trans h.live, ?_, ?_, ⟨_, [], htabs, htop, by rw [hclose]; rfl⟩, ?_, ?_⟩
  · rw [hclose, hcreated]
  · rw [hclose, htabs]
    exact fun _ => Iff.rfl
  · rw [hclose, htabs]
    unfold Usage.tabs
    rw [Recency.order_use (List.mem_singleton.2 rfl)]
    congr 1
    refine List.filter_eq_nil_iff.2 (fun y hy => ?_)
    have := List.mem_singleton.1 (Recency.mem_order.1 hy).1
    simp [this]
  · intro y hy
    rw [hclose] at hy
    rw [hcreated]
    rcases List.mem_cons.1 hy with rfl | hy
    · exact Nat.lt_succ_self _
    · exact Nat.lt_succ_of_lt (h.known y hy)

theorem ordered_added (h : Ordered s) (halive : Alive s.m t.m) (hsane : t.m.Sane) (husage : t.usage = s.usage.act .addTab)
    (htabs : t.m.tabs = s.m.tabs ++ [s.m.created]) (htop : t.m.topTab = s.m.topTab)
    (hcreated : t.m.created = s.m.created + 1) : Ordered t := by
  obtain ⟨x, l, hx, hxtop, hcur⟩ := h.front
  have hnewh : s.m.created ∉ s.usage.history := fun hm => Nat.lt_irrefl _ (h.known _ hm)
  have hord := h.ordered
  unfold Usage.tabs at hord
  rw [h.created] at hord
  refine ⟨hsane, halive.1.trans h.live, ?_, ?_,
    ⟨x, l ++ [s.m.created], by rw [htabs, hx]; rfl, htop.trans hxtop, ?_⟩, ?_, ?_⟩
  · rw [husage, hcreated]
    exact congrArg (· + 1) h.created
  · intro y
    rw [husage, htabs, List.mem_append, ← h.opened, ← h.created]
    exact List.mem_append
  · rw [husage]
    exact hcur
  · rw [husage, htabs, ← hord]
    show order s.usage.history (List.range (s.usage.created + 1)) (s.usage.opened ++ [s.usage.created]) = _
    rw [h.created, List.range_succ]
    exact Recency.order_create hnewh List.not_mem_range_self
  · intro y hy
    rw [hcreated]
    rw [husage] at hy
    exact Nat.lt_succ_of_lt (h.known y hy)

theorem ordered_changed {u : Nat} (h : Ordered s) (hlisted : u ∈ s.m.tabs) (halive : Alive s.m t.m) (hsane : t.m.Sane)
    (husage : t.usage = s.usage.act (.changeTab u)) (htabs : t.m.tabs = u :: s.m.tabs.erase u)
    (htop : t.m.topTab = some u) (hcreated : t.m.created = s.m.created) : Ordered t := by
  have hu : u ∈ s.usage.opened := (h.opened u).2 hlisted
  refine ⟨hsane, halive.1.trans h.live, ?_, ?_, ⟨u, _, htabs, htop, by rw [husage]; rfl⟩, ?_, ?_⟩
  · rw [husage, hcreated]
    exact h.created
  · intro y
    rw [husage, htabs, List.mem_cons, h.nodup.mem_erase_iff, ← h.opened]
    show y ∈ s.usage.opened ↔ _
    by_cases hy : y = u <;> simp [hy, hu]
  · rw [husage, htabs, h.erase_eq, ← h.ordered]
    exact Recency.order_use hu
  · intro y hy
    rw [husage] at hy
    rw [hcreated]
    rcases List.mem_cons.1 hy with rfl | hy
    · exact h.sane.created y hlisted
    · exact h.known y hy

theorem ordered_step (s : Session) (e : Event) (t : Session) (h : Ordered s) (hon : OnListed s.m e)
    (hs : step s e = some t) : Ordered t := by
  obtain ⟨hshift, hsane, husage⟩ := shift_of_step h.sane hs
  cases hshift with
  | quiet alive idle tabs top created => exact ordered_quiet h hon idle alive hsane husage tabs top created
  | first _ _ _ nil =>
    obtain ⟨x, l, hx, -⟩ := h.front
    rw [hx] at nil
    cases nil
  | added alive event _ tabs top created =>
    subst event
    exact ordered_added h alive hsane husage tabs top created
  | changed alive u c event live was other tabs top created =>
    subst event
    exact ordered_changed h hon alive hsane husage tabs top created
  | removed alive u event _ _ left tabs top created =>
    subst event
    exact ordered_removed h alive hsane husage left tabs top created
  | removedLast alive u event _ _ left tabs top created =>
    subst event
    exact ordered_removedLast h alive hsane husage left tabs top created
  | destroyed event =>
    rw [event] at hon
    exact hon.elim

theorem Ordered.follows_closed (h : Ordered s) {u : Nat} (htop : s.m.topTab = some u)
    (hs : step s (.removeTab u) = some t) :
    t.m.topTab = (((recency s.usage.history).filter (· ∈ s.m.listTabs.erase u)).head?.or
      ((List.range s.m.created).filter (fun x => x ∈ s.m.listTabs.erase u ∧ x ∉ s.usage.history)).head?).or
        (some s.m.created) := by
  obtain ⟨hshift, -, -⟩ := shift_of_step h.sane hs
  have hlisted := h.sane.top u htop
  have hsplit : order s.usage.history (List.range s.m.created) (s.m.tabs.erase u) = s.m.tabs.erase u := by
    obtain ⟨hord, hopened⟩ := h.left u
    refine (Recency.order_congr hopened).symm.trans ?_
    rw [← h.created]
    exact hord
  unfold order at hsplit
  cases hshift with
  | quiet _ idle =>
    rcases idle with hd | hnot
    · rw [h.live] at hd
      cases hd
    · exact absurd hlisted hnot
  | first _ event | added _ event | changed _ _ _ event | destroyed event => cases event
  | removed _ v event _ _ left _ top =>
    cases event
    rw [listTabs, ← List.head?_append, hsplit, top]
    obtain ⟨y, l', hl'⟩ := List.exists_cons_of_ne_nil left
    rw [hl']
    rfl
  | removedLast _ v event _ _ left _ top =>
    cases event
    rw [listTabs, ← List.head?_append, hsplit, top, left]
    rfl

theorem follows_step (h : Ordered s) (hon : OnListed s.m e) (hs : step s e = some t) : Follows s e t := by
  obtain ⟨x, l, hx, hxtop, hcur⟩ := h.front
  refine ⟨?_, ?_, ?_⟩
  · rintro u rfl
    obtain ⟨y, l', -, hytop, hycur⟩ := (ordered_step s _ t h hon hs).front
    rw [(shift_of_step h.sane hs).2.2] at hycur
    rw [hytop, ← hycur]
    rfl
  · rintro u rfl htop
    exact h.follows_closed htop hs
  · intro hchanges hcloses
    obtain ⟨hshift, -, -⟩ := shift_of_step h.sane hs
    cases hshift with
    | quiet _ _ _ top | added _ _ _ _ top => exact top
    | first _ _ _ nil =>
      rw [hx] at nil
      cases nil
    | changed _ u _ event => exact absurd event (hchanges u)
    | removed _ u event _ _ left _ top =>
      have hne : x ≠ u := fun heq => hcloses u event (heq ▸ hxtop)
      rw [top, hxtop, hx, List.erase_cons_tail (by simpa using hne)]
      rfl
    | removedLast _ u event _ _ left =>
      have hne : x ≠ u := fun heq => hcloses u event (heq ▸ hxtop)
      rw [hx, List.erase_cons_tail (by simpa using hne)] at left
      cases left
    | destroyed event =>
      rw [event] at hon
      exact hon.elim

/-- Nothing is listed and nothing is current. -/
def Gone (s : Session) : Prop := s.m.listTabs = [] ∧ s.m.getCurTab = .ok (none, s.m)

theorem gone_of_destroyed (hs : s.m.Sane) (hd : s.m.isDestroyed = true) : Gone s := by
  refine ⟨(hs.destroyed hd).1, ?_⟩
  unfold getCurTab
  rw [if_pos hd]

theorem destroyed_step (s : Session) (e : Event) (t : Session) (h : s.m.Sane ∧ s.m.isDestroyed = true)
    (hs : step s e = some t) : t.m.Sane ∧ t.m.isDestroyed = true := by
  obtain ⟨hshift, hsane, -⟩ := shift_of_step h.1 hs
  refine ⟨hsane, ?_⟩
  cases hshift with
  | destroyed _ gone => exact gone
  | quiet alive | first alive | added alive | changed alive | removed alive | removedLast alive =>
    exact alive.1.trans h.2

theorem destroyed_of_destroy (h : s.m.Sane) (hs : step s .destroy = some t) :
    t.m.Sane ∧ t.m.isDestroyed = true := by
  obtain ⟨-, hsane, -⟩ := shift_of_step h hs
  refine ⟨hsane, ?_⟩
  have ht : t.m = s.m.destroy := by
    cases hs
    rfl
  rw [ht, destroy]
  split
  · assumption
  · rfl

theorem ordered_created {context cb : Nat} {s₀ : Session}
    (h : Machine.run step (start context) [.setCallback cb, .getCurTab] = some s₀) : Ordered s₀ := by
  cases h
  refine ⟨?_, rfl, rfl, fun _ => Iff.rfl, ⟨0, [], rfl, rfl, rfl⟩, rfl, fun x hx => ?_⟩
  · refine ⟨fun _ => rfl, fun h => (by cases h), fun t ht => ?_, fun t ht => ?_⟩
    · rw [List.mem_singleton.1 ht]
      exact Nat.one_pos
    · cases ht
      exact List.mem_singleton.2 rfl
  · rw [List.mem_singleton.1 hx]
    exact Nat.one_pos

/-- **The tabs are a most-recently-used list.**  From the manager as the browser creates it, in every run that chooses and
closes listed tabs: the list is the most-recently-used order of the tabs as they were opened, chosen and closed, with the tab
in use current and in front; a tab chosen is current, and closing the current tab goes to the latest used one that is left;
and once the manager is destroyed it is empty whatever follows. -/
theorem tabs_mru (context cb : Nat) (s₀ : Session)
    (h₀ : Machine.run step (start context) [.setCallback cb, .getCurTab] = some s₀) (es : List Event)
    (hes : Machine.along step (fun s e _ => OnListed s.m e) s₀ es) :
    Machine.always step Mru s₀ es ∧ Machine.along step Follows s₀ es ∧
      ∀ s s' es', Machine.run step s₀ es = some s → step s .destroy = some s' → Machine.always step Gone s' es' := by
  have hstart := ordered_created h₀
  have hinv : Machine.always step Ordered s₀ es := Machine.always_of_along ordered_step es s₀ hstart hes
  refine ⟨Machine.always_mono (fun _ h => h.mru) es s₀ hinv, ?_, fun s s' es' hrun hd => ?_⟩
  · exact Machine.along_of_along (fun s e t h hon hs => ⟨ordered_step s e t h hon hs, follows_step h hon hs⟩) es s₀ hstart
      hes
  · have hs := Machine.always_last es s₀ hinv hrun
    have hgone := Machine.always_of_inv destroyed_step es' s' (destroyed_of_destroy hs.sane hd)
    exact Machine.always_mono (fun _ h => gone_of_destroyed h.1 h.2) es' s' hgone

/-- Three tabs are opened behind the first, two are chosen one after the other, and the current one is closed: the one chosen
before it comes back. -/
theorem tabs_mru_four :
    ∃ s₀, Machine.run step (start 0) [.setCallback 0, .getCurTab] = some s₀ ∧
      (Machine.run step s₀ [.addTab, .addTab, .addTab, .changeTab 3, .changeTab 2, .removeTab 2]).map
        (fun s => (s.m.listTabs, s.usage)) = some ([3, 0, 1], ⟨4, [0, 1, 3], [3, 2, 3, 0]⟩) ∧
      Machine.always step Mru s₀ [.addTab, .addTab, .addTab, .changeTab 3, .changeTab 2, .removeTab 2] ∧
      Machine.along step Follows s₀ [.addTab, .addTab, .addTab, .changeTab 3, .changeTab 2, .removeTab 2] := by
  obtain ⟨s₀, h₀⟩ : ∃ s₀, Machine.run step (start 0) [.setCallback 0, .getCurTab] = some s₀ := ⟨_, rfl⟩
  have hmru := tabs_mru 0 0 s₀ h₀ [.addTab, .addTab, .addTab, .changeTab 3, .changeTab 2, .removeTab 2] (by
    cases h₀
    decide)
  refine ⟨s₀, h₀, ?_, hmru.1, hmru.2.1⟩
  cases h₀
  decide

end TabManager
end Riddles
