import GoRiddles.Machine
import GoRiddles.TabManager
/-!
# BrowserHandover — the tab manager between successive browser screens

`sTabManager` outlives a screen: a new `BrowserData` takes what it finds there, and one that is cleared destroys its
manager and forgets it.  Here the screens come one after the other, a new one when the one before is finished, which may be
before that one is cleared.  Of a `BrowserData` only its current tab and its manager are kept.
-/
namespace Riddles

/-- Where an activity is in its life.  A finished activity is cleared later. -/
inductive Stage where
  | background
  | resumed
  | finished
  | cleared
  deriving DecidableEq, Repr

/-- A `BrowserActivity` and its `BrowserData`. -/
structure BrowserScreen where
  mCurTab     : Option Nat
  /-- Which of the managers made so far. -/
  mTabManager : Option Nat
  stage       : Stage
  deriving DecidableEq, Repr

def BrowserScreen.new : BrowserScreen := ⟨none, none, .background⟩

structure Handover where
  managers    : List TabManager
  sTabManager : Option Nat
  screens     : List BrowserScreen
  deriving DecidableEq, Repr

namespace Handover

def start : Handover := ⟨[], none, []⟩

/-- `initTabManager` of the screen `s`, which is the `i`-th. -/
def initTabManager (p : Handover) (i : Nat) (s : BrowserScreen) (ctx : Nat) : Except Thrown (Handover × BrowserScreen) :=
  match p.sTabManager with
  | none => do
    let (curTab, m) ← ((TabManager.new ctx).setCallback i).getCurTab
    let s' := { s with mTabManager := some p.managers.length, mCurTab := curTab.or s.mCurTab }
    return ({ p with managers := p.managers ++ [m], sTabManager := some p.managers.length }, s')
  | some k =>
    return ({ p with managers := p.managers.modify k (·.changeContext ctx) }, { s with mTabManager := some k })

def onCleared (p : Handover) (i : Nat) (s : BrowserScreen) : Handover :=
  let managers := match s.mTabManager with
    | none => p.managers
    | some k => p.managers.modify k (fun m => (m.removeCallback i).destroy)
  { p with managers := managers, sTabManager := none, screens := p.screens.set i { s with stage := .cleared } }

inductive Event where
  /-- A new screen is created. -/
  | onCreate (ctx : Nat)
  | onPostResume (i : Nat)
  | onPause (i : Nat)
  | finish (i : Nat)
  /-- The activity is destroyed and created again with the same view model. -/
  | recreate (i : Nat) (ctx : Nat)
  | onCleared (i : Nat)
  deriving DecidableEq, Repr

/-- The screen goes from one stage to another. -/
def go (p : Handover) (i : Nat) (source target : Stage) : Option Handover :=
  match p.screens[i]? with
  | none => none
  | some s => if s.stage = source then some { p with screens := p.screens.set i { s with stage := target } } else none

def step (p : Handover) : Event → Option Handover
  | .onCreate ctx =>
    if p.screens.all (fun s => s.stage = .finished ∨ s.stage = .cleared) then
      match p.initTabManager p.screens.length .new ctx with
      | .error _ => none
      | .ok (p', s) => some { p' with screens := p'.screens ++ [s] }
    else none
  | .onPostResume i => p.go i .background .resumed
  | .onPause i => p.go i .resumed .background
  | .finish i => p.go i .background .finished
  | .recreate i ctx =>
    match p.screens[i]? with
    | none => none
    | some s =>
      if s.stage = .background then
        match p.initTabManager i s ctx with
        | .error _ => none
        | .ok (p', s') => some { p' with screens := p'.screens.set i s' }
      else none
  | .onCleared i =>
    match p.screens[i]? with
    | none => none
    | some s => if s.stage = .finished then some (p.onCleared i s) else none

/-! ## Ownership -/

/-- The screen has a current tab and a live manager, and `sTabManager` is that manager. -/
def Owns (p : Handover) (s : BrowserScreen) : Prop :=
  (∃ t, s.mCurTab = some t) ∧
    ∃ k m, s.mTabManager = some k ∧ p.managers[k]? = some m ∧ m.isDestroyed = false ∧ p.sTabManager = some k

/-- **The screen in the foreground owns the shared manager.** -/
def Safe (p : Handover) : Prop := ∀ s ∈ p.screens, s.stage = .resumed → Owns p s

/-- A new screen is created when the one before has been cleared. -/
def AfterClearing (p : Handover) (e : Event) : Prop := ∀ ctx, e = .onCreate ctx → p.sTabManager = none

instance (p : Handover) : (e : Event) → Decidable (AfterClearing p e)
  | .onCreate ctx => decidable_of_iff (p.sTabManager = none) ⟨fun h _ _ => h, fun h => h ctx rfl⟩
  | .onPostResume _ | .onPause _ | .finish _ | .recreate _ _ | .onCleared _ => isTrue (fun _ h => by cases h)

/-- What every step keeps: a screen that is not cleared owns the manager, and there is at most one. -/
structure Owned (p : Handover) : Prop where
  owns : ∀ (i : Nat) s, p.screens[i]? = some s → s.stage ≠ .cleared → Owns p s
  one  : ∀ (i j : Nat) s s', p.screens[i]? = some s → p.screens[j]? = some s' → s.stage ≠ .cleared → s'.stage ≠ .cleared →
    i = j

variable {p q : Handover} {s s' : BrowserScreen} {i : Nat}

theorem Owned.safe (h : Owned p) : Safe p := by
  intro s hs hstage
  obtain ⟨i, hi⟩ := List.mem_iff_getElem?.1 hs
  apply h.owns i s hi
  rw [hstage]
  decide

theorem owned_start : Owned start := by
  constructor
  · intro i s hi
    simp [start] at hi
  · intro i j s s' hi
    simp [start] at hi

/-- A screen is replaced by one that owns the manager or is cleared. -/
theorem Owned.set (h : Owned p) (hi : p.screens[i]? = some s) (hlive : s.stage ≠ .cleared)
    (hscreens : q.screens = p.screens.set i s') (hs' : s'.stage ≠ .cleared → Owns q s') : Owned q := by
  have hget : ∀ (j : Nat) u, q.screens[j]? = some u → u.stage ≠ .cleared → j = i ∧ u = s' := by
    intro j u hj hu
    rw [hscreens, List.getElem?_set] at hj
    split at hj
    · rename_i hij
      split at hj
      · exact ⟨hij.symm, (Option.some.inj hj).symm⟩
      · cases hj
    · rename_i hij
      exact absurd (h.one i j s u hi hj hlive hu) hij
  constructor
  · intro j u hj hu
    obtain ⟨-, rfl⟩ := hget j u hj hu
    exact hs' hu
  · intro j k u v hj hk hu hv
    rw [(hget j u hj hu).1, (hget k v hk hv).1]

theorem Owned.go {source target : Stage} (h : Owned p) (hs : source ≠ .cleared) (hg : p.go i source target = some q) :
    Owned q := by
  unfold Handover.go at hg
  split at hg
  · cases hg
  · rename_i s hi
    split at hg
    · rename_i hstage
      cases hg
      have hlive : s.stage ≠ .cleared := hstage ▸ hs
      exact h.set hi hlive rfl (fun _ => h.owns i s hi hlive)
    · cases hg

/-- A manager that is found gets the context and stays alive. -/
theorem Owns.changeContext (h : Owns p s) (i ctx : Nat) :
    ∃ q, p.initTabManager i s ctx = .ok (q, s) ∧ q.screens = p.screens ∧ Owns q s := by
  obtain ⟨hcur, k, m, hk, hm, hlive, hshared⟩ := h
  have hs : { s with mTabManager := some k } = s := by
    cases s
    cases hk
    rfl
  refine ⟨{ p with managers := p.managers.modify k (·.changeContext ctx) }, ?_, rfl, hcur, k, m.changeContext ctx, hk, ?_,
    ?_, hshared⟩
  · simp only [initTabManager, hshared, hs]
    rfl
  · simp [hm]
  · simp [TabManager.changeContext, hlive, TabManager.call]

/-- Where there is no manager, one is made and owned. -/
theorem owns_created (hnone : p.sTabManager = none) (i ctx : Nat) (s : BrowserScreen) :
    ∃ q s', p.initTabManager i s ctx = .ok (q, s') ∧ q.screens = p.screens ∧ Owns q s' := by
  unfold initTabManager
  rw [hnone]
  refine ⟨_, _, rfl, rfl, ⟨0, rfl⟩, p.managers.length, _, rfl, List.getElem?_concat_length, rfl, rfl⟩

theorem Owned.onCreate {ctx : Nat} (h : Owned p) (hnone : p.sTabManager = none) (hs : step p (.onCreate ctx) = some q) :
    Owned q := by
  -- a screen that is not cleared owns `sTabManager`, so all are
  have hcleared : ∀ (j : Nat) u, p.screens[j]? = some u → u.stage = .cleared := by
    intro j u hj
    by_contra hu
    obtain ⟨-, k, m, -, -, -, hk⟩ := h.owns j u hj hu
    cases hnone.symm.trans hk
  obtain ⟨p', s, hp', hscreens, howns⟩ := owns_created hnone p.screens.length ctx .new
  simp only [step] at hs
  split at hs
  · rw [hp'] at hs
    cases hs
    have hget : ∀ (j : Nat) u, (p'.screens ++ [s])[j]? = some u → u.stage ≠ .cleared → j = p.screens.length ∧ u = s := by
      intro j u hj hu
      rw [hscreens, List.getElem?_append] at hj
      split at hj
      · exact absurd (hcleared j u hj) hu
      · rename_i hlt
        have hmem := List.mem_of_getElem? hj
        have hj' := (List.getElem?_eq_some_iff.1 hj).1
        simp only [List.length_cons, List.length_nil] at hj'
        exact ⟨by omega, List.mem_singleton.1 hmem⟩
    constructor
    · intro j u hj hu
      obtain ⟨-, rfl⟩ := hget j u hj hu
      exact howns
    · intro j k u v hj hk hu hv
      rw [(hget j u hj hu).1, (hget k v hk hv).1]
  · cases hs

theorem owned_step (p : Handover) (e : Event) (q : Handover) (h : Owned p) (hclear : AfterClearing p e)
    (hs : step p e = some q) : Owned q := by
  cases e with
  | onCreate ctx => exact h.onCreate (hclear ctx rfl) hs
  | onPostResume i => exact h.go (by decide) hs
  | onPause i => exact h.go (by decide) hs
  | finish i => exact h.go (by decide) hs
  | recreate i ctx =>
    simp only [step] at hs
    split at hs
    · cases hs
    · rename_i s hi
      split at hs
      · rename_i hstage
        have hlive : s.stage ≠ .cleared := by
          rw [hstage]
          decide
        obtain ⟨p', hp', hscreens, howns⟩ := (h.owns i s hi hlive).changeContext i ctx
        rw [hp'] at hs
        cases hs
        exact h.set hi hlive (congrArg (List.set · i s) hscreens) (fun _ => howns)
      · cases hs
  | onCleared i =>
    simp only [step] at hs
    split at hs
    · cases hs
    · rename_i s hi
      split at hs
      · rename_i hstage
        have hlive : s.stage ≠ .cleared := by
          rw [hstage]
          decide
        cases hs
        exact h.set hi hlive rfl (fun hne => absurd rfl hne)
      · cases hs

/-- **The shared manager is handed over safely** in every run in which a new screen is created only once the one before
has been cleared. -/
theorem handover_safe (es : List Event) (hes : Machine.along step (fun p e _ => AfterClearing p e) start es) :
    Machine.always step Safe start es :=
  Machine.always_mono (fun _ h => h.safe) es start (Machine.always_of_along owned_step es start owned_start hes)

/-- One screen after the other, the first created again in between. -/
theorem handover_safe_twice :
    (Machine.run step start [.onCreate 0, .onPostResume 0, .onPause 0, .recreate 0 1, .onPostResume 0, .onPause 0, .finish 0,
      .onCleared 0, .onCreate 2, .onPostResume 1]).isSome ∧
    Machine.always step Safe start [.onCreate 0, .onPostResume 0, .onPause 0, .recreate 0 1, .onPostResume 0, .onPause 0,
      .finish 0, .onCleared 0, .onCreate 2, .onPostResume 1] :=
  ⟨by decide, handover_safe _ (by decide)⟩

/-- **A screen created before the finished one is cleared gets its manager and never a tab**, and the manager is destroyed
under it. -/
theorem handover_destroyed_manager :
    ∃ p s m, Machine.run step start [.onCreate 0, .onPostResume 0, .onPause 0, .finish 0, .onCreate 1, .onPostResume 1,
      .onCleared 0] = some p ∧ p.screens[1]? = some s ∧ s.stage = .resumed ∧ s.mCurTab = none ∧
      s.mTabManager = some 0 ∧ p.managers[0]? = some m ∧ m.isDestroyed = true ∧ p.sTabManager = none ∧ ¬ Safe p := by
  refine ⟨_, _, _, rfl, rfl, rfl, rfl, rfl, rfl, rfl, rfl, fun hsafe => ?_⟩
  obtain ⟨⟨t, ht⟩, -⟩ := hsafe _ (List.mem_of_getElem? (i := 1) rfl) rfl
  cases ht

end Handover
end Riddles
