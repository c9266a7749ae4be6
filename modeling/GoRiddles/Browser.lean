import GoRiddles.TabManager
import Mathlib.Logic.Function.Basic
/-!
# Browser — one browser screen and its tabs

`BrowserData.kt`, `Tab.kt`, the pausing in `AndroidWebEngine.kt`, and what `BaseActivity.kt` forwards to its observers.  A
`Browser` is a `BrowserData` that has its manager, together with the tabs and the activity it is shown in.  The manager's
calls on tabs and callbacks never come back into the manager, so an operation is the manager's own and then its calls,
received in order (`manage`).
-/
namespace Riddles

/-- The views a tab can put on the screen. -/
inductive ContentView where
  | homeView (tab : Nat)
  | webView (tab : Nat)
  deriving DecidableEq, Repr

structure Tab where
  viewIsHome  : Bool
  tabCallback : Option Nat
  /-- The tab's web view is paused (`WebView.onPause`). -/
  paused      : Bool
  deriving DecidableEq, Repr

def Tab.new : Tab := ⟨true, none, false⟩

/-- `BrowserData` among the callbacks; the others are those of the tab grid. -/
def browserData : Nat := 0

structure Browser where
  m                         : TabManager
  tab                       : Nat → Tab
  /-- The timers of all web views of the process run (`WebView.pauseTimers`, `resumeTimers`). -/
  timers                    : Bool
  mCurTab                   : Option Nat
  addOrRemoveTabContentView : Option ContentView
  /-- The activity is resumed. -/
  resumed                   : Bool
  /-- The manager is an observer of this instance of the activity. -/
  observed                  : Bool

namespace Browser

def modify (b : Browser) (t : Nat) (f : Tab → Tab) : Browser := { b with tab := Function.update b.tab t (f (b.tab t)) }

/-! ## `AndroidWebEngine` and `Tab` -/

def webPause (b : Browser) (t : Nat) : Browser := { b.modify t (fun x => { x with paused := true }) with timers := false }

def webResume (b : Browser) (t : Nat) : Browser := { b.modify t (fun x => { x with paused := false }) with timers := true }

def getTabContentView (b : Browser) (t : Nat) : ContentView := if (b.tab t).viewIsHome then .homeView t else .webView t

def onTabContentChanged (b : Browser) (newContentView : ContentView) : Browser :=
  { b with addOrRemoveTabContentView := some newContentView }

/-- `tabCallback?.onTabContentChanged(getTabContentView())`. -/
def contentChanged (b : Browser) (t : Nat) : Browser :=
  if (b.tab t).tabCallback = some browserData then b.onTabContentChanged (b.getTabContentView t) else b

def changeContentViewTo (b : Browser) (t : Nat) (isHome : Bool) : Browser :=
  let b' := b.modify t (fun x => { x with viewIsHome := isHome })
  (if isHome then b'.webPause t else b'.webResume t).contentChanged t

def navHome (b : Browser) (t : Nat) : Browser :=
  if (b.tab t).viewIsHome then b else b.changeContentViewTo t true

/-- Going back inside the page changes nothing that is modelled. -/
def navBack (b : Browser) (t : Nat) (canGoBack : Bool) : Browser :=
  if (b.tab t).viewIsHome then b
  else if canGoBack then b
  else b.navHome t

def navForward (b : Browser) (t : Nat) : Browser :=
  if (b.tab t).viewIsHome then b.changeContentViewTo t false else b

def searchContent (b : Browser) (t : Nat) : Browser :=
  if (b.tab t).viewIsHome then (b.modify t (fun x => { x with viewIsHome := false })).contentChanged t else b

def setCallback (b : Browser) (t : Nat) (cb : Nat) : Browser := b.modify t (fun x => { x with tabCallback := some cb })

/-- Clears the callback whoever holds it. -/
def removeCallback (b : Browser) (t : Nat) : Browser := b.modify t (fun x => { x with tabCallback := none })

def shouldInterceptBackEvent (b : Browser) (t : Nat) (canGoBack : Bool) : Bool := !(b.tab t).viewIsHome && canGoBack

def onLayoutCreate (b : Browser) (t : Nat) : Browser := b.modify t (fun _ => Tab.new)

def onLayoutPause (b : Browser) (t : Nat) : Browser := if (b.tab t).viewIsHome then b else b.webPause t

def onLayoutResume (b : Browser) (t : Nat) : Browser := if (b.tab t).viewIsHome then b else b.webResume t

def onLayoutDestroy (b : Browser) (t : Nat) : Browser := b.removeCallback t

/-! ## `BrowserData` -/

def initTab (b : Browser) (tab : Nat) : Browser :=
  let b' := match b.mCurTab with
    | none => b
    | some cur => b.removeCallback cur
  { b' with mCurTab := some tab, addOrRemoveTabContentView := some (b'.getTabContentView tab) }.setCallback tab browserData

/-- What a call of the manager does: to a tab, or to `BrowserData` if it is the callback. -/
def receive (b : Browser) : Call → Browser
  | .onLayoutCreate t          => b.onLayoutCreate t
  | .onLayoutResume t          => b.onLayoutResume t
  | .onLayoutPause t           => b.onLayoutPause t
  | .onLayoutDestroy t         => b.onLayoutDestroy t
  | .onCurTabChanged cb curTab => if cb = browserData then b.initTab curTab else b
  | .onLayoutStop _ | .changeContext _ _ | .onTabSetChanged _ => b

def received (b : Browser) (m' : TabManager) : Browser :=
  (m'.calls.drop b.m.calls.length).foldl receive { b with m := m' }

def manage (b : Browser) (e : TabManager.Event) : Except Thrown Browser := (b.m.act e).map b.received

/-- A `BrowserData` whose activity has just made a new manager and observes it. -/
def withManager (ctx : Nat) (timers : Bool) : Browser where
  m                         := TabManager.new ctx
  tab                       := fun _ => Tab.new
  timers                    := timers
  mCurTab                   := none
  addOrRemoveTabContentView := none
  resumed                   := false
  observed                  := true

/-- `initTabManager`, where `none` is a `sTabManager` that is null: a manager is made, observed and asked for its first tab.
A manager that is there only gets the new context; the new activity does not observe it. -/
def initTabManager (ctx : Nat) (timers : Bool) : Option Browser → Except Thrown Browser
  | none => do
    let b ← (withManager ctx timers).manage (.setCallback browserData)
    let (curTab, m') ← b.m.getCurTab
    match curTab with
    | none => return b.received m'
    | some tab => return (b.received m').initTab tab
  | some b => do
    let b' ← b.manage (.changeContext ctx)
    return { b' with observed := false }

def onCurTab (b : Browser) (f : Browser → Nat → Browser) : Browser :=
  match b.mCurTab with
  | none => b
  | some t => f b t

/-- The activity forwards to the manager if it observes it. -/
def forward (b : Browser) (e : TabManager.Event) : Except Thrown Browser :=
  if b.observed then b.manage e else .ok b

inductive Event where
  | addTab
  | changeTab (toTab : Nat)
  | removeTab (remove : Nat)
  /-- A tab grid registers and unregisters. -/
  | openGrid (cb : Nat)
  | closeGrid (cb : Nat)
  | onNavBack (canGoBack : Bool)
  | onNavForward
  | onNavHome
  /-- The back key, when the page handles it. -/
  | onBackPressed (canGoBack : Bool)
  /-- A search from another screen; a blank one is dropped. -/
  | onNewIntent (isNotBlank : Bool)
  | onPostResume
  | onPause
  | onStop
  /-- The activity has been destroyed and is created again; the view model and the manager survive. -/
  | recreate (ctx : Nat)
  deriving DecidableEq, Repr

/-- Tabs that exist, callbacks of grids, and the order in which an activity is resumed, paused and created again. -/
def allows (b : Browser) : Event → Bool
  | .changeTab t | .removeTab t => decide (t < b.m.created)
  | .openGrid cb | .closeGrid cb => decide (cb ≠ browserData)
  | .onBackPressed canGoBack => b.mCurTab.any (fun t => b.shouldInterceptBackEvent t canGoBack)
  | .onPostResume => !b.resumed
  | .onPause => b.resumed
  | .onStop | .recreate _ => !b.resumed
  | _ => true

def act (b : Browser) : Event → Except Thrown Browser
  | .addTab               => b.manage .addTab
  | .changeTab toTab      => b.manage (.changeTab toTab)
  | .removeTab remove     => b.manage (.removeTab remove)
  | .openGrid cb          => b.manage (.setCallback cb)
  | .closeGrid cb         => b.manage (.removeCallback cb)
  | .onNavBack canGoBack  => .ok (b.onCurTab (fun b t => b.navBack t canGoBack))
  | .onNavForward         => .ok (b.onCurTab navForward)
  | .onNavHome            => .ok (b.onCurTab navHome)
  | .onBackPressed _      => .ok b
  | .onNewIntent notBlank => .ok (if notBlank then b.onCurTab searchContent else b)
  | .onPostResume         => { b with resumed := true }.forward .onLayoutResume
  | .onPause              => { b with resumed := false }.forward .onLayoutPause
  | .onStop               => b.forward .onLayoutStop
  | .recreate ctx         => initTabManager ctx b.timers (some b)

def step (b : Browser) (e : Event) : Option Browser := if b.allows e then (b.act e).toOption else none

end Browser
end Riddles
