import GoRiddles.Service
/-!
# Home — the home screen, the server list and the connection object

`HomeAc.kt`, `ChooseServerAc.kt`, `ConnectServer.kt` and `ConnectTimeManager.kt`, for one instance of `HomeAc`.  What runs
later is data until it does: a permission request that was not answered, an animator that did not end, an activity result
that was not delivered, and the coroutines that `connect` and `disconnect` launch.  What the platform answers (the network
status, whether the VPN is prepared, whether the app is in front) comes with the event.
-/
namespace Riddles

/-! ## `ConnectTimeManager` -/

structure ConnectTimeManager where
  time : Nat
  /-- `job` is not null. -/
  job  : Bool
  deriving DecidableEq, Repr

namespace ConnectTimeManager

def reset (m : ConnectTimeManager) : ConnectTimeManager := { m with time := 0 }

def start (m : ConnectTimeManager) : ConnectTimeManager := { m with job := true }

def stop (m : ConnectTimeManager) : ConnectTimeManager := { m with job := false }

def twoDigits (n : Nat) : Text := if n < 10 then '0' :: intToString n else intToString n

def transTime (t : Nat) : Text :=
  twoDigits (t / 3600) ++ ":".toList ++ twoDigits (t % 3600 / 60) ++ ":".toList ++ twoDigits (t % 3600 % 60)

end ConnectTimeManager

/-! ## `ConnectServer` -/

structure ConnectServer where
  state         : State
  currentServer : ServerBean
  lastServer    : ServerBean
  fastServer    : ServerBean
  timer         : ConnectTimeManager
  /-- The coroutines of `connect` that have not run. -/
  connects      : Nat
  /-- The coroutines of `disconnect` that have not run. -/
  disconnects   : Nat
  deriving DecidableEq, Repr

namespace ConnectServer

def isConnected (c : ConnectServer) : Bool := c.state = .connected

def isDisconnected (c : ConnectServer) : Bool := c.state = .stopped

/-- The server that the next start is for, or the last one was for. -/
def effective (c : ConnectServer) : ServerBean := if c.currentServer.isFast then c.fastServer else c.currentServer

def address (c : ConnectServer) : Text × Int := c.effective.address

def connect (c : ConnectServer) : ConnectServer :=
  { c with state := .connecting, timer := c.timer.reset, connects := c.connects + 1 }

/-- The coroutine of `connect` up to `Core.startService`, with the profile id it writes. -/
def connectBody (c : ConnectServer) (info : ServerInfoManager) (table : ProfileTable) (draw : Nat) :
    Except Thrown (ConnectServer × Nat) :=
  if c.currentServer.isFast then
    match info.getFastServer draw with
    | .error e => .error e
    | .ok fastServer => .ok ({ c with fastServer := fastServer }, fastServer.getServerId table)
  else .ok (c, c.currentServer.getServerId table)

def disconnect (c : ConnectServer) : ConnectServer :=
  { c with state := .stopping, disconnects := c.disconnects + 1 }

/-- The part of `stateChanged` and `onServiceConnected` that both have. -/
def report (c : ConnectServer) (state : State) : ConnectServer :=
  if state = .connected then { c with state := state, lastServer := c.currentServer, timer := c.timer.start }
  else { c with state := state }

end ConnectServer

/-! ## The screens -/

/-- The `action` of a result of `ChooseServerAc`. -/
inductive Action where
  | connect
  | disconnect
  /-- The empty string. -/
  | empty
  deriving DecidableEq, Repr

/-- `ChooseServerAc`, over the home screen. -/
inductive Chooser where
  | closed
  | list
  /-- The dialog is shown for a server. -/
  | dialog (bean : ServerBean)
  deriving DecidableEq, Repr

structure Home where
  server         : ConnectServer
  canClick       : Bool
  permission     : Bool
  connect        : Bool
  /-- `registerResult` was launched and has not answered. -/
  asked          : Bool
  /-- The animators that are running. -/
  animators      : Nat
  /-- `AdShowed.firstLoad`, and whether the guide is visible. -/
  firstLoad      : Bool
  drawerOpen     : Bool
  destroyed      : Bool
  statusText     : Text
  statusSelected : Bool
  name           : Text
  connectTime    : Text
  toasts         : List Text
  noNetDialogs   : Nat
  /-- `ResultAc` as it was started, with its extra. -/
  results        : List Bool
  chooser        : Chooser
  /-- The result of `ChooseServerAc` that is not delivered yet. -/
  result         : Option Action
  deriving DecidableEq, Repr

namespace Home

/-- A process that has just shown its first `HomeAc`. -/
def initial : Home where
  server         := ⟨.stopped, {}, {}, {}, ⟨0, false⟩, 0, 0⟩
  canClick       := true
  permission     := false
  connect        := true
  asked          := false
  animators      := 0
  firstLoad      := true
  drawerOpen     := false
  destroyed      := false
  statusText     := "Disconnect".toList
  statusSelected := false
  name           := fasterServer
  connectTime    := "00:00:00".toList
  toasts         := []
  noNetDialogs   := 0
  results        := []
  chooser        := .closed
  result         := none

/-- A list with one server. -/
def oneServer : ServerInfoManager where
  cityList         := []
  localServerList  := [{ goRiIp := "192.0.2.1".toList, goRiPort := 8388, goRiCountry := "Japan".toList }]
  onlineServerList := []

def updateServerInfo (h : Home) : Home := { h with name := h.server.currentServer.goRiCountry }

def updateConnectingUI (h : Home) : Home := { h with statusSelected := true, statusText := "Connecting...".toList }

def updateConnectedUI (h : Home) : Home := { h with statusSelected := true, statusText := "Connected".toList }

def updateStoppedUI (h : Home) : Home := { h with statusSelected := false, statusText := "Disconnect".toList }

def updateDisConnectingUI (h : Home) : Home := { h with statusSelected := true, statusText := "Disconnecting...".toList }

def showToast (h : Home) (text : Text) : Home := { h with toasts := h.toasts ++ [text] }

def startConnectAnimator (h : Home) (connect : Bool) : Home :=
  { h with connect := connect, animators := h.animators + 1 }

def connectServer (h : Home) : Home :=
  { h.updateConnectingUI with server := h.server.connect }.startConnectAnimator true

def clickConnect (h : Home) (netStatus : Nat) (prepared : Bool) : Home :=
  if !h.canClick then h
  else
    let h := { h with canClick := false, firstLoad := false }
    if h.server.isConnected then
      { h with server := h.server.disconnect }.updateDisConnectingUI.startConnectAnimator false
    else
      let h := h.updateServerInfo
      if netStatus = 1 then { h with noNetDialogs := h.noNetDialogs + 1, canClick := true }
      else if !prepared then { h with permission := true, asked := true }
      else h.connectServer

/-- The callback of `registerResult`. -/
def registerResult (h : Home) (it : Bool) : Home :=
  if !it && h.permission then { h with permission := false }.connectServer
  else { h with canClick := true }.showToast "Connected Fail".toList

def jumpToResult (h : Home) (goFront jump : Bool) : Home :=
  if goFront && jump then { h with results := h.results ++ [h.connect] } else h

def checkConnectResult (h : Home) (goFront jump : Bool) : Home :=
  let bool := if h.connect then h.server.isConnected else h.server.isDisconnected
  let shown :=
    if bool then
      (if h.connect then h.updateConnectedUI else h.updateStoppedUI.updateServerInfo).jumpToResult goFront jump
    else h.updateStoppedUI.showToast (if h.connect then "Connect Fail".toList else "Disconnect Fail".toList)
  { shown with canClick := true }

/-- `doOnEnd` of an animator. -/
def animationEnd (h : Home) (goFront : Bool) : Home :=
  { h with animators := h.animators - 1 }.checkConnectResult goFront true

def onActivityResult (h : Home) (action : Action) (netStatus : Nat) (prepared : Bool) : Home :=
  match action with
  | .disconnect => h.clickConnect netStatus prepared
  | .connect => h.updateServerInfo.clickConnect netStatus prepared
  | .empty => h

def connectSuccess (h : Home) : Home := h.updateConnectedUI

def disconnectSuccess (h : Home) : Home := if h.canClick then h.updateStoppedUI else h

def onBackPressed (h : Home) : Home := if h.firstLoad then { h with firstLoad := false } else h

/-- `onDestroy`; the cancelled animator ends. -/
def onDestroy (h : Home) (goFront : Bool) : Home :=
  { (if h.animators = 0 then h else h.animationEnd goFront) with destroyed := true }

/-- `ConnectServer.stateChanged`. -/
def stateChanged (h : Home) (state : State) : Home :=
  let reported := { h with server := h.server.report state }
  if state = .stopped then
    { reported with server := { reported.server with timer := reported.server.timer.stop } }.disconnectSuccess
  else reported

/-- `ConnectServer.onServiceConnected`. -/
def onServiceConnected (h : Home) (state : State) : Home :=
  let reported := { h with server := h.server.report state }
  if state = .connected then reported.connectSuccess else reported

/-! ## `ChooseServerAc` -/

def chooseServer (h : Home) (result : Action) (bean : ServerBean) : Home :=
  { h with server := { h.server with currentServer := bean }, result := some result, chooser := .closed }

/-- The dialog is shown for the server. -/
def asksFirst (h : Home) (bean : ServerBean) : Bool :=
  h.server.isConnected && h.server.currentServer.goRiIp ≠ bean.goRiIp

def click (h : Home) (bean : ServerBean) : Home :=
  if h.asksFirst bean then { h with chooser := .dialog bean }
  else if h.server.isConnected then h.chooseServer .empty bean
  else h.chooseServer .connect bean

/-- The dialog's positive button. -/
def sure (h : Home) (bean : ServerBean) : Home := h.chooseServer .disconnect bean

/-! ## Events -/

inductive Event where
  | onServiceConnected (state : State)
  | stateChanged (state : State)
  /-- The connect button, its background or the guide. -/
  | connectBtn (netStatus : Nat) (prepared : Bool)
  | chooseServerBtn
  | setBtn
  | drawerClosed
  | onBackPressed
  | onDestroy (goFront : Bool)
  /-- A row of the server list. -/
  | row (position : Nat)
  | sure
  | cancel
  /-- `ChooseServerAc.onBackPressed`: it finishes with no result set. -/
  | listBack
  | onActivityResult (netStatus : Nat) (prepared : Bool)
  | registerResult (it : Bool)
  | animationEnd (goFront : Bool)
  /-- A turn of the timer's loop. -/
  | tick
  deriving DecidableEq, Repr

/-- The event comes from the service. -/
def Event.isReport : Event → Bool
  | .onServiceConnected _ | .stateChanged _ => true
  | _ => false

/-- `HomeAc` is the screen that gets the clicks. -/
def front (h : Home) : Bool := h.chooser = .closed ∧ h.result = none

/-- What the buttons beside the connect button check. -/
def free (h : Home) : Bool := !h.drawerOpen && !h.firstLoad && h.canClick

def step (info : ServerInfoManager) (h : Home) (e : Event) : Option Home :=
  if h.destroyed then none
  else
    match e with
    | .onServiceConnected state => some (h.onServiceConnected state)
    | .stateChanged state => some (h.stateChanged state)
    | .connectBtn netStatus prepared =>
      if h.front then some (if h.drawerOpen then h else h.clickConnect netStatus prepared) else none
    | .chooseServerBtn => if h.front then some (if h.free then { h with chooser := .list } else h) else none
    | .setBtn => if h.front then some (if h.free then { h with drawerOpen := true } else h) else none
    | .drawerClosed => some { h with drawerOpen := false }
    | .onBackPressed => if h.front then some h.onBackPressed else none
    | .onDestroy goFront => some (h.onDestroy goFront)
    | .row position =>
      if h.chooser = .list then (info.adapterList[position]?).map h.click else none
    | .sure =>
      match h.chooser with
      | .dialog bean => some (h.sure bean)
      | _ => none
    | .cancel =>
      match h.chooser with
      | .dialog _ => some { h with chooser := .list }
      | _ => none
    | .listBack => if h.chooser = .list then some { h with chooser := .closed } else none
    | .onActivityResult netStatus prepared =>
      h.result.map (fun action => { h with result := none }.onActivityResult action netStatus prepared)
    | .registerResult it => if h.asked then some ({ h with asked := false }.registerResult it) else none
    | .animationEnd goFront => if h.animators = 0 then none else some (h.animationEnd goFront)
    | .tick =>
      if h.server.timer.job then
        some { h with
          connectTime := ConnectTimeManager.transTime h.server.timer.time
          server := { h.server with timer := { h.server.timer with time := h.server.timer.time + 1 } } }
      else none

end Home
end Riddles
