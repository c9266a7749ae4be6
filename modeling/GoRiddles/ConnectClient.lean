import GoRiddles.Home
/-!
# ConnectClient — the connection object against the service

`ConnectServer` and its `ShadowsocksConnection` over many instances of `HomeAc`: one attaches, binds and learns the state
of the service, gets its reports, and detaches; the service goes on in between, and its process may die.
-/
namespace Riddles

/-! ## `ShadowsocksConnection` -/

structure ShadowsocksConnection where
  connectionActive   : Bool
  callbackRegistered : Bool
  /-- `callback` is not null. -/
  callback           : Bool
  /-- `service` is not null. -/
  service            : Bool
  deriving DecidableEq, Repr

namespace ShadowsocksConnection

def new : ShadowsocksConnection := ⟨false, false, false, false⟩

def connect (sc : ShadowsocksConnection) : Except Thrown ShadowsocksConnection :=
  if sc.connectionActive then .ok sc
  else if sc.callback then .error (.illegalState "Check failed.".toList)
  else .ok { sc with connectionActive := true, callback := true }

def onServiceConnected (sc : ShadowsocksConnection) : Except Thrown ShadowsocksConnection :=
  if sc.callbackRegistered then .error (.illegalState "Check failed.".toList)
  else .ok { sc with service := true, callbackRegistered := true }

def binderDied (sc : ShadowsocksConnection) : ShadowsocksConnection :=
  { sc with service := false, callbackRegistered := false }

def disconnect (sc : ShadowsocksConnection) : ShadowsocksConnection :=
  { sc with callbackRegistered := false, connectionActive := false, service := false, callback := false }

end ShadowsocksConnection

/-! ## `ConnectServer` -/

namespace ConnectServer

def stateChanged (c : ConnectServer) (state : State) : ConnectServer :=
  if state = .stopped then { c.report state with timer := (c.report state).timer.stop } else c.report state

def onServiceConnected (c : ConnectServer) (state : State) : ConnectServer := c.report state

end ConnectServer

/-- On the home screen the handlers do the same to the connection object. -/
theorem Home.server_stateChanged (h : Home) (state : State) : (h.stateChanged state).server = h.server.stateChanged state := by
  unfold Home.stateChanged ConnectServer.stateChanged
  by_cases hs : state = .stopped
  · simp only [hs, if_true, Home.disconnectSuccess]
    split <;> rfl
  · simp only [if_neg hs]

theorem Home.server_onServiceConnected (h : Home) (state : State) :
    (h.onServiceConnected state).server = h.server.onServiceConnected state := by
  unfold Home.onServiceConnected
  split <;> rfl

/-- The connection object, its connection, and what is known of the service. -/
structure ConnectClient where
  server : ConnectServer
  sc     : ShadowsocksConnection
  /-- `baseAc` is not null: a `HomeAc` is attached. -/
  baseAc : Bool
  /-- The state the service has last made known. -/
  known  : Option State
  /-- The process of the service has died since. -/
  dead   : Bool
  deriving DecidableEq, Repr

namespace ConnectClient

/-- Before the first `HomeAc`. -/
def detached (c : ConnectServer) : ConnectClient := ⟨c, .new, false, none, false⟩

/-- `init`, and `onServiceConnected` with the state of the service. -/
def attach (c : ConnectClient) (state : State) : Except Thrown ConnectClient := do
  let sc ← c.sc.connect
  let sc ← sc.onServiceConnected
  return { server := c.server.onServiceConnected state, sc := sc, baseAc := true, known := some state, dead := false }

/-- `onBinderDied`: the connection is given up, the state and the timer are left as they are. -/
def onBinderDied (c : ConnectClient) : ConnectClient := if c.baseAc then { c with sc := c.sc.disconnect } else c

def onDestroy (c : ConnectClient) : ConnectClient := { c.onBinderDied with baseAc := false }

/-- The process of the service dies; who is linked to its death is told. -/
def died (c : ConnectClient) : ConnectClient :=
  if c.sc.callback then { { c with sc := c.sc.binderDied }.onBinderDied with dead := true } else { c with dead := true }

inductive Event where
  | connect
  | disconnect
  | attach (state : State)
  | detach
  | stateChanged (state : State)
  | died
  deriving DecidableEq, Repr

/-- A `HomeAc` binds when there is no binding, and reports reach who is registered. -/
def step (c : ConnectClient) : Event → Option ConnectClient
  | .connect => some { c with server := c.server.connect }
  | .disconnect => some { c with server := c.server.disconnect }
  | .attach state => if c.sc.connectionActive then none else (c.attach state).toOption
  | .detach => if c.baseAc then some c.onDestroy else none
  | .stateChanged state =>
    if c.sc.callbackRegistered then some { c with server := c.server.stateChanged state, known := some state } else none
  | .died => some c.died

/-! ## Tracking the service -/

/-- **The client tracks the service**: with a `HomeAc` attached the timer runs only on a connection that is known of, and
after the service has died nothing of it is left. -/
def Tracks (c : ConnectClient) : Prop :=
  c.baseAc = true →
    (c.server.timer.job = true → c.known = some .connected ∨ c.known = some .stopping) ∧
    (c.dead = true → c.server.isConnected = false ∧ c.server.timer.job = false)

/-- A running timer meets no binding to a service that is neither connected nor stopping, and no report of a state other
than connected, stopping and stopped; and the service dies under an attached screen only when it is not connected and no
timer runs. -/
def Fits (c : ConnectClient) : Event → Prop
  | .attach state => c.server.timer.job = true → state = .connected ∨ state = .stopping
  | .stateChanged state => c.server.timer.job = true → state = .connected ∨ state = .stopping ∨ state = .stopped
  | .died => c.baseAc = true → c.server.isConnected = false ∧ c.server.timer.job = false
  | _ => True

instance (c : ConnectClient) : (e : Event) → Decidable (c.Fits e)
  | .attach _ | .stateChanged _ | .died => inferInstanceAs (Decidable (_ → _))
  | .connect | .disconnect | .detach => isTrue trivial

/-- The connection is active while its callback is set, and then for an attached screen; who is registered has a service
that is alive. -/
structure Wired (c : ConnectClient) : Prop where
  callback   : c.sc.callback = c.sc.connectionActive
  active     : c.sc.connectionActive = true → c.baseAc = true
  registered : c.sc.callbackRegistered = true → c.sc.connectionActive = true ∧ c.dead = false

variable {c d : ConnectClient} {e : Event} {state : State}

theorem wired_detached (s : ConnectServer) : Wired (detached s) := by
  constructor <;> simp [detached, ShadowsocksConnection.new]

/-- The checks of a new connection hold. -/
theorem Wired.attach_eq (h : Wired c) (hfree : c.sc.connectionActive = false) (state : State) :
    c.attach state = .ok ⟨c.server.report state, ⟨true, true, true, true⟩, true, some state, false⟩ := by
  have hcallback : c.sc.callback = false := h.callback.trans hfree
  have hregistered : c.sc.callbackRegistered = false := by
    by_contra hr
    rw [Bool.not_eq_false] at hr
    cases hfree.symm.trans (h.registered hr).1
  simp [attach, ShadowsocksConnection.connect, ShadowsocksConnection.onServiceConnected, hfree, hcallback, hregistered,
    ConnectServer.onServiceConnected, bind, Except.bind, pure, Except.pure]

/-- The step is one of these. -/
inductive Turn (c : ConnectClient) : Event → ConnectClient → Prop
  | connect : Turn c .connect { c with server := c.server.connect }
  | disconnect : Turn c .disconnect { c with server := c.server.disconnect }
  | attach (state : State) (free : c.sc.connectionActive = false) :
      Turn c (.attach state) ⟨c.server.report state, ⟨true, true, true, true⟩, true, some state, false⟩
  | detach (was : c.baseAc = true) : Turn c .detach { c with sc := c.sc.disconnect, baseAc := false }
  | stateChanged (state : State) (was : c.sc.callbackRegistered = true) :
      Turn c (.stateChanged state) { c with server := c.server.stateChanged state, known := some state }
  | died (sc : ShadowsocksConnection) (callback : sc.callback = sc.connectionActive)
      (active : sc.connectionActive = true → c.baseAc = true) (unregistered : sc.callbackRegistered = false) :
      Turn c .died { c with sc := sc, dead := true }

theorem Wired.died_turn (h : Wired c) : Turn c .died c.died := by
  unfold ConnectClient.died
  by_cases hcb : c.sc.callback = true
  · have hattached := h.active (h.callback.symm.trans hcb)
    simp only [if_pos hcb, onBinderDied, if_pos hattached]
    exact .died c.sc.binderDied.disconnect rfl (fun ha => by cases ha) rfl
  · simp only [if_neg hcb]
    refine .died c.sc h.callback h.active ?_
    by_contra hr
    rw [Bool.not_eq_false] at hr
    exact hcb (h.callback.trans (h.registered hr).1)

theorem Wired.turn (h : Wired c) (hs : step c e = some d) : Turn c e d := by
  cases e with
  | connect =>
    cases hs
    exact .connect
  | disconnect =>
    cases hs
    exact .disconnect
  | attach state =>
    simp only [step] at hs
    split at hs
    · cases hs
    · rename_i hfree
      rw [Bool.not_eq_true] at hfree
      rw [h.attach_eq hfree] at hs
      cases hs
      exact .attach state hfree
  | detach =>
    simp only [step] at hs
    split at hs
    · rename_i hattached
      cases hs
      simp only [onDestroy, onBinderDied, hattached, if_true]
      exact .detach hattached
    · cases hs
  | stateChanged state =>
    simp only [step] at hs
    split at hs
    · cases hs
      exact .stateChanged state ‹_›
    · cases hs
  | died =>
    cases hs
    exact h.died_turn

theorem Turn.wired (ht : Turn c e d) (h : Wired c) : Wired d := by
  cases ht with
  | connect | disconnect => exact ⟨h.callback, h.active, h.registered⟩
  | attach => exact ⟨rfl, fun _ => rfl, fun _ => ⟨rfl, rfl⟩⟩
  | detach => exact ⟨rfl, fun ha => (by cases ha), fun hr => (by cases hr)⟩
  | stateChanged => exact ⟨h.callback, h.active, h.registered⟩
  | died sc callback active unregistered =>
    refine ⟨callback, active, fun hr => ?_⟩
    cases unregistered.symm.trans hr

theorem job_report (s : ConnectServer) (state : State) :
    (s.report state).timer.job = (s.timer.job || decide (state = .connected)) := by
  unfold ConnectServer.report
  by_cases h : state = .connected
  · simp [h, ConnectTimeManager.start]
  · simp [h]

theorem job_stateChanged (s : ConnectServer) (state : State) :
    (s.stateChanged state).timer.job = ((s.timer.job || decide (state = .connected)) && decide (state ≠ .stopped)) := by
  unfold ConnectServer.stateChanged
  by_cases h : state = .stopped
  · simp [h, ConnectTimeManager.stop]
  · simp [h, job_report]

/-- **One step**: from a client that tracks the service, the step keeps track exactly when it fits. -/
theorem Turn.tracks_iff (ht : Turn c e d) (hw : Wired c) (h : Tracks c) : Tracks d ↔ c.Fits e := by
  cases ht with
  | connect =>
    refine iff_of_true (fun ha => ⟨(h ha).1, fun hd => ⟨rfl, ((h ha).2 hd).2⟩⟩) trivial
  | disconnect =>
    refine iff_of_true (fun ha => ⟨(h ha).1, fun hd => ⟨rfl, ((h ha).2 hd).2⟩⟩) trivial
  | attach state =>
    simp only [Tracks, Fits, job_report]
    cases state <;> simp
  | detach => exact iff_of_true (fun ha => by cases ha) trivial
  | stateChanged state was =>
    obtain ⟨hactive, halive⟩ := hw.registered was
    simp only [Tracks, Fits, job_stateChanged, hw.active hactive, halive]
    cases state <;> simp
  | died =>
    simp only [Tracks, Fits]
    constructor
    · intro hd ha
      exact (hd ha).2 trivial
    · intro hf ha
      refine ⟨fun hj => ?_, fun _ => hf ha⟩
      cases (hf ha).2.symm.trans hj

/-- **The client tracks the service if and only if every event fits**: in every run of attaching, detaching, connecting,
disconnecting, reports and deaths of the service. -/
theorem client_tracks_iff (s : ConnectServer) (es : List Event) :
    Machine.always step Tracks (detached s) es ↔ Machine.along step (fun c e _ => c.Fits e) (detached s) es := by
  have htracks : Tracks (detached s) := fun ha => by cases ha
  refine Machine.always_iff_along (fun c e d h hs => (h.turn hs).wired h) (fun c e d hw ht hs => ?_) es _
    (wired_detached s) htracks
  exact (hw.turn hs).tracks_iff hw ht

/-- **Left over from the service**: when its process dies the client stays connected with its timer running; and a timer
that was running when the screen was left goes on over a service that has stopped since. -/
theorem client_left_over :
    (∃ c, Machine.run step (detached Home.initial.server) [.attach .stopped, .connect, .stateChanged .connected, .died] =
      some c ∧ c.baseAc = true ∧ c.dead = true ∧ c.server.isConnected = true ∧ c.server.timer.job = true ∧ ¬ Tracks c) ∧
    (∃ c, Machine.run step (detached Home.initial.server) [.attach .stopped, .connect, .stateChanged .connected, .detach,
      .attach .stopped] = some c ∧ c.baseAc = true ∧ c.server.timer.job = true ∧ c.known = some .stopped ∧ ¬ Tracks c) := by
  refine ⟨⟨_, rfl, rfl, rfl, rfl, rfl, fun h => ?_⟩, ⟨_, rfl, rfl, rfl, rfl, fun h => ?_⟩⟩
  · cases ((h rfl).2 rfl).1
  · rcases (h rfl).1 rfl with hk | hk <;> cases hk

end ConnectClient
end Riddles
