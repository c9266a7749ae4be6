import GoRiddles.Home
/-!
# Tunnel — the home screen and the service together

The two sides share `DataStore.profileId` and talk through the platform: `connect` and `disconnect` launch coroutines that
send a start command and a close broadcast, both delivered later, and the service's announcements reach the home screen
in the order they were made, once it is bound.  The service runs the profile whose id it finds when the start command
arrives.
-/
namespace Riddles

structure Tunnel where
  home      : Home
  profileId : Nat
  /-- The start commands that are not delivered yet. -/
  starts    : Nat
  /-- The close broadcasts that are not delivered yet. -/
  closes    : Nat
  /-- The callback of `ShadowsocksConnection` is registered with the service. -/
  bound     : Bool
  service   : Service
  /-- The announced states on their way to `stateChanged`. -/
  reports   : List State
  /-- A coroutine threw. -/
  crashed   : Bool
  deriving DecidableEq, Repr

namespace Tunnel

/-- The app's process starts over a service. -/
def initial (profileId : Nat) (service : Service) : Tunnel where
  home      := .initial
  profileId := profileId
  starts    := 0
  closes    := 0
  bound     := false
  service   := service
  reports   := []
  crashed   := false

inductive Event where
  | home (e : Home.Event)
  /-- `onServiceConnected`: the callback is registered and the state read. -/
  | bind
  /-- The next announcement arrives. -/
  | report
  /-- The coroutine of a `connect` runs; the draw is that of `getFastServer`. -/
  | connectRuns (draw : Nat)
  | disconnectRuns
  | startDelivered (prepared : Bool)
  | closeDelivered
  | service (e : Service.Event)
  deriving DecidableEq, Repr

/-- What the service gets without being told by the app.  A start command comes from `connect` only, a reload broadcast
is never sent, and so no stop is a restart. -/
def ofService : Service.Event → Bool
  | .onStartCommand _ _ _ | .forceLoad => false
  | .stopRunner restart _ => !restart
  | .resume _ _ | .stopResumed _ => true

/-- The service moves on and what it announced is on its way, if someone listens. -/
def serve (s : Tunnel) (v : Service) : Tunnel :=
  { s with
    service := v
    reports := if s.bound then s.reports ++ (v.announced.drop s.service.announced.length).map Announcement.state
      else s.reports }

def step (info : ServerInfoManager) (table : ProfileTable) (s : Tunnel) (e : Event) : Option Tunnel :=
  if s.crashed then none
  else
    match e with
    | .home e => if e.isReport then none else (s.home.step info e).map (fun h => { s with home := h })
    | .bind =>
      if s.bound then none
      else (s.home.step info (.onServiceConnected s.service.state)).map (fun h => { s with home := h, bound := true })
    | .report =>
      match s.reports with
      | [] => none
      | state :: reports =>
        (s.home.step info (.stateChanged state)).map (fun h => { s with home := h, reports := reports })
    | .connectRuns draw =>
      if s.home.server.connects = 0 then none
      else
        match s.home.server.connectBody info table draw with
        | .error _ => some { s with crashed := true }
        | .ok (server, profileId) =>
          some { s with
            home := { s.home with server := { server with connects := server.connects - 1 } }
            profileId := profileId, starts := s.starts + 1 }
    | .disconnectRuns =>
      if s.home.server.disconnects = 0 then none
      else some { s with
        home := { s.home with server := { s.home.server with disconnects := s.home.server.disconnects - 1 } }
        closes := s.closes + 1 }
    | .startDelivered prepared =>
      if s.starts = 0 then none
      else (s.service.step (.onStartCommand true prepared (table.getProfile s.profileId))).map
        (fun v => { s.serve v with starts := s.starts - 1 })
    | .closeDelivered =>
      if s.closes = 0 then none
      else if s.service.closeReceiverRegistered then
        some { s.serve (s.service.stopRunner false none) with closes := s.closes - 1 }
      else some { s with closes := s.closes - 1 }
    | .service e => if ofService e then (s.service.step e).map s.serve else none

end Tunnel
end Riddles
