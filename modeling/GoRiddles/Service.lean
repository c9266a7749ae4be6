import GoRiddles.Machine
import GoRiddles.Profiles
/-!
# Service — the VPN service and its coroutines

`BaseService.kt` with what `VpnService.kt` overrides.  All of it runs on the main thread, so a coroutine is its place at a
suspension point: a connecting job is queued, preparing (`preInit`), fetching rules, or wiring (`sendFd`), and the
coroutine of `stopRunner` waits for the job it cancelled or for the clean-up it started.  A cancelled job throws where it
resumes; one that was cancelled before it was dispatched never runs, its `finally` included.
-/
namespace Riddles

/-- `BaseService.State`. -/
inductive State where
  | idle
  | connecting
  | connected
  | stopping
  | stopped
  deriving DecidableEq, Repr

def State.canStop : State → Bool
  | .connecting | .connected => true
  | _ => false

/-- `Acl.CUSTOM_RULES`. -/
def customRules : Text := "custom-rules".toList

structure ProxyInstance where
  id      : Nat
  profile : Profile
  deriving DecidableEq, Repr

/-- Where a connecting job is suspended. -/
inductive Phase where
  | queued
  | preparing
  | fetching
  | wiring
  deriving DecidableEq, Repr

structure Job where
  id        : Nat
  profile   : Profile
  phase     : Phase
  cancelled : Bool
  deriving DecidableEq, Repr

/-- A coroutine of `stopRunner`: it waits for a job, or for the clean-up. -/
structure Stop where
  restart : Bool
  msg     : Option Text
  waits   : Option Nat
  deriving DecidableEq, Repr

/-- A broadcast of `changeState`, with the process pools open at that moment. -/
structure Announcement where
  state       : State
  profileName : Text
  msg         : Option Text
  openPools   : List Nat
  deriving DecidableEq, Repr

/-- `BaseService.Data`, the coroutines alive, and what was created and disposed of so far. -/
structure Service where
  state                   : State
  processes               : Option Nat
  proxy                   : Option ProxyInstance
  localDns                : Bool
  notification            : Option Text
  closeReceiverRegistered : Bool
  connectingJob           : Option Nat
  jobs                    : List Job
  stops                   : List Stop
  nextJob                 : Nat
  nextProxy               : Nat
  nextPool                : Nat
  /-- The proxies shut down. -/
  shut                    : List Nat
  /-- The process pools closed. -/
  closed                  : List Nat
  announced               : List Announcement
  /-- The calls of `startRunner`. -/
  startsRequested         : Nat
  deriving DecidableEq, Repr

namespace Service

def created : Service where
  state                   := .stopped
  processes               := none
  proxy                   := none
  localDns                := false
  notification            := none
  closeReceiverRegistered := false
  connectingJob           := none
  jobs                    := []
  stops                   := []
  nextJob                 := 0
  nextProxy               := 0
  nextPool                := 0
  shut                    := []
  closed                  := []
  announced               := []
  startsRequested         := 0

def alive (s : Service) (j : Nat) : Bool := s.jobs.any (fun job => job.id == j)

def openPools (s : Service) : List Nat := (List.range s.nextPool).filter (fun k => !s.closed.contains k)

/-- `Binder.getProfileName`. -/
def profileName (s : Service) : Text := (s.proxy.bind (fun p => p.profile.name)).getD "Idle".toList

def changeState (s : Service) (state : State) (msg : Option Text) : Service :=
  if s.state = state ∧ msg = none then s
  else { s with announced := s.announced ++ [⟨state, s.profileName, msg, s.openPools⟩], state := state }

/-- `killProcesses`. -/
def killProcesses (s : Service) : Service :=
  { s with closed := s.closed ++ s.processes.toList, processes := none, localDns := false }

/-- The body of the `coroutineScope` in `stopRunner`. -/
def cleanUp (s : Service) : Service :=
  { s.killProcesses with
    closeReceiverRegistered := false, notification := none
    shut := s.shut ++ s.proxy.toList.map ProxyInstance.id, proxy := none }

/-- `Job.cancel`. -/
def cancel (s : Service) (j : Nat) : Service :=
  { s with jobs := s.jobs.map (fun job => if job.id = j then { job with cancelled := true } else job) }

/-- `stopRunner`, with its coroutine up to the first suspension: the join of a job that is alive, or the clean-up. -/
def stopRunner (s : Service) (restart : Bool) (msg : Option Text) : Service :=
  if s.state = .stopping then s
  else
    let s' := s.changeState .stopping none
    match s'.connectingJob with
    | none => { s'.cleanUp with stops := s'.stops ++ [⟨restart, msg, none⟩] }
    | some j =>
      if s'.alive j then { s'.cancel j with stops := s'.stops ++ [⟨restart, msg, some j⟩] }
      else { s'.cleanUp with stops := s'.stops ++ [⟨restart, msg, none⟩] }

/-- The end of a `stopRunner` coroutine, once its clean-up is done. -/
def finish (s : Service) (stop : Stop) : Service :=
  let s' := s.changeState .stopped stop.msg
  if stop.restart then { s' with startsRequested := s'.startsRequested + 1 } else s'

/-- `onStartCommand` of `BaseService.Interface`, with `Core.currentProfile`. -/
def onStartCommand (s : Service) (profile : Option Profile) : Service :=
  if s.state ≠ .stopped then s
  else
    match profile with
    | none => { s with notification := some [] }.stopRunner false (some "Please select a profile".toList)
    | some profile =>
      { s with
        proxy := some ⟨s.nextProxy, profile⟩, nextProxy := s.nextProxy + 1
        closeReceiverRegistered := true
        notification := some profile.formattedName
        connectingJob := some s.nextJob, nextJob := s.nextJob + 1
        jobs := s.jobs ++ [⟨s.nextJob, profile, .queued, false⟩] }

/-- A job is over without its `finally`. -/
def drop (s : Service) (j : Nat) : Service := { s with jobs := s.jobs.filter (fun job => job.id ≠ j) }

/-- The `finally` of a connecting job, whose end it is. -/
def finallyJob (s : Service) (j : Nat) : Service := { s.drop j with connectingJob := none }

/-- The `catch` of a connecting job. -/
def failJob (s : Service) (j : Nat) (reason : Text) : Service :=
  (s.stopRunner false (some ("Failed to connect the remote server: ".toList ++ reason))).finallyJob j

def setPhase (s : Service) (j : Nat) (phase : Phase) : Service :=
  { s with jobs := s.jobs.map (fun job => if job.id = j then { job with phase := phase } else job) }

/-- `data.processes = GuardedProcessPool { ... }`. -/
def newPool (s : Service) : Service := { s with processes := some s.nextPool, nextPool := s.nextPool + 1 }

/-- How the stretch to a job's next suspension point goes. -/
inductive Outcome where
  | ok
  /-- An exception before the process pool is made. -/
  | failEarly (reason : Text)
  /-- An exception after it. -/
  | fail (reason : Text)
  /-- `sendFd` waits for another try. -/
  | retry
  deriving DecidableEq, Repr

/-- A connecting job from the process pool on, to the first wait of `sendFd`; `data.proxy!!` may throw. -/
def buildPool (s : Service) (j : Nat) : Outcome → Service
  | .fail reason => s.newPool.failJob j reason
  | _ =>
    match s.proxy with
    | none => s.newPool.failJob j "java.lang.NullPointerException".toList
    | some _ => { s.newPool with localDns := true }.setPhase j .wiring

/-- A connecting job from its suspension point to the next one, or to its end. -/
def resume (s : Service) (job : Job) (outcome : Outcome) : Service :=
  if job.cancelled then
    match job.phase with
    | .queued => s.drop job.id
    | _ => s.finallyJob job.id
  else
    match outcome, job.phase with
    | .failEarly reason, _ => s.failJob job.id reason
    | _, .queued => s.setPhase job.id .preparing
    | _, .preparing =>
      if job.profile.route = customRules then s.setPhase job.id .fetching else s.buildPool job.id outcome
    | _, .fetching => s.buildPool job.id outcome
    | .retry, .wiring => s
    | .fail reason, .wiring => s.failJob job.id reason
    | .ok, .wiring =>
      match s.proxy with
      | none => s.failJob job.id "java.lang.NullPointerException".toList
      | some _ => (s.changeState .connected none).finallyJob job.id

/-- `forceLoad`. -/
def forceLoad (s : Service) : Service :=
  if s.state = .stopped then { s with startsRequested := s.startsRequested + 1 }
  else if s.state.canStop then s.stopRunner true none
  else s

inductive Event where
  /-- `VpnService.onStartCommand`: the mode is VPN, `prepare` returns null, the current profile. -/
  | onStartCommand (vpnMode prepared : Bool) (profile : Option Profile)
  /-- Job `j` is dispatched. -/
  | resume (j : Nat) (outcome : Outcome)
  /-- A close broadcast, `onRevoke`, or a process pool's `onFatal`. -/
  | stopRunner (restart : Bool) (msg : Option Text)
  | forceLoad
  /-- Stop coroutine `k` is dispatched. -/
  | stopResumed (k : Nat)
  deriving DecidableEq, Repr

def step (s : Service) : Event → Option Service
  | .onStartCommand vpnMode prepared profile =>
    some (if vpnMode && prepared then s.onStartCommand profile else s.stopRunner false none)
  | .resume j outcome => (s.jobs.find? (fun job => job.id == j)).map (fun job => s.resume job outcome)
  | .stopRunner restart msg => some (s.stopRunner restart msg)
  | .forceLoad => some s.forceLoad
  | .stopResumed k =>
    match s.stops[k]? with
    | none => none
    | some stop =>
      match stop.waits with
      | none => some ({ s with stops := s.stops.eraseIdx k }.finish stop)
      | some j => if s.alive j then none else some { s.cleanUp with stops := s.stops.set k { stop with waits := none } }

end Service
end Riddles
