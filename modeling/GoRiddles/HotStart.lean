import GoRiddles.Machine
import GoRiddles.RandomSubList
/-!
# HotStart — coming back to the app after a while

`AppHotUtils.kt`.  The object counts the started activities.  When the last one stops it launches a job that sets a flag
after three seconds, and every start cancels the job and looks at the flag.  The jobs are numbered as they are launched;
`pending` are those that were neither cancelled nor have expired, and `runs` is what `onHotForeground` ran so far.  A task's
body is not looked into: no code of the repository registers one.
-/
namespace Riddles

structure AppHotUtils where
  startedActivities      : Int
  backgroundJob          : Option Nat
  needExecBackgroundTask : Bool
  backgroundTasks        : List Nat
  started                : List Nat
  launched               : Nat
  pending                : List Nat
  /-- The calls of `onHotForeground`, and the tasks they ran. -/
  hotStarts              : Nat
  runs                   : List Nat
  /-- The calls of `proxyAdStartLaunchActivity`, and those that close that screen and the ad's. -/
  launchScreens          : Nat
  closed                 : Nat
  deriving DecidableEq, Repr

namespace AppHotUtils

def initial : AppHotUtils where
  startedActivities      := 0
  backgroundJob          := none
  needExecBackgroundTask := false
  backgroundTasks        := []
  started                := []
  launched               := 0
  pending                := []
  hotStarts              := 0
  runs                   := []
  launchScreens          := 0
  closed                 := 0

/-- `backgroundJob?.cancel()`, then null. -/
def cancelJob (u : AppHotUtils) : AppHotUtils :=
  { u with pending := u.pending.filter (fun job => u.backgroundJob ≠ some job), backgroundJob := none }

/-- `top` says whether the activity list has a top activity. -/
def onHotForeground (u : AppHotUtils) (top : Bool) : AppHotUtils :=
  { u with
    launchScreens := if top then u.launchScreens + 1 else u.launchScreens
    runs := u.runs ++ u.backgroundTasks
    hotStarts := u.hotStarts + 1
    needExecBackgroundTask := false }

def onHotBackground (u : AppHotUtils) : AppHotUtils :=
  { u with backgroundJob := some u.launched, pending := u.pending ++ [u.launched], launched := u.launched + 1 }

/-- `onActivityStarted` up to its look at the flag. -/
def entered (u : AppHotUtils) (activity : Nat) : AppHotUtils :=
  { u with startedActivities := u.startedActivities + 1, started := activity :: u.started }.cancelJob

def onActivityStarted (u : AppHotUtils) (activity : Nat) (top : Bool) : AppHotUtils :=
  if (u.entered activity).needExecBackgroundTask then (u.entered activity).onHotForeground top else u.entered activity

/-- `onActivityStopped` up to its look at the counter. -/
def left (u : AppHotUtils) (activity : Nat) : AppHotUtils :=
  { u with startedActivities := u.startedActivities - 1, started := u.started.erase activity }

def onActivityStopped (u : AppHotUtils) (activity : Nat) : AppHotUtils :=
  if (u.left activity).startedActivities ≤ 0 then (u.left activity).onHotBackground else u.left activity

/-- The body of a job once its delay is over. -/
def jobExpired (u : AppHotUtils) (job : Nat) : AppHotUtils :=
  { u with pending := u.pending.erase job, needExecBackgroundTask := true, closed := u.closed + 1 }

inductive Event where
  | onActivityStarted (activity : Nat) (top : Bool)
  | onActivityStopped (activity : Nat)
  | jobExpired (job : Nat)
  | registerTask (task : Nat)
  | unregisterTask (task : Nat)
  deriving DecidableEq, Repr

def Event.isStart : Event → Prop
  | .onActivityStarted _ _ => True
  | _ => False

def Event.isExpiry : Event → Prop
  | .jobExpired _ => True
  | _ => False

/-- An activity stops after it has started, and a job expires only if it was not cancelled. -/
def step (u : AppHotUtils) : Event → Option AppHotUtils
  | .onActivityStarted activity top => some (u.onActivityStarted activity top)
  | .onActivityStopped activity => if activity ∈ u.started then some (u.onActivityStopped activity) else none
  | .jobExpired job => if job ∈ u.pending then some (u.jobExpired job) else none
  | .registerTask task => some { u with backgroundTasks := setAdd u.backgroundTasks task }
  | .unregisterTask task => some { u with backgroundTasks := u.backgroundTasks.erase task }

/-- A job expired, and no activity has started since. -/
def ExpiredSinceStart (past : List Event) : Prop := Machine.since Event.isExpiry Event.isStart past

/-- The task was registered, and not unregistered since. -/
def Registered (past : List Event) (task : Nat) : Prop :=
  Machine.since (fun e => e = .registerTask task) (fun e => e = .unregisterTask task) past

/-! ## The tasks -/

/-- The set of tasks is that of the tasks registered. -/
structure Tasks (past : List Event) (tasks : List Nat) : Prop where
  nodup : tasks.Nodup
  mem   : ∀ task, task ∈ tasks ↔ Registered past task

theorem Tasks.other {past : List Event} {tasks : List Nat} {e : Event} (h : Tasks past tasks)
    (hreg : ∀ task, e ≠ .registerTask task) (hunreg : ∀ task, e ≠ .unregisterTask task) : Tasks (past ++ [e]) tasks := by
  refine ⟨h.nodup, fun task => ?_⟩
  rw [h.mem, Registered, Registered, Machine.since_snoc]
  simp [hreg, hunreg]

theorem Tasks.registerTask {past : List Event} {tasks : List Nat} (h : Tasks past tasks) (task : Nat) :
    Tasks (past ++ [.registerTask task]) (setAdd tasks task) := by
  refine ⟨nodup_setAdd h.nodup task, fun other => ?_⟩
  rw [mem_setAdd, h.mem, Registered, Registered, Machine.since_snoc]
  simp [eq_comm]

theorem Tasks.unregisterTask {past : List Event} {tasks : List Nat} (h : Tasks past tasks) (task : Nat) :
    Tasks (past ++ [.unregisterTask task]) (tasks.erase task) := by
  refine ⟨h.nodup.erase task, fun other => ?_⟩
  rw [h.nodup.mem_erase_iff, h.mem, Registered, Registered, Machine.since_snoc]
  simp [eq_comm]

/-! ## The job and the flag -/

/-- **What holds between two events**: the counter counts the started activities; there is no pending job, or one, the
one that a start cancels, and then nothing is started; the flag says that a job expired since the last start; and the set
of tasks is that of the tasks registered. -/
structure Sound (past : List Event) (u : AppHotUtils) : Prop where
  count   : u.startedActivities = u.started.length
  pending : u.pending = [] ∨ ∃ job, u.pending = [job] ∧ u.backgroundJob = some job ∧ u.started = []
  flag    : u.needExecBackgroundTask = true ↔ ExpiredSinceStart past
  tasks   : Tasks past u.backgroundTasks

variable {past : List Event} {u t : AppHotUtils} {e : Event}

theorem sound_initial : Sound [] initial where
  count   := rfl
  pending := Or.inl rfl
  flag    := by simp [initial, ExpiredSinceStart, Machine.not_since_nil]
  tasks   := ⟨List.nodup_nil, fun task => by simp [initial, Registered, Machine.not_since_nil]⟩

theorem Sound.idle (h : Sound past u) (hstarted : u.started ≠ []) : u.pending = [] := by
  rcases h.pending with hnone | ⟨-, -, -, hempty⟩
  · exact hnone
  · exact absurd hempty hstarted

theorem Sound.pending_entered (h : Sound past u) (activity : Nat) : (u.entered activity).pending = [] := by
  unfold entered cancelJob
  rcases h.pending with hnone | ⟨job, hjob, href, -⟩
  · simp [hnone]
  · simp [hjob, href]

theorem not_expired_start (past : List Event) (activity : Nat) (top : Bool) :
    ¬ ExpiredSinceStart (past ++ [.onActivityStarted activity top]) := by
  rw [ExpiredSinceStart, Machine.since_snoc]
  simp [Event.isExpiry, Event.isStart]

theorem expired_snoc (hstart : ¬ e.isStart) (hexpiry : ¬ e.isExpiry) :
    ExpiredSinceStart (past ++ [e]) ↔ ExpiredSinceStart past := by
  rw [ExpiredSinceStart, Machine.since_snoc]
  simp [hstart, hexpiry, ExpiredSinceStart]

theorem Sound.started (h : Sound past u) (activity : Nat) (top : Bool) :
    Sound (past ++ [.onActivityStarted activity top]) (u.onActivityStarted activity top) := by
  have hpending := h.pending_entered activity
  have htasks : Tasks (past ++ [.onActivityStarted activity top]) u.backgroundTasks :=
    h.tasks.other (by simp) (by simp)
  have hexpired := not_expired_start past activity top
  have hcount : u.startedActivities + 1 = ((activity :: u.started).length : Int) := by
    rw [h.count, List.length_cons]
    omega
  unfold AppHotUtils.onActivityStarted
  by_cases hflag : (u.entered activity).needExecBackgroundTask = true
  · rw [if_pos hflag]
    exact ⟨hcount, Or.inl hpending, by simp [onHotForeground, hexpired], htasks⟩
  · rw [if_neg hflag]
    exact ⟨hcount, Or.inl hpending, by simp [hflag, hexpired], htasks⟩

theorem Sound.stopped (h : Sound past u) {activity : Nat} (hmem : activity ∈ u.started) :
    Sound (past ++ [.onActivityStopped activity]) (u.onActivityStopped activity) := by
  have hidle : u.pending = [] := h.idle (List.ne_nil_of_mem hmem)
  have htasks : Tasks (past ++ [.onActivityStopped activity]) u.backgroundTasks := h.tasks.other (by simp) (by simp)
  have hflag : u.needExecBackgroundTask = true ↔ ExpiredSinceStart (past ++ [.onActivityStopped activity]) := by
    rw [expired_snoc (by simp [Event.isStart]) (by simp [Event.isExpiry])]
    exact h.flag
  have hcount : u.startedActivities - 1 = ((u.started.erase activity).length : Int) := by
    have hpos := List.length_pos_of_mem hmem
    rw [h.count, List.length_erase_of_mem hmem]
    omega
  unfold AppHotUtils.onActivityStopped
  by_cases hlast : (u.left activity).startedActivities ≤ 0
  · have hnone : u.started.erase activity = [] := by
      have hle : u.startedActivities - 1 ≤ 0 := hlast
      exact List.length_eq_zero_iff.1 (by omega)
    rw [if_pos hlast]
    exact ⟨hcount, Or.inr ⟨u.launched, by simp [onHotBackground, left, hidle], rfl, hnone⟩, hflag, htasks⟩
  · rw [if_neg hlast]
    exact ⟨hcount, Or.inl hidle, hflag, htasks⟩

theorem Sound.expired (h : Sound past u) {job : Nat} (hmem : job ∈ u.pending) :
    Sound (past ++ [.jobExpired job]) (u.jobExpired job) := by
  have hpending : u.pending.erase job = [] := by
    rcases h.pending with hnone | ⟨job', hjob', -, -⟩
    · rw [hnone] at hmem
      cases hmem
    · rw [hjob', List.mem_singleton] at hmem
      rw [hjob', hmem, List.erase_cons_head]
  refine ⟨h.count, Or.inl hpending, ?_, h.tasks.other (by simp) (by simp)⟩
  rw [ExpiredSinceStart, Machine.since_snoc]
  simp [jobExpired, Event.isExpiry]

theorem sound_step (past : List Event) (u : AppHotUtils) (e : Event) (t : AppHotUtils) (h : Sound past u)
    (hs : step u e = some t) : Sound (past ++ [e]) t := by
  cases e with
  | onActivityStarted activity top =>
    cases hs
    exact h.started activity top
  | onActivityStopped activity =>
    simp only [step, Option.ite_none_right_eq_some, Option.some.injEq] at hs
    obtain ⟨hmem, rfl⟩ := hs
    exact h.stopped hmem
  | jobExpired job =>
    simp only [step, Option.ite_none_right_eq_some, Option.some.injEq] at hs
    obtain ⟨hmem, rfl⟩ := hs
    exact h.expired hmem
  | registerTask task =>
    cases hs
    refine ⟨h.count, h.pending, ?_, h.tasks.registerTask task⟩
    rw [expired_snoc (by simp [Event.isStart]) (by simp [Event.isExpiry])]
    exact h.flag
  | unregisterTask task =>
    cases hs
    refine ⟨h.count, h.pending, ?_, h.tasks.unregisterTask task⟩
    rw [expired_snoc (by simp [Event.isStart]) (by simp [Event.isExpiry])]
    exact h.flag

/-! ## Hot starts -/

/-- What an event runs: a hot start with all the tasks registered, each once, if an activity starts and a job expired since
the start before, and nothing otherwise. -/
structure RunsHot (past : List Event) (u : AppHotUtils) (e : Event) (t : AppHotUtils) : Prop where
  hot  : e.isStart → ExpiredSinceStart past → t.hotStarts = u.hotStarts + 1 ∧
    ∃ tasks, Tasks past tasks ∧ t.runs = u.runs ++ tasks
  cold : ¬ (e.isStart ∧ ExpiredSinceStart past) → t.hotStarts = u.hotStarts ∧ t.runs = u.runs

theorem Sound.runsHot (h : Sound past u) (hs : step u e = some t) : RunsHot past u e t := by
  cases e with
  | onActivityStarted activity top =>
    cases hs
    have hflag : (u.entered activity).needExecBackgroundTask = true ↔ ExpiredSinceStart past := h.flag
    unfold AppHotUtils.onActivityStarted
    refine ⟨fun _ hexpired => ?_, fun hcold => ?_⟩
    · rw [if_pos (hflag.2 hexpired)]
      exact ⟨rfl, u.backgroundTasks, h.tasks, rfl⟩
    · rw [if_neg (fun hset => hcold ⟨trivial, hflag.1 hset⟩)]
      exact ⟨rfl, rfl⟩
  | onActivityStopped activity =>
    simp only [step, Option.ite_none_right_eq_some, Option.some.injEq] at hs
    obtain ⟨-, rfl⟩ := hs
    refine ⟨fun hstart => absurd hstart (by simp [Event.isStart]), fun _ => ?_⟩
    unfold AppHotUtils.onActivityStopped
    split <;> exact ⟨rfl, rfl⟩
  | jobExpired job =>
    simp only [step, Option.ite_none_right_eq_some, Option.some.injEq] at hs
    obtain ⟨-, rfl⟩ := hs
    exact ⟨fun hstart => absurd hstart (by simp [Event.isStart]), fun _ => ⟨rfl, rfl⟩⟩
  | registerTask task | unregisterTask task =>
    cases hs
    exact ⟨fun hstart => absurd hstart (by simp [Event.isStart]), fun _ => ⟨rfl, rfl⟩⟩

/-- **A hot start after a long enough absence, and only then.**  After any events in which every stop follows its own start,
the next event runs `onHotForeground` exactly when an activity starts and the job expired since the activity start before,
and it runs each registered task once; at most one job is pending, and none while an activity is started. -/
theorem hot_start_exact (past : List Event) (u : AppHotUtils) (hrun : Machine.run step initial past = some u) :
    (∀ e t, step u e = some t → RunsHot past u e t) ∧ u.pending.length ≤ 1 ∧ (u.started ≠ [] → u.pending = []) := by
  have h : Sound past u := Machine.run_of_past sound_step past [] initial sound_initial hrun
  refine ⟨fun e t hs => h.runsHot hs, ?_, h.idle⟩
  rcases h.pending with hnone | ⟨job, hjob, -, -⟩
  · simp [hnone]
  · simp [hjob]

theorem hot_start_exact_back :
    ∃ u, Machine.run step initial [.registerTask 4, .onActivityStarted 0 true, .onActivityStopped 0, .jobExpired 0] = some u ∧
      (u.onActivityStarted 1 true).hotStarts = 1 ∧ u.pending.length ≤ 1 := by
  obtain ⟨hnext, hone, -⟩ := hot_start_exact
    [.registerTask 4, .onActivityStarted 0 true, .onActivityStopped 0, .jobExpired 0] _ rfl
  refine ⟨_, rfl, ?_, hone⟩
  exact ((hnext (.onActivityStarted 1 true) _ rfl).hot trivial
    ⟨[.registerTask 4, .onActivityStarted 0 true, .onActivityStopped 0], .jobExpired 0, [], rfl, trivial, by simp⟩).1

end AppHotUtils
end Riddles
