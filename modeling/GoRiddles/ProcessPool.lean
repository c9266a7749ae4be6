import GoRiddles.Machine
/-!
# ProcessPool — the guards of the native processes

`GuardedProcessPool.kt`.  A guard starts a process, waits for its exit code and starts it again; when the pool is closed, or
when a restart fails for good, it makes sure that the process is gone.  The coroutines run on the main thread and are
modelled from one suspension point to the next.  An exit code goes from the thread that waits for the process to the channel,
and from there to the coroutine.  Two things keep it from arriving: a coroutine that is cancelled, or times out, after the
code was handed over and before it is resumed never sees it; and the thread is started at the head of the loop, so while the
restart callback runs nobody waits for the new process.
-/
namespace Riddles
namespace ProcessPool

/-- Where the coroutine of `looper` is suspended. -/
inductive Phase where
  /-- It was launched after the pool had been cancelled, and never ran. -/
  | neverRan
  /-- At `exitChannel.receive()` of the loop. -/
  | waiting
  /-- In `onRestartCallback`. -/
  | restarting
  /-- In the `finally`, for half a second after SIGTERM. -/
  | terminating
  /-- In the `finally`, for a second after `destroy`. -/
  | destroying
  /-- At the last `exitChannel.receive()`. -/
  | reaping
  | finished
  deriving DecidableEq, Repr

/-- `Guard`, with its processes numbered as they are started. -/
structure Guard where
  phase    : Phase
  callback : Bool
  started  : Nat
  /-- The processes that run. -/
  live     : List Nat
  /-- A thread was started that waits for the last process and sends its exit code. -/
  watched  : Bool
  /-- The processes whose exit code is offered to the channel. -/
  sending  : List Nat
  /-- The process whose exit code was handed to the coroutine, which is not resumed yet. -/
  inFlight : Option Nat
  /-- The calls of `onFatal`. -/
  fatal    : Nat
  deriving DecidableEq, Repr

/-- How a restart callback ends. -/
inductive Outcome where
  | returned
  | ioException
  | cancelled
  deriving DecidableEq, Repr

inductive Action where
  /-- Process `p` exits, by itself or by a signal. -/
  | exits (p : Nat)
  /-- The channel hands the code of `p` to the coroutine. -/
  | handOver (p : Nat)
  /-- The coroutine is resumed in the loop; whether `start` succeeds, if it comes to it. -/
  | resumed (startOk : Bool)
  /-- The code of `p` is on offer when the loop comes to `receive`, which does not suspend. -/
  | received (p : Nat) (startOk : Bool)
  /-- The coroutine is resumed by the cancellation. -/
  | cancelled
  | callback (outcome : Outcome)
  /-- The coroutine is resumed in the `finally`; whether its timeout has come first. -/
  | reaped (timedOut : Bool)
  | timeout
  deriving DecidableEq, Repr

namespace Guard

/-- The coroutine is at a `receive`. -/
def receiving (g : Guard) : Bool :=
  match g.phase with
  | .waiting | .terminating | .destroying | .reaping => true
  | .neverRan | .restarting | .finished => false

/-- The coroutine is in its `finally`. -/
def cleaning (g : Guard) : Bool :=
  match g.phase with
  | .terminating | .destroying | .reaping => true
  | .neverRan | .waiting | .restarting | .finished => false

/-- The process `process`. -/
def last (g : Guard) : Nat := g.started - 1

/-- The head of the loop: the thread that waits for the process, which may have exited already, and `receive`. -/
def watch (g : Guard) : Guard :=
  { g with
    phase := .waiting, watched := true
    sending := if g.last ∈ g.live then g.sending else g.sending ++ [g.last] }

/-- The `finally` with `running` true, up to its first suspension. -/
def cleanUp (sdk : Nat) (g : Guard) : Guard :=
  { g with phase := if sdk < 24 then .terminating else if sdk < 26 then .reaping else .destroying }

/-- From SIGTERM to `destroy` and on; from `destroy` to `destroyForcibly`. -/
def nextStage (g : Guard) : Guard := { g with phase := .reaping }

/-- `start()`, in the loop. -/
def spawn (g : Guard) : Guard :=
  { g with phase := .restarting, live := g.live ++ [g.started], started := g.started + 1, watched := false }

/-- The loop after an exit code. -/
def restart (g : Guard) (startOk : Bool) : Guard :=
  if startOk then (if g.callback then g.spawn else g.spawn.watch)
  -- `running` is false, and the `finally` has nothing to do
  else { g with phase := .finished, fatal := g.fatal + 1 }

def step (sdk : Nat) (closed : Bool) (g : Guard) : Action → Option Guard
  | .exits p =>
    if p ∈ g.live then
      some { g with live := g.live.erase p, sending := if g.watched then g.sending ++ [p] else g.sending }
    else none
  | .handOver p =>
    if p ∈ g.sending ∧ g.receiving ∧ g.inFlight = none then
      some { g with sending := g.sending.erase p, inFlight := some p }
    else none
  | .resumed startOk =>
    if g.phase = .waiting ∧ g.inFlight ≠ none then
      some (if closed then { g with inFlight := none }.cleanUp sdk else { g with inFlight := none }.restart startOk)
    else none
  | .received p startOk =>
    if g.phase = .waiting ∧ p ∈ g.sending ∧ g.inFlight = none then
      some ({ g with sending := g.sending.erase p }.restart startOk)
    else none
  | .cancelled => if g.phase = .waiting ∧ g.inFlight = none ∧ closed then some (g.cleanUp sdk) else none
  | .callback outcome =>
    if g.phase = .restarting then
      match outcome with
      | .returned => some g.watch
      | .ioException => some ({ g with fatal := g.fatal + 1 }.cleanUp sdk)
      | .cancelled => if closed then some (g.cleanUp sdk) else none
    else none
  | .reaped timedOut =>
    if g.inFlight = none then none
    else
      match g.phase with
      | .terminating | .destroying =>
        if timedOut then some { g with inFlight := none }.nextStage else some { g with inFlight := none, phase := .finished }
      | .reaping => some { g with inFlight := none, phase := .finished }
      | .neverRan | .waiting | .restarting | .finished => none
  | .timeout =>
    if (g.phase = .terminating ∨ g.phase = .destroying) ∧ g.inFlight = none then some g.nextStage else none

/-- **The actions that end in `onFatal`**: the loop goes on after an exit code and `start` throws an `IOException`, or the
restart callback throws one. -/
def failsFatally (closed : Bool) : Action → Bool
  | .resumed startOk    => !startOk && !closed
  | .received _ startOk => !startOk
  | .callback outcome   => decide (outcome = .ioException)
  | _                   => false

theorem fatal_restart (g : Guard) (startOk : Bool) :
    (g.restart startOk).fatal = g.fatal + if startOk then 0 else 1 := by
  unfold restart
  cases startOk with
  | false => rfl
  | true => cases g.callback <;> rfl

/-! ## Where the exit code is -/

/-- The process runs, or its exit code is on its way to the coroutine; nothing else is about. -/
inductive Pending (g : Guard) (p : Nat) : Prop
  | runs (live : g.live = [p]) (sending : g.sending = []) (inFlight : g.inFlight = none)
  | offered (live : g.live = []) (sending : g.sending = [p]) (inFlight : g.inFlight = none)
  | handed (live : g.live = []) (sending : g.sending = []) (inFlight : g.inFlight = some p)

/-- No process runs and no exit code is about. -/
structure Spent (g : Guard) : Prop where
  live     : g.live = []
  sending  : g.sending = []
  inFlight : g.inFlight = none

/-- What the phase says: a coroutine that waits is sure to get a code, one in the callback has no thread at work, and one that
is finished has left nothing behind. -/
def Fits (g : Guard) : Prop :=
  match g.phase with
  | .neverRan | .restarting => g.watched = false ∧ g.fatal = 0
  | .waiting => g.watched = true ∧ Pending g g.last ∧ g.fatal = 0
  | .terminating | .destroying | .reaping => g.fatal ≤ 1
  | .finished => Spent g ∧ g.fatal ≤ 1

/-- **One process at a time**: only the last process runs, or has an exit code that was not seen yet. -/
structure Sound (g : Guard) : Prop where
  code      : Pending g g.last ∨ Spent g
  unwatched : g.watched = false → g.sending = [] ∧ g.inFlight = none
  fits      : Fits g

variable {sdk : Nat} {closed : Bool} {g t : Guard} {p : Nat}

theorem Fits.fatal (h : Fits g) : g.fatal ≤ 1 := by
  unfold Fits at h
  split at h <;> omega

theorem Sound.of_waiting (h : Sound g) (hphase : g.phase = .waiting) :
    g.watched = true ∧ Pending g g.last ∧ g.fatal = 0 := by
  have hfits := h.fits
  rwa [Fits, hphase] at hfits

theorem Sound.of_restarting (h : Sound g) (hphase : g.phase = .restarting) : g.watched = false ∧ g.fatal = 0 := by
  have hfits := h.fits
  rwa [Fits, hphase] at hfits

theorem Sound.of_finished (h : Sound g) (hphase : g.phase = .finished) : Spent g := by
  have hfits := h.fits
  rw [Fits, hphase] at hfits
  exact hfits.1

theorem Sound.of_mem_live (h : Sound g) (hp : p ∈ g.live) :
    g.live = [p] ∧ g.sending = [] ∧ g.inFlight = none ∧ p = g.last := by
  rcases h.code with (⟨hlive, hsending, hinFlight⟩ | ⟨hlive, -, -⟩ | ⟨hlive, -, -⟩) | ⟨hlive, -, -⟩
  · rw [hlive, List.mem_singleton] at hp
    exact ⟨hp ▸ hlive, hsending, hinFlight, hp⟩
  all_goals
    rw [hlive] at hp
    exact absurd hp List.not_mem_nil

theorem Sound.of_mem_sending (h : Sound g) (hp : p ∈ g.sending) :
    g.live = [] ∧ g.sending = [p] ∧ g.inFlight = none ∧ p = g.last := by
  rcases h.code with (⟨-, hsending, -⟩ | ⟨hlive, hsending, hinFlight⟩ | ⟨-, hsending, -⟩) | ⟨-, hsending, -⟩
  · rw [hsending] at hp
    exact absurd hp List.not_mem_nil
  · rw [hsending, List.mem_singleton] at hp
    exact ⟨hlive, hp ▸ hsending, hinFlight, hp⟩
  all_goals
    rw [hsending] at hp
    exact absurd hp List.not_mem_nil

/-- A code that is handed over is all there is. -/
theorem Sound.of_inFlight (h : Sound g) (hne : g.inFlight ≠ none) : g.live = [] ∧ g.sending = [] := by
  rcases h.code with (⟨-, -, hnone⟩ | ⟨-, -, hnone⟩ | ⟨hlive, hsending, -⟩) | ⟨-, -, hnone⟩
  · exact absurd hnone hne
  · exact absurd hnone hne
  · exact ⟨hlive, hsending⟩
  · exact absurd hnone hne

/-! ## One action -/

theorem Pending.congr (h : Pending g p) (hlive : t.live = g.live) (hsending : t.sending = g.sending)
    (hinFlight : t.inFlight = g.inFlight) : Pending t p := by
  cases h with
  | runs h₁ h₂ h₃ => exact .runs (hlive.trans h₁) (hsending.trans h₂) (hinFlight.trans h₃)
  | offered h₁ h₂ h₃ => exact .offered (hlive.trans h₁) (hsending.trans h₂) (hinFlight.trans h₃)
  | handed h₁ h₂ h₃ => exact .handed (hlive.trans h₁) (hsending.trans h₂) (hinFlight.trans h₃)

theorem cleaning_cleanUp (sdk : Nat) (g : Guard) : (g.cleanUp sdk).cleaning = true := by
  unfold cleanUp
  by_cases h24 : sdk < 24
  · simp [cleaning, h24]
  · by_cases h26 : sdk < 26
    · simp [cleaning, h24, h26]
    · simp [cleaning, h24, h26]

theorem fits_of_cleaning (hcleaning : t.cleaning = true) (hfatal : t.fatal ≤ 1) : Fits t := by
  cases hphase : t.phase <;> simp [cleaning, hphase] at hcleaning <;> simpa [Fits, hphase] using hfatal

/-- The phase stays as it is. -/
theorem Fits.of_code (h : Fits g) (hphase : t.phase = g.phase) (hwatched : t.watched = g.watched) (hfatal : t.fatal = g.fatal)
    (hwaiting : g.phase = .waiting → Pending t t.last) (hfinished : g.phase ≠ .finished) : Fits t := by
  cases hg : g.phase <;> simp only [Fits, hg, hphase, hwatched, hfatal] at h ⊢
  all_goals first | exact h | exact ⟨h.1, hwaiting hg, h.2.2⟩ | exact absurd hg hfinished

/-- A guard that goes to its `finally`, or on in it. -/
theorem Sound.to_cleaning (h : Sound g) (hcleaning : t.cleaning = true) (hfatal : t.fatal ≤ 1)
    (hstarted : t.started = g.started) (hlive : t.live = g.live) (hwatched : t.watched = g.watched)
    (hsending : t.sending = g.sending) (hinFlight : t.inFlight = g.inFlight) : Sound t := by
  refine ⟨?_, ?_, fits_of_cleaning hcleaning hfatal⟩
  · rcases h.code with hcode | hspent
    · have hlast : t.last = g.last := by rw [last, last, hstarted]
      rw [hlast]
      exact .inl (hcode.congr hlive hsending hinFlight)
    · exact .inr ⟨hlive.trans hspent.live, hsending.trans hspent.sending, hinFlight.trans hspent.inFlight⟩
  · intro hw
    rw [hsending, hinFlight]
    exact h.unwatched (hwatched ▸ hw)

theorem sound_of_spent (hspent : Spent t) (hfits : Fits t) : Sound t :=
  ⟨.inr hspent, fun _ => ⟨hspent.sending, hspent.inFlight⟩, hfits⟩

/-- The new process runs, and nothing is left of the others. -/
theorem sound_spawn (hspent : Spent g) (hfatal : g.fatal = 0) : Sound g.spawn :=
  ⟨.inl (.runs (by simp [spawn, last, hspent.live]) hspent.sending hspent.inFlight),
    fun _ => ⟨hspent.sending, hspent.inFlight⟩, rfl, hfatal⟩

/-- **The head of the loop**: with the thread started, the exit code of the process is sure to come. -/
theorem sound_watch (h : Sound g) (hphase : g.phase = .restarting) : Sound g.watch := by
  obtain ⟨hwatched, hfatal⟩ := h.of_restarting hphase
  obtain ⟨hsending, hinFlight⟩ := h.unwatched hwatched
  have hcode : Pending g.watch g.last := by
    rcases h.code with (⟨hlive, -, -⟩ | ⟨-, hoffered, -⟩ | ⟨-, -, hhanded⟩) | hspent
    · exact .runs hlive (by simp [watch, hlive, hsending]) hinFlight
    · rw [hsending] at hoffered
      cases hoffered
    · rw [hinFlight] at hhanded
      cases hhanded
    · exact .offered hspent.live (by simp [watch, hspent.live, hsending]) hinFlight
  refine ⟨.inl hcode, fun hw => ?_, rfl, hcode, hfatal⟩
  cases hw

theorem sound_restart (hspent : Spent g) (hfatal : g.fatal = 0) (startOk : Bool) : Sound (g.restart startOk) := by
  unfold restart
  cases startOk with
  | false =>
    have hspent' : Spent { g with phase := .finished, fatal := g.fatal + 1 } :=
      ⟨hspent.live, hspent.sending, hspent.inFlight⟩
    exact sound_of_spent hspent' ⟨hspent', by simp [hfatal]⟩
  | true =>
    cases g.callback with
    | true => exact sound_spawn hspent hfatal
    | false => exact sound_watch (sound_spawn hspent hfatal) rfl

theorem sound_exits (h : Sound g) (hs : g.step sdk closed (.exits p) = some t) : Sound t := by
  simp only [step, Option.ite_none_right_eq_some, Option.some.injEq] at hs
  obtain ⟨hp, rfl⟩ := hs
  obtain ⟨hlive, hsending, hinFlight, hlast⟩ := h.of_mem_live hp
  have hgone : g.live.erase p = [] := by simp [hlive]
  have hfinished : g.phase ≠ .finished := by
    intro hphase
    rw [(h.of_finished hphase).live] at hp
    exact List.not_mem_nil hp
  cases hwatched : g.watched with
  | false =>
    refine sound_of_spent ⟨hgone, hsending, hinFlight⟩ (h.fits.of_code rfl hwatched.symm rfl (fun hphase => ?_) hfinished)
    rw [(h.of_waiting hphase).1] at hwatched
    cases hwatched
  | true =>
    have hcode : Pending { g with live := g.live.erase p, watched := true, sending := g.sending ++ [p] } g.last :=
      .offered hgone (by simp [hsending, hlast]) hinFlight
    refine ⟨.inl hcode, fun hw => ?_, h.fits.of_code rfl hwatched.symm rfl (fun _ => hcode) hfinished⟩
    cases hw

theorem sound_handOver (h : Sound g) (hs : g.step sdk closed (.handOver p) = some t) : Sound t := by
  simp only [step, Option.ite_none_right_eq_some, Option.some.injEq] at hs
  obtain ⟨⟨hp, hreceiving, -⟩, rfl⟩ := hs
  obtain ⟨hlive, hsending, -, hlast⟩ := h.of_mem_sending hp
  have hcode : Pending { g with sending := g.sending.erase p, inFlight := some p } g.last :=
    .handed hlive (by simp [hsending]) (by rw [hlast])
  refine ⟨.inl hcode, fun hw => ?_, h.fits.of_code rfl rfl rfl (fun _ => hcode) (fun hphase => ?_)⟩
  · rw [(h.unwatched hw).1] at hsending
    cases hsending
  · simp [receiving, hphase] at hreceiving

theorem sound_resumed (h : Sound g) {startOk : Bool} (hs : g.step sdk closed (.resumed startOk) = some t) : Sound t := by
  simp only [step, Option.ite_none_right_eq_some, Option.some.injEq] at hs
  obtain ⟨⟨hphase, hne⟩, rfl⟩ := hs
  obtain ⟨hlive, hsending⟩ := h.of_inFlight hne
  have hspent : Spent { g with inFlight := none } := ⟨hlive, hsending, rfl⟩
  cases closed with
  | true => exact sound_of_spent ⟨hlive, hsending, rfl⟩ (fits_of_cleaning (cleaning_cleanUp sdk _) h.fits.fatal)
  | false => exact sound_restart hspent (h.of_waiting hphase).2.2 startOk

theorem sound_received (h : Sound g) {startOk : Bool} (hs : g.step sdk closed (.received p startOk) = some t) : Sound t := by
  simp only [step, Option.ite_none_right_eq_some, Option.some.injEq] at hs
  obtain ⟨⟨hphase, hp, -⟩, rfl⟩ := hs
  obtain ⟨hlive, hsending, hinFlight, -⟩ := h.of_mem_sending hp
  have hspent : Spent { g with sending := g.sending.erase p } := ⟨hlive, by simp [hsending], hinFlight⟩
  exact sound_restart hspent (h.of_waiting hphase).2.2 startOk

theorem sound_callback (h : Sound g) {outcome : Outcome} (hs : g.step sdk closed (.callback outcome) = some t) : Sound t := by
  simp only [step, Option.ite_none_right_eq_some] at hs
  obtain ⟨hphase, hs⟩ := hs
  cases outcome with
  | returned =>
    cases hs
    exact sound_watch h hphase
  | ioException =>
    cases hs
    have hfatal : g.fatal + 1 ≤ 1 := by simp [(h.of_restarting hphase).2]
    exact h.to_cleaning (cleaning_cleanUp sdk _) hfatal rfl rfl rfl rfl rfl
  | cancelled =>
    simp only [Option.ite_none_right_eq_some, Option.some.injEq] at hs
    obtain ⟨-, rfl⟩ := hs
    exact h.to_cleaning (cleaning_cleanUp sdk _) h.fits.fatal rfl rfl rfl rfl rfl

/-- What the coroutine is left with when its last code was handed over: it is finished, or it has missed the code. -/
theorem reaped_cases {timedOut : Bool} (hs : g.step sdk closed (.reaped timedOut) = some t) :
    g.inFlight ≠ none ∧ g.cleaning = true ∧
      (t = { g with inFlight := none, phase := .finished } ∨ t = { g with inFlight := none }.nextStage) := by
  simp only [step, Option.ite_none_left_eq_some] at hs
  obtain ⟨hne, hs⟩ := hs
  refine ⟨hne, ?_⟩
  cases hphase : g.phase <;> rw [hphase] at hs <;> simp only [reduceCtorEq] at hs
  all_goals refine ⟨by simp [cleaning, hphase], ?_⟩
  case reaping =>
    cases hs
    exact .inl rfl
  all_goals
    cases timedOut with
    | true =>
      cases hs
      exact .inr rfl
    | false =>
      cases hs
      exact .inl rfl

theorem sound_reaped (h : Sound g) {timedOut : Bool} (hs : g.step sdk closed (.reaped timedOut) = some t) : Sound t := by
  obtain ⟨hne, -, ht⟩ := reaped_cases hs
  obtain ⟨hlive, hsending⟩ := h.of_inFlight hne
  rcases ht with rfl | rfl
  · exact sound_of_spent ⟨hlive, hsending, rfl⟩ ⟨⟨hlive, hsending, rfl⟩, h.fits.fatal⟩
  · exact sound_of_spent ⟨hlive, hsending, rfl⟩ (fits_of_cleaning rfl h.fits.fatal)

theorem sound_step (h : Sound g) {action : Action} (hs : g.step sdk closed action = some t) : Sound t := by
  cases action with
  | exits p => exact sound_exits h hs
  | handOver p => exact sound_handOver h hs
  | resumed startOk => exact sound_resumed h hs
  | received p startOk => exact sound_received h hs
  | cancelled =>
    simp only [step, Option.ite_none_right_eq_some, Option.some.injEq] at hs
    obtain ⟨-, rfl⟩ := hs
    exact h.to_cleaning (cleaning_cleanUp sdk g) h.fits.fatal rfl rfl rfl rfl rfl
  | callback outcome => exact sound_callback h hs
  | reaped timedOut => exact sound_reaped h hs
  | timeout =>
    simp only [step, Option.ite_none_right_eq_some, Option.some.injEq] at hs
    obtain ⟨-, rfl⟩ := hs
    exact h.to_cleaning rfl h.fits.fatal rfl rfl rfl rfl rfl

/-- **`onFatal` is called for its two reasons and no other.** -/
theorem fatal_step {action : Action} (hs : g.step sdk closed action = some t) :
    t.fatal = g.fatal + if failsFatally closed action then 1 else 0 := by
  cases action with
  | exits p | handOver p | cancelled | timeout =>
    simp only [step, Option.ite_none_right_eq_some, Option.some.injEq] at hs
    obtain ⟨-, rfl⟩ := hs
    rfl
  | resumed startOk =>
    simp only [step, Option.ite_none_right_eq_some, Option.some.injEq] at hs
    obtain ⟨-, rfl⟩ := hs
    cases closed with
    | true => cases startOk <;> rfl
    | false =>
      refine (fatal_restart _ startOk).trans ?_
      cases startOk <;> rfl
  | received p startOk =>
    simp only [step, Option.ite_none_right_eq_some, Option.some.injEq] at hs
    obtain ⟨-, rfl⟩ := hs
    refine (fatal_restart _ startOk).trans ?_
    cases startOk <;> rfl
  | callback outcome =>
    simp only [step, Option.ite_none_right_eq_some] at hs
    obtain ⟨-, hs⟩ := hs
    cases outcome with
    | returned | ioException =>
      cases hs
      rfl
    | cancelled =>
      simp only [Option.ite_none_right_eq_some, Option.some.injEq] at hs
      obtain ⟨-, rfl⟩ := hs
      rfl
  | reaped timedOut =>
    obtain ⟨-, -, rfl | rfl⟩ := reaped_cases hs <;> rfl

/-! ## Clean-ups that do not end -/

/-- A clean-up that waits for an exit code nobody will send. -/
structure Stuck (g : Guard) : Prop where
  cleaning : g.cleaning = true
  nothing  : g.watched = false ∨ Spent g
  sending  : g.sending = []
  inFlight : g.inFlight = none

/-- **A clean-up without a code never ends.** -/
theorem stuck_step (h : Stuck g) {action : Action} (hs : g.step sdk closed action = some t) : Stuck t := by
  have hwaiting : g.phase ≠ .waiting := by
    intro hphase
    have hcleaning := h.cleaning
    simp [Guard.cleaning, hphase] at hcleaning
  cases action with
  | exits p =>
    simp only [step, Option.ite_none_right_eq_some, Option.some.injEq] at hs
    obtain ⟨hp, rfl⟩ := hs
    rcases h.nothing with hwatched | hspent
    · exact ⟨h.cleaning, .inl hwatched, by simp [hwatched, h.sending], h.inFlight⟩
    · rw [hspent.live] at hp
      exact absurd hp List.not_mem_nil
  | handOver p => simp [step, h.sending] at hs
  | resumed startOk => simp [step, hwaiting] at hs
  | received p startOk => simp [step, hwaiting] at hs
  | cancelled => simp [step, hwaiting] at hs
  | callback outcome =>
    have hrestarting : g.phase ≠ .restarting := by
      intro hphase
      have hcleaning := h.cleaning
      simp [Guard.cleaning, hphase] at hcleaning
    simp [step, hrestarting] at hs
  | reaped timedOut => simp [step, h.inFlight] at hs
  | timeout =>
    simp only [step, Option.ite_none_right_eq_some, Option.some.injEq] at hs
    obtain ⟨-, rfl⟩ := hs
    exact ⟨rfl, h.nothing.imp id (fun hspent => ⟨hspent.live, hspent.sending, hspent.inFlight⟩), h.sending, h.inFlight⟩

theorem Sound.stuck (h : Sound g) (hcleaning : g.cleaning = true) (hnothing : g.watched = false ∨ Spent g) : Stuck g := by
  rcases hnothing with hwatched | hspent
  · exact ⟨hcleaning, .inl hwatched, (h.unwatched hwatched).1, (h.unwatched hwatched).2⟩
  · exact ⟨hcleaning, .inr hspent, hspent.sending, hspent.inFlight⟩

/-- The callback is left with no thread started for the new process. -/
theorem stuck_of_callback (h : Sound g) {outcome : Outcome} (hs : g.step sdk closed (.callback outcome) = some t)
    (hfails : outcome ≠ .returned) : Stuck t := by
  have hsound := sound_callback h hs
  simp only [step, Option.ite_none_right_eq_some] at hs
  obtain ⟨hphase, hs⟩ := hs
  have hwatched := (h.of_restarting hphase).1
  cases outcome with
  | returned => exact absurd rfl hfails
  | ioException =>
    cases hs
    exact hsound.stuck (cleaning_cleanUp sdk _) (.inl hwatched)
  | cancelled =>
    simp only [Option.ite_none_right_eq_some, Option.some.injEq] at hs
    obtain ⟨-, rfl⟩ := hs
    exact hsound.stuck (cleaning_cleanUp sdk _) (.inl hwatched)

theorem reap_handed (hcleaning : g.cleaning = true) (hinFlight : g.inFlight = some p) :
    g.step sdk closed (.reaped false) = some { g with inFlight := none, phase := .finished } := by
  cases hphase : g.phase <;> simp [cleaning, hphase] at hcleaning <;> simp [step, hphase, hinFlight]

theorem reap_offered (hcleaning : g.cleaning = true) (hsending : g.sending = [p]) (hinFlight : g.inFlight = none) :
    Machine.run (step sdk closed) g [.handOver p, .reaped false] =
      some { g with sending := [], inFlight := none, phase := .finished } := by
  have hreceiving : g.receiving = true := by
    cases hphase : g.phase <;> simp [cleaning, hphase] at hcleaning <;> simp [receiving, hphase]
  have hhand : g.step sdk closed (.handOver p) = some { g with sending := [], inFlight := some p } := by
    simp [step, hsending, hreceiving, hinFlight]
  refine Machine.run_cons_eq_some.2 ⟨_, hhand, Machine.run_cons_eq_some.2 ⟨_, reap_handed hcleaning rfl, rfl⟩⟩

/-- **A clean-up with a code to come can end**: the process exits, its code is handed over, the coroutine is resumed. -/
theorem exists_finished (hcleaning : g.cleaning = true) (hwatched : g.watched = true) (hcode : Pending g p) :
    ∃ actions t, Machine.run (step sdk closed) g actions = some t ∧ t.phase = .finished := by
  cases hcode with
  | runs hlive hsending hinFlight =>
    have hexit : g.step sdk closed (.exits p) = some { g with live := [], sending := [p] } := by
      simp [step, hlive, hwatched, hsending]
    have hrest : Machine.run (step sdk closed) { g with live := [], sending := [p] } [.handOver p, .reaped false] = _ :=
      reap_offered hcleaning rfl hinFlight
    exact ⟨_, _, Machine.run_cons_eq_some.2 ⟨_, hexit, hrest⟩, rfl⟩
  | offered _ hsending hinFlight => exact ⟨_, _, reap_offered hcleaning hsending hinFlight, rfl⟩
  | handed _ _ hinFlight =>
    exact ⟨_, _, Machine.run_cons_eq_some.2 ⟨_, reap_handed hcleaning hinFlight, Machine.run_nil⟩, rfl⟩

theorem Stuck.not_finished (h : Stuck g) : g.phase ≠ .finished := by
  intro hphase
  have hcleaning := h.cleaning
  simp [Guard.cleaning, hphase] at hcleaning

end Guard

/-- The pool: its guards, and whether it was cancelled. -/
structure Pool where
  guards : List Guard
  closed : Bool
  deriving DecidableEq, Repr

inductive Event where
  /-- `start(cmd)`; a process that cannot be started throws, and there is no guard. -/
  | start (callback : Bool)
  | close
  | act (i : Nat) (action : Action)
  deriving DecidableEq, Repr

namespace Pool

def created : Pool := ⟨[], false⟩

/-- A guard whose process was started; `launch` runs the looper up to the first `receive`, unless the pool is cancelled. -/
def launched (closed callback : Bool) : Guard :=
  if closed then ⟨.neverRan, callback, 1, [0], false, [], none, 0⟩ else ⟨.waiting, callback, 1, [0], true, [], none, 0⟩

def step (sdk : Nat) (s : Pool) : Event → Option Pool
  | .start callback => some { s with guards := s.guards ++ [launched s.closed callback] }
  | .close => some { s with closed := true }
  | .act i action =>
    (s.guards[i]?).bind (fun g => (g.step sdk s.closed action).map (fun g' => { s with guards := s.guards.set i g' }))

/-- `job.join()` of `close` returns: every coroutine of the pool is at its end. -/
def joined (s : Pool) : Prop := s.closed = true ∧ ∀ g ∈ s.guards, g.phase = .finished ∨ g.phase = .neverRan

variable {sdk : Nat} {s t : Pool} {i : Nat} {g : Guard}

/-- **What one event does to a guard**: nothing, or one action of its own. -/
theorem guard_of_step {e : Event} (hs : step sdk s e = some t) (hg : s.guards[i]? = some g) :
    t.guards[i]? = some g ∨
      ∃ action g', e = .act i action ∧ g.step sdk s.closed action = some g' ∧ t.guards[i]? = some g' := by
  have hi : i < s.guards.length := (List.getElem?_eq_some_iff.1 hg).1
  cases e with
  | start callback =>
    cases hs
    exact .inl (by rw [List.getElem?_append_left hi, hg])
  | close =>
    cases hs
    exact .inl hg
  | act j action =>
    simp only [step, Option.bind_eq_some_iff, Option.map_eq_some_iff] at hs
    obtain ⟨h, hh, h', hstep, rfl⟩ := hs
    by_cases hij : j = i
    · subst hij
      rw [hg, Option.some.injEq] at hh
      subst hh
      exact .inr ⟨action, h', rfl, hstep, List.getElem?_set_self hi⟩
    · exact .inl (by rw [List.getElem?_set_ne hij, hg])

theorem sound_launched (closed callback : Bool) : (launched closed callback).Sound := by
  cases closed with
  | true => exact ⟨.inl (.runs rfl rfl rfl), fun _ => ⟨rfl, rfl⟩, rfl, rfl⟩
  | false =>
    refine ⟨.inl (.runs rfl rfl rfl), fun hw => ?_, rfl, .runs rfl rfl rfl, rfl⟩
    cases hw

/-- Every guard is sound. -/
def Sound (s : Pool) : Prop := ∀ g ∈ s.guards, g.Sound

theorem sound_step (h : Sound s) {e : Event} (hs : step sdk s e = some t) : Sound t := by
  cases e with
  | start callback =>
    cases hs
    intro g hg
    rcases List.mem_append.1 hg with hg | hg
    · exact h g hg
    · rw [List.mem_singleton.1 hg]
      exact sound_launched s.closed callback
  | close =>
    cases hs
    exact h
  | act i action =>
    simp only [step, Option.bind_eq_some_iff, Option.map_eq_some_iff] at hs
    obtain ⟨g, hg, g', hstep, rfl⟩ := hs
    intro x hx
    rcases List.mem_or_eq_of_mem_set hx with hx | rfl
    · exact h x hx
    · exact Guard.sound_step (h g (List.mem_of_getElem? hg)) hstep

theorem always_sound (sdk : Nat) (es : List Event) : Machine.always (step sdk) Sound created es := by
  refine Machine.always_of_inv (fun _ _ _ h hs => sound_step h hs) es created (fun g hg => ?_)
  cases hg

theorem sound_of_run {es : List Event} (hrun : Machine.run (step sdk) created es = some s) : Sound s :=
  Machine.always_last es created (always_sound sdk es) hrun

/-- **A guard of a pool, seen from outside.** -/
structure Guarded (g : Guard) : Prop where
  /-- Only the process started last can run, and its exit code is at one place: not there yet, on offer, handed over, or
  spent. -/
  code       : g.Pending g.last ∨ g.Spent
  /-- Without a thread that waits for the process there is no code about. -/
  unwatched  : g.watched = false → g.sending = [] ∧ g.inFlight = none
  /-- A coroutine that waits in the loop is sure to get a code. -/
  comes      : g.phase = .waiting → g.watched = true ∧ g.Pending g.last
  /-- In the restart callback no thread waits for the new process. -/
  restarting : g.phase = .restarting → g.watched = false
  finished   : g.phase = .finished → g.Spent
  /-- `onFatal` is called once at most, and not while the loop goes on. -/
  fatal      : g.fatal ≤ 1 ∧ (g.phase = .waiting ∨ g.phase = .restarting → g.fatal = 0)

theorem Guarded.of_sound (h : g.Sound) : Guarded g where
  code := h.code
  unwatched := h.unwatched
  comes hphase := ⟨(h.of_waiting hphase).1, (h.of_waiting hphase).2.1⟩
  restarting hphase := (h.of_restarting hphase).1
  finished hphase := h.of_finished hphase
  fatal := by
    refine ⟨h.fits.fatal, fun hphase => ?_⟩
    rcases hphase with hphase | hphase
    · exact (h.of_waiting hphase).2.2
    · exact (h.of_restarting hphase).2

/-- The event makes guard `i` call `onFatal`. -/
def failsFatally (s : Pool) (i : Nat) : Event → Bool
  | .act j action => decide (j = i) && Guard.failsFatally s.closed action
  | _             => false

theorem fatal_step {e : Event} (hs : step sdk s e = some t) (hg : s.guards[i]? = some g) :
    ∃ g', t.guards[i]? = some g' ∧ g'.fatal = g.fatal + if s.failsFatally i e then 1 else 0 := by
  cases e with
  | start callback =>
    cases hs
    exact ⟨g, by rw [List.getElem?_append_left (List.getElem?_eq_some_iff.1 hg).1, hg], rfl⟩
  | close =>
    cases hs
    exact ⟨g, hg, rfl⟩
  | act j action =>
    simp only [step, Option.bind_eq_some_iff, Option.map_eq_some_iff] at hs
    obtain ⟨h, hh, h', hstep, rfl⟩ := hs
    by_cases hij : j = i
    · subst hij
      rw [hg, Option.some.injEq] at hh
      subst hh
      refine ⟨h', List.getElem?_set_self (List.getElem?_eq_some_iff.1 hg).1, ?_⟩
      simpa [failsFatally] using Guard.fatal_step hstep
    · exact ⟨g, by rw [List.getElem?_set_ne hij, hg], by simp [failsFatally, hij]⟩

/-- **The guards of every run**, and what they call `onFatal` for. -/
theorem guards_guarded (sdk : Nat) (es : List Event) :
    Machine.always (step sdk) (fun s => ∀ g ∈ s.guards, Guarded g) created es ∧
      Machine.along (step sdk) (fun s e t => ∀ i g, s.guards[i]? = some g →
        ∃ g', t.guards[i]? = some g' ∧ g'.fatal = g.fatal + if s.failsFatally i e then 1 else 0) created es := by
  constructor
  · exact Machine.always_mono (fun _ h g hg => .of_sound (h g hg)) es created (always_sound sdk es)
  · exact Machine.along_of_inv (I := fun _ => True) (fun _ _ _ _ _ => trivial) (fun _ _ _ _ hs _ _ hg => fatal_step hs hg) es
      created trivial

/-! ## Whether `close` returns -/

/-- The actions of one guard, as events of its pool. -/
theorem run_act : ∀ (actions : List Action) (s : Pool) (g : Guard) {g' : Guard}, s.guards[i]? = some g →
    Machine.run (Guard.step sdk s.closed) g actions = some g' →
      ∃ t, Machine.run (step sdk) s (actions.map (Event.act i)) = some t ∧ t.guards[i]? = some g'
  | [], s, g, g', hg, hrun => by
    rw [Machine.run_nil, Option.some.injEq] at hrun
    exact ⟨s, rfl, hrun ▸ hg⟩
  | action :: actions, s, g, g', hg, hrun => by
    obtain ⟨u, hu, hrest⟩ := Machine.run_cons_eq_some.1 hrun
    have hi : i < s.guards.length := (List.getElem?_eq_some_iff.1 hg).1
    have hstep : step sdk s (.act i action) = some { s with guards := s.guards.set i u } := by simp [step, hg, hu]
    obtain ⟨t, ht, hg'⟩ := run_act actions { s with guards := s.guards.set i u } u (List.getElem?_set_self hi) hrest
    exact ⟨t, Machine.run_cons_eq_some.2 ⟨_, hstep, ht⟩, hg'⟩

theorem stuck_of_run {later : List Event} (hg : s.guards[i]? = some g) (hstuck : g.Stuck)
    (hrun : Machine.run (step sdk) s later = some t) : ∃ g', t.guards[i]? = some g' ∧ g'.Stuck := by
  have hstep : ∀ s e t, (∃ g, s.guards[i]? = some g ∧ g.Stuck) → step sdk s e = some t →
      ∃ g, t.guards[i]? = some g ∧ g.Stuck := by
    rintro s e t ⟨g, hg, hstuck⟩ hs
    rcases guard_of_step hs hg with hkept | ⟨action, g', -, hstep, hg'⟩
    · exact ⟨g, hkept, hstuck⟩
    · exact ⟨g', hg', Guard.stuck_step hstuck hstep⟩
  have hinv := Machine.always_of_inv hstep later s ⟨g, hg, hstuck⟩
  apply Machine.always_last later s hinv hrun

/-- A coroutine that waits for ever keeps `close` waiting. -/
theorem not_joined_of_stuck (hg : s.guards[i]? = some g) (hstuck : g.Stuck) : ¬ s.joined := by
  rintro ⟨-, hends⟩
  rcases hends g (List.mem_of_getElem? hg) with hphase | hphase
  · exact hstuck.not_finished hphase
  · have hcleaning := hstuck.cleaning
    simp [Guard.cleaning, hphase] at hcleaning

/-- **Which clean-ups can end.**  A guard in its `finally`, in any state of any run, reaches its end in some continuation just
when a thread waits for its process and the exit code has not been lost; otherwise `close` returns in no continuation. -/
theorem clean_up_ends_iff (sdk : Nat) (es : List Event) {s : Pool} (hrun : Machine.run (step sdk) created es = some s)
    {i : Nat} {g : Guard} (hg : s.guards[i]? = some g) (hcleaning : g.cleaning = true) :
    ((∃ later t g', Machine.run (step sdk) s later = some t ∧ t.guards[i]? = some g' ∧ g'.phase = .finished) ↔
      g.watched = true ∧ ¬ g.Spent) ∧
    (¬ (g.watched = true ∧ ¬ g.Spent) → ∀ later t, Machine.run (step sdk) s later = some t → ¬ t.joined) := by
  have hsound := sound_of_run hrun g (List.mem_of_getElem? hg)
  have hstuck : ¬ (g.watched = true ∧ ¬ g.Spent) → g.Stuck := by
    intro hnot
    refine hsound.stuck hcleaning ?_
    rcases Decidable.not_and_iff_not_or_not.1 hnot with hwatched | hspent
    · exact .inl (Bool.not_eq_true _ ▸ hwatched)
    · exact .inr (not_not.1 hspent)
  refine ⟨⟨?_, ?_⟩, ?_⟩
  · rintro ⟨later, t, g', hlater, hg', hfinished⟩
    by_contra hnot
    obtain ⟨g₁, hg₁, hstuck₁⟩ := stuck_of_run hg (hstuck hnot) hlater
    rw [hg', Option.some.injEq] at hg₁
    exact hstuck₁.not_finished (hg₁ ▸ hfinished)
  · rintro ⟨hwatched, hspent⟩
    have hcode := hsound.code.resolve_right hspent
    obtain ⟨actions, g', hactions, hfinished⟩ := Guard.exists_finished hcleaning hwatched hcode
    obtain ⟨t, ht, hg'⟩ := run_act actions s g hg hactions
    exact ⟨_, t, g', ht, hg', hfinished⟩
  · intro hnot later t hlater
    obtain ⟨g₁, hg₁, hstuck₁⟩ := stuck_of_run hg (hstuck hnot) hlater
    exact not_joined_of_stuck hg₁ hstuck₁

/-- An exit code is handed over, and before the coroutine is resumed the pool is closed. -/
def codeLost : List Event :=
  [.start false, .act 0 (.exits 0), .act 0 (.handOver 0), .close, .act 0 (.resumed true)]

/-- The exit code was lost, so this clean-up cannot end. -/
theorem clean_up_ends_iff_codeLost :
    ∃ s g, Machine.run (step 30) created codeLost = some s ∧ s.guards[0]? = some g ∧ g.cleaning = true ∧
      (¬ ∃ later t g', Machine.run (step 30) s later = some t ∧ t.guards[0]? = some g' ∧ g'.phase = .finished) ∧
        ∀ later t, Machine.run (step 30) s later = some t → ¬ t.joined := by
  refine ⟨_, _, rfl, rfl, rfl, ?_⟩
  obtain ⟨hends, hhangs⟩ := clean_up_ends_iff 30 codeLost rfl (i := 0) rfl rfl
  exact ⟨fun h => (hends.1 h).2 ⟨rfl, rfl, rfl⟩, hhangs (fun h => h.2 ⟨rfl, rfl, rfl⟩)⟩

/-- **A restart callback that fails keeps `close` waiting for ever**: it leaves the loop before the thread for the new process
is started, so the clean-up gets no exit code, whatever happens later. -/
theorem callback_failure_hangs (sdk : Nat) (es : List Event) {s t : Pool} (hrun : Machine.run (step sdk) created es = some s)
    {i : Nat} {outcome : Outcome} (hs : step sdk s (.act i (.callback outcome)) = some t) (hfails : outcome ≠ .returned)
    (later : List Event) {u : Pool} (hlater : Machine.run (step sdk) t later = some u) : ¬ u.joined := by
  simp only [step, Option.bind_eq_some_iff, Option.map_eq_some_iff] at hs
  obtain ⟨g, hg, g', hstep, rfl⟩ := hs
  have hi : i < s.guards.length := (List.getElem?_eq_some_iff.1 hg).1
  have hstuck := Guard.stuck_of_callback (sound_of_run hrun g (List.mem_of_getElem? hg)) hstep hfails
  obtain ⟨g₁, hg₁, hstuck₁⟩ := stuck_of_run (List.getElem?_set_self hi) hstuck hlater
  exact not_joined_of_stuck hg₁ hstuck₁

/-- tun2socks exits, is started again, and the pool is closed while its descriptor is being sent. -/
def closedInCallback : List Event :=
  [.start true, .act 0 (.exits 0), .act 0 (.handOver 0), .act 0 (.resumed true), .close]

/-- The process is killed, and its coroutine still waits. -/
theorem callback_failure_hangs_tun2socks :
    ∃ s t u, Machine.run (step 30) created closedInCallback = some s ∧
      step 30 s (.act 0 (.callback .cancelled)) = some t ∧
        Machine.run (step 30) t [.act 0 (.exits 1), .act 0 .timeout] = some u ∧ ¬ u.joined := by
  refine ⟨_, _, _, rfl, rfl, rfl, ?_⟩
  have hcancelled : Outcome.cancelled ≠ .returned := by decide
  exact callback_failure_hangs 30 closedInCallback (i := 0) rfl rfl hcancelled [.act 0 (.exits 1), .act 0 .timeout] rfl

end Pool
end ProcessPool
end Riddles
