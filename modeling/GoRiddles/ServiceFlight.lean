import GoRiddles.Service
/-!
# ServiceFlight — is one connect in flight at a time?

`onStartCommand` returns unless the state is `Stopped`, but no longer leaves that state before it launches the connecting
job: until the job has connected, the next start gets through.  A start that gets through while a job is alive launches a
second one and takes the first one's place in `Data`.  That is the only way: if no start does, there is one job at a time,
`Data` holds every live proxy and process pool, and nothing is open when `Stopped` is announced.
-/
namespace Riddles
namespace Service

variable {s t : Service} {e : Event}

/-- **Nothing live is lost**: a proxy not shut down and a process pool not closed are the ones in `Data`, and none was open
when `Stopped` was announced. -/
structure Held (s : Service) : Prop where
  proxy   : ∀ p, p < s.nextProxy → p ∉ s.shut → s.proxy.map ProxyInstance.id = some p
  pool    : ∀ k, k < s.nextPool → k ∉ s.closed → s.processes = some k
  stopped : ∀ a ∈ s.announced, a.state = .stopped → a.openPools = []

/-- **Single flight**: at most one connecting job is alive, and nothing live is lost. -/
structure SingleFlight (s : Service) : Prop where
  jobs : s.jobs.length ≤ 1
  held : Held s

/-- A start that gets through arrives when no connecting job is alive. -/
def StartsAlone (s : Service) (e : Event) : Prop :=
  ∀ profile, e = .onStartCommand true true (some profile) → s.state = .stopped → s.jobs = []

/-- Where a service can be. -/
inductive Mode (s : Service) : Prop
  | idle (state : s.state = .stopped) (jobs : s.jobs = []) (stops : s.stops = []) (proxy : s.proxy = none)
      (processes : s.processes = none)
  | flying (job : Job) (state : s.state = .stopped) (jobs : s.jobs = [job]) (live : job.cancelled = false)
      (current : s.connectingJob = some job.id) (stops : s.stops = [])
      (processes : job.phase ≠ .wiring → s.processes = none)
  | connected (state : s.state = .connected) (jobs : s.jobs = []) (stops : s.stops = [])
  | joining (stop : Stop) (j : Nat) (state : s.state = .stopping) (stops : s.stops = [stop])
      (waits : stop.waits = some j)
      (jobs : s.jobs = [] ∨ ∃ job, s.jobs = [job] ∧ job.id = j ∧ job.cancelled = true)
  | cleaning (stop : Stop) (state : s.state = .stopping) (stops : s.stops = [stop]) (waits : stop.waits = none)
      (jobs : s.jobs = []) (proxy : s.proxy = none) (processes : s.processes = none)

theorem Mode.congr (h : Mode s) (state : t.state = s.state) (jobs : t.jobs = s.jobs) (stops : t.stops = s.stops)
    (current : t.connectingJob = s.connectingJob) (proxy : t.proxy = s.proxy) (processes : t.processes = s.processes) :
    Mode t := by
  cases h with
  | idle a b c d f =>
    exact .idle (state.trans a) (jobs.trans b) (stops.trans c) (proxy.trans d) (processes.trans f)
  | flying job a b c d f g =>
    exact .flying job (state.trans a) (jobs.trans b) c (current.trans d) (stops.trans f)
      (fun hp => processes.trans (g hp))
  | connected a b c => exact .connected (state.trans a) (jobs.trans b) (stops.trans c)
  | joining stop j a b c d => exact .joining stop j (state.trans a) (stops.trans b) c (jobs ▸ d)
  | cleaning stop a b c d f g =>
    exact .cleaning stop (state.trans a) (stops.trans b) c (jobs.trans d) (proxy.trans f) (processes.trans g)

/-! ## What the pieces keep -/

theorem held_changeState (state : State) (msg : Option Text) (h : Held s)
    (hstop : state = .stopped → s.openPools = []) : Held (s.changeState state msg) := by
  unfold changeState
  split
  · exact h
  · refine ⟨h.proxy, h.pool, fun a ha hs => ?_⟩
    rcases List.mem_append.1 ha with ha | ha
    · exact h.stopped a ha hs
    · rw [List.mem_singleton.1 ha] at hs ⊢
      exact hstop hs

theorem held_cleanUp (h : Held s) : Held s.cleanUp := by
  refine ⟨fun p hp hshut => ?_, fun k hk hclosed => ?_, h.stopped⟩
  · have hshut' : p ∉ s.shut ++ s.proxy.toList.map ProxyInstance.id := hshut
    rw [List.mem_append, not_or] at hshut'
    obtain ⟨q, hq, rfl⟩ := Option.map_eq_some_iff.1 (h.proxy p hp hshut'.1)
    rw [hq] at hshut'
    exact absurd (List.mem_singleton.2 rfl) hshut'.2
  · have hclosed' : k ∉ s.closed ++ s.processes.toList := hclosed
    rw [List.mem_append, not_or] at hclosed'
    have hk' := h.pool k hk hclosed'.1
    rw [hk'] at hclosed'
    exact absurd (List.mem_singleton.2 rfl) hclosed'.2

theorem openPools_eq_nil (h : Held s) (hnone : s.processes = none) : s.openPools = [] := by
  unfold openPools
  refine List.filter_eq_nil_iff.2 (fun k hk hopen => ?_)
  have hnot : k ∉ s.closed := fun hmem => by
    rw [List.contains_iff_mem.2 hmem] at hopen
    cases hopen
  have hsome := h.pool k (List.mem_range.1 hk) hnot
  rw [hnone] at hsome
  cases hsome

theorem changeState_fields (state : State) (msg : Option Text) :
    (s.changeState state msg).state = state ∧ (s.changeState state msg).jobs = s.jobs ∧
      (s.changeState state msg).stops = s.stops ∧ (s.changeState state msg).connectingJob = s.connectingJob ∧
      (s.changeState state msg).proxy = s.proxy ∧ (s.changeState state msg).processes = s.processes := by
  unfold changeState
  split
  · rename_i h
    exact ⟨h.1, rfl, rfl, rfl, rfl, rfl⟩
  · exact ⟨rfl, rfl, rfl, rfl, rfl, rfl⟩

/-- **A stop of a service with no other stop**: it joins the job if there is one, and cleans up if not. -/
theorem stopRunner_spec (restart : Bool) (msg : Option Text) (h : Held s) (hstate : s.state ≠ .stopping)
    (hstops : s.stops = []) (hjobs : s.jobs = [] ∨ ∃ job, s.jobs = [job] ∧ s.connectingJob = some job.id) :
    Held (s.stopRunner restart msg) ∧ Mode (s.stopRunner restart msg) ∧
      (s.stopRunner restart msg).state = .stopping := by
  have hheld := held_changeState .stopping none h (fun hs => by cases hs)
  obtain ⟨hst, hjb, hsp, hcj, -, -⟩ := changeState_fields (s := s) .stopping none
  unfold stopRunner
  rw [if_neg hstate]
  simp only
  generalize s.changeState .stopping none = s' at hheld hst hjb hsp hcj ⊢
  rw [hsp, hstops, List.nil_append]
  have hclean : s'.jobs = [] → Held { s'.cleanUp with stops := [⟨restart, msg, none⟩] } ∧
      Mode { s'.cleanUp with stops := [⟨restart, msg, none⟩] } := by
    intro hnil
    have hc := held_cleanUp hheld
    exact ⟨⟨hc.proxy, hc.pool, hc.stopped⟩, .cleaning _ hst rfl rfl hnil rfl rfl⟩
  rcases hjobs with hnil | ⟨job, hone, hcur⟩
  · have hnil' := hjb.trans hnil
    split
    · exact ⟨(hclean hnil').1, (hclean hnil').2, hst⟩
    · rename_i j _
      have hdead : s'.alive j = false := by
        unfold alive
        rw [hnil']
        rfl
      rw [hdead]
      exact ⟨(hclean hnil').1, (hclean hnil').2, hst⟩
  · have hone' := hjb.trans hone
    rw [hcj, hcur]
    have halive : s'.alive job.id = true := by
      unfold alive
      rw [hone', List.any_cons, beq_self_eq_true, Bool.true_or]
    simp only [halive, if_true]
    refine ⟨⟨hheld.proxy, hheld.pool, hheld.stopped⟩, ?_, hst⟩
    refine .joining _ job.id hst rfl rfl (.inr ⟨{ job with cancelled := true }, ?_, rfl, rfl⟩)
    show s'.jobs.map _ = _
    rw [hone', List.map_singleton, if_pos rfl]

/-- The end of a job leaves a stop that waits for it. -/
theorem mode_finallyJob {j : Nat} (h : Mode s) (hstate : s.state = .stopping)
    (hjobs : ∀ job ∈ s.jobs, job.id = j) : Mode (s.finallyJob j) := by
  have hnil : (s.finallyJob j).jobs = [] := by
    show s.jobs.filter _ = []
    refine List.filter_eq_nil_iff.2 (fun job hjob => ?_)
    simp [hjobs job hjob]
  cases h with
  | idle state | flying _ state | connected state =>
    rw [state] at hstate
    cases hstate
  | joining stop k state stops waits => exact .joining stop k state stops waits (.inl hnil)
  | cleaning stop state stops waits _ proxy processes => exact .cleaning stop state stops waits hnil proxy processes

theorem held_finallyJob {j : Nat} (h : Held s) : Held (s.finallyJob j) := ⟨h.proxy, h.pool, h.stopped⟩

theorem jobs_stopRunner (restart : Bool) (msg : Option Text) :
    ∀ job ∈ (s.stopRunner restart msg).jobs, ∃ job' ∈ s.jobs, job'.id = job.id := by
  have hjb := (changeState_fields (s := s) .stopping none).2.1
  intro job hjob
  unfold stopRunner at hjob
  split at hjob
  · exact ⟨job, hjob, rfl⟩
  · simp only at hjob
    have hplain : job ∈ (s.changeState .stopping none).jobs → ∃ job' ∈ s.jobs, job'.id = job.id := by
      intro h
      rw [hjb] at h
      exact ⟨job, h, rfl⟩
    split at hjob
    · exact hplain hjob
    · split at hjob
      · rename_i j _ _
        have hmap : job ∈ (s.changeState .stopping none).jobs.map
            (fun job => if job.id = j then { job with cancelled := true } else job) := hjob
        rw [hjb] at hmap
        obtain ⟨job', hjob', rfl⟩ := List.mem_map.1 hmap
        refine ⟨job', hjob', ?_⟩
        split <;> rfl
      · exact hplain hjob

/-- **A job that fails** stops the service and is gone. -/
theorem failJob_spec {job : Job} (reason : Text) (h : Held s) (hstate : s.state ≠ .stopping) (hstops : s.stops = [])
    (hjobs : s.jobs = [job]) (hcur : s.connectingJob = some job.id) :
    Held (s.failJob job.id reason) ∧ Mode (s.failJob job.id reason) := by
  obtain ⟨hheld, hmode, hst⟩ := stopRunner_spec false
    (some ("Failed to connect the remote server: ".toList ++ reason)) h hstate hstops (.inr ⟨job, hjobs, hcur⟩)
  refine ⟨held_finallyJob hheld, mode_finallyJob hmode hst (fun job' hjob' => ?_)⟩
  obtain ⟨job₀, hjob₀, hid⟩ := jobs_stopRunner _ _ job' hjob'
  rw [hjobs, List.mem_singleton] at hjob₀
  rw [← hid, hjob₀]

theorem held_newPool (h : Held s) (hnone : s.processes = none) : Held s.newPool := by
  refine ⟨h.proxy, fun k hk hopen => ?_, h.stopped⟩
  have hk' : k < s.nextPool + 1 := hk
  rcases Nat.lt_succ_iff_lt_or_eq.1 hk' with hlt | rfl
  · have hsome := h.pool k hlt hopen
    rw [hnone] at hsome
    cases hsome
  · rfl

theorem setPhase_single {job : Job} (phase : Phase) (hjobs : s.jobs = [job]) :
    (s.setPhase job.id phase).jobs = [{ job with phase := phase }] := by
  show s.jobs.map _ = _
  rw [hjobs, List.map_singleton, if_pos rfl]

theorem buildPool_spec {job : Job} (outcome : Outcome) (h : Held s) (hstate : s.state = .stopped) (hstops : s.stops = [])
    (hjobs : s.jobs = [job]) (hlive : job.cancelled = false) (hcur : s.connectingJob = some job.id)
    (hnone : s.processes = none) : Held (s.buildPool job.id outcome) ∧ Mode (s.buildPool job.id outcome) := by
  have hpool := held_newPool h hnone
  have hne : s.newPool.state ≠ .stopping := by
    show s.state ≠ .stopping
    rw [hstate]
    exact fun h => by cases h
  have hfail : ∀ reason, Held (s.newPool.failJob job.id reason) ∧ Mode (s.newPool.failJob job.id reason) :=
    fun reason => failJob_spec reason hpool hne hstops hjobs hcur
  have hwire : Held ({ s.newPool with localDns := true }.setPhase job.id .wiring) ∧
      Mode ({ s.newPool with localDns := true }.setPhase job.id .wiring) := by
    refine ⟨⟨hpool.proxy, hpool.pool, hpool.stopped⟩, ?_⟩
    refine .flying { job with phase := .wiring } hstate (setPhase_single .wiring hjobs) hlive hcur hstops (fun hp => ?_)
    exact absurd rfl hp
  unfold buildPool
  split
  · exact hfail _
  · split
    · exact hfail _
    · exact hwire

/-! ## One step -/

theorem flight_stopRunner (restart : Bool) (msg : Option Text) (h : Held s) (hm : Mode s) :
    Held (s.stopRunner restart msg) ∧ Mode (s.stopRunner restart msg) := by
  have hspec : s.state ≠ .stopping → s.stops = [] →
      (s.jobs = [] ∨ ∃ job, s.jobs = [job] ∧ s.connectingJob = some job.id) →
      Held (s.stopRunner restart msg) ∧ Mode (s.stopRunner restart msg) := by
    intro h₁ h₂ h₃
    obtain ⟨hh, hmode, -⟩ := stopRunner_spec restart msg h h₁ h₂ h₃
    exact ⟨hh, hmode⟩
  have hsame : s.state = .stopping → Held (s.stopRunner restart msg) ∧ Mode (s.stopRunner restart msg) := by
    intro hst
    unfold stopRunner
    rw [if_pos hst]
    exact ⟨h, hm⟩
  cases hm with
  | idle state jobs stops => exact hspec (by rw [state]; exact fun h => by cases h) stops (.inl jobs)
  | flying job state jobs _ current stops =>
    exact hspec (by rw [state]; exact fun h => by cases h) stops (.inr ⟨job, jobs, current⟩)
  | connected state jobs stops => exact hspec (by rw [state]; exact fun h => by cases h) stops (.inl jobs)
  | joining _ _ state => exact hsame state
  | cleaning _ state => exact hsame state

theorem flight_onStartCommand (profile : Option Profile) (h : Held s) (hm : Mode s)
    (halone : profile.isSome → s.state = .stopped → s.jobs = []) :
    Held (s.onStartCommand profile) ∧ Mode (s.onStartCommand profile) := by
  unfold onStartCommand
  split
  · exact ⟨h, hm⟩
  · rename_i hstate
    have hstate' : s.state = .stopped := not_not.1 hstate
    split
    · -- the notification is set before the stop and read by none of its parts
      have hm' : Mode { s with notification := some [] } := hm.congr rfl rfl rfl rfl rfl rfl
      exact flight_stopRunner _ _ ⟨h.proxy, h.pool, h.stopped⟩ hm'
    · rename_i profile
      have hnil := halone rfl hstate'
      cases hm with
      | flying job _ jobs =>
        rw [hnil] at jobs
        cases jobs
      | connected state | joining _ _ state | cleaning _ state =>
        rw [state] at hstate'
        cases hstate'
      | idle state jobs stops proxy processes =>
        refine ⟨⟨fun p hp hshut => ?_, h.pool, h.stopped⟩, ?_⟩
        · have hp' : p < s.nextProxy + 1 := hp
          rcases Nat.lt_succ_iff_lt_or_eq.1 hp' with hlt | rfl
          · have hsome := h.proxy p hlt hshut
            rw [proxy] at hsome
            cases hsome
          · rfl
        · refine .flying ⟨s.nextJob, profile, .queued, false⟩ state ?_ rfl rfl stops (fun _ => processes)
          show s.jobs ++ _ = _
          rw [jobs, List.nil_append]

theorem flight_resume {job : Job} (outcome : Outcome) (h : Held s) (hm : Mode s) (hjob : job ∈ s.jobs) :
    Held (s.resume job outcome) ∧ Mode (s.resume job outcome) := by
  cases hm with
  | idle _ jobs | connected _ jobs | cleaning _ _ _ _ jobs =>
    rw [jobs] at hjob
    cases hjob
  | joining stop j state stops waits jobs =>
    rcases jobs with jobs | ⟨job₀, jobs, hid, hcancelled⟩
    · rw [jobs] at hjob
      cases hjob
    · rw [jobs, List.mem_singleton] at hjob
      subst hjob
      have hm : Mode s := .joining stop j state stops waits (.inr ⟨job, jobs, hid, hcancelled⟩)
      have hall : ∀ job' ∈ s.jobs, job'.id = job.id := fun job' hjob' => by
        rw [jobs, List.mem_singleton] at hjob'
        rw [hjob']
      unfold resume
      rw [hcancelled, if_pos rfl]
      split
      · refine ⟨⟨h.proxy, h.pool, h.stopped⟩, .joining stop j state stops waits (.inl ?_)⟩
        exact List.filter_eq_nil_iff.2 (fun job' hjob' => by simp [hall job' hjob'])
      · exact ⟨held_finallyJob h, mode_finallyJob hm state hall⟩
  | flying job₀ state jobs live current stops processes =>
    rw [jobs, List.mem_singleton] at hjob
    subst hjob
    have hne : s.state ≠ .stopping := by
      rw [state]
      exact fun h => by cases h
    have hfail : ∀ reason, Held (s.failJob job.id reason) ∧ Mode (s.failJob job.id reason) :=
      fun reason => failJob_spec reason h hne stops jobs current
    have hphase : ∀ phase, (phase ≠ .wiring → s.processes = none) →
        Held (s.setPhase job.id phase) ∧ Mode (s.setPhase job.id phase) := by
      intro phase hp
      exact ⟨⟨h.proxy, h.pool, h.stopped⟩,
        .flying { job with phase := phase } state (setPhase_single phase jobs) live current stops hp⟩
    unfold resume
    rw [live, if_neg Bool.false_ne_true]
    split
    · exact hfail _
    · rename_i hq
      exact hphase _ (fun _ => processes (by rw [hq]; exact fun h => by cases h))
    · rename_i hq
      have hnone := processes (by rw [hq]; exact fun h => by cases h)
      split
      · exact hphase _ (fun _ => hnone)
      · exact buildPool_spec _ h state stops jobs live current hnone
    · rename_i hq
      exact buildPool_spec _ h state stops jobs live current (processes (by rw [hq]; exact fun h => by cases h))
    · exact ⟨h, .flying job state jobs live current stops processes⟩
    · exact hfail _
    · split
      · exact hfail _
      · have hheld := held_changeState .connected none h (fun hs => by cases hs)
        obtain ⟨hst, hjb, hsp, -, -, -⟩ := changeState_fields (s := s) .connected none
        refine ⟨held_finallyJob hheld, .connected hst ?_ (hsp.trans stops)⟩
        show List.filter _ (s.changeState .connected none).jobs = []
        rw [hjb, jobs]
        exact List.filter_eq_nil_iff.2 (fun job' hjob' => by simp [List.mem_singleton.1 hjob'])

theorem flight_stopResumed {k : Nat} (h : Held s) (hm : Mode s) (hs : s.step (.stopResumed k) = some t) :
    Held t ∧ Mode t := by
  simp only [step] at hs
  split at hs
  · cases hs
  · rename_i stop hstop
    cases hm with
    | idle _ _ stops | flying _ _ _ _ _ stops | connected _ _ stops =>
      rw [stops] at hstop
      cases hstop
    | joining stop₀ j state stops waits jobs =>
      rw [stops] at hstop
      cases k with
      | succ k => cases hstop
      | zero =>
        cases hstop
        rw [waits] at hs
        simp only at hs
        split at hs
        · cases hs
        · rename_i hdead
          cases hs
          have hnil : s.jobs = [] := by
            rcases jobs with jobs | ⟨job, jobs, hid, -⟩
            · exact jobs
            · refine absurd ?_ hdead
              unfold alive
              rw [jobs, List.any_cons, hid, beq_self_eq_true, Bool.true_or]
          have hc := held_cleanUp h
          refine ⟨⟨hc.proxy, hc.pool, hc.stopped⟩, .cleaning { stop with waits := none } state ?_ rfl hnil rfl rfl⟩
          show s.stops.set 0 _ = _
          rw [stops]
          rfl
    | cleaning stop₀ state stops waits jobs proxy processes =>
      rw [stops] at hstop
      cases k with
      | succ k => cases hstop
      | zero =>
        cases hstop
        rw [waits] at hs
        simp only at hs
        cases hs
        have hempty := openPools_eq_nil h processes
        have hheld : Held ({ s with stops := s.stops.eraseIdx 0 }.changeState .stopped stop.msg) :=
          held_changeState (s := { s with stops := s.stops.eraseIdx 0 }) _ _ ⟨h.proxy, h.pool, h.stopped⟩ (fun _ => hempty)
        obtain ⟨hst, hjb, hsp, -, hpr, hps⟩ :=
          changeState_fields (s := { s with stops := s.stops.eraseIdx 0 }) .stopped stop.msg
        have hsp' : ({ s with stops := s.stops.eraseIdx 0 }.changeState .stopped stop.msg).stops = [] := by
          rw [hsp]
          show s.stops.eraseIdx 0 = []
          rw [stops]
          rfl
        unfold finish
        simp only
        split
        · exact ⟨⟨hheld.proxy, hheld.pool, hheld.stopped⟩,
            .idle hst (hjb.trans jobs) hsp' (hpr.trans proxy) (hps.trans processes)⟩
        · exact ⟨hheld, .idle hst (hjb.trans jobs) hsp' (hpr.trans proxy) (hps.trans processes)⟩

/-- **A step keeps the flight single**, if a start that gets through finds no job alive. -/
theorem flight_step (s : Service) (e : Event) (t : Service) (h : Held s ∧ Mode s) (halone : StartsAlone s e)
    (hs : step s e = some t) : Held t ∧ Mode t := by
  obtain ⟨hheld, hmode⟩ := h
  cases e with
  | onStartCommand vpnMode prepared profile =>
    cases hs
    by_cases hgo : (vpnMode && prepared) = true
    · rw [if_pos hgo]
      obtain ⟨rfl, rfl⟩ := Bool.and_eq_true_iff.1 hgo
      refine flight_onStartCommand profile hheld hmode (fun hsome hstate => ?_)
      obtain ⟨p, rfl⟩ := Option.isSome_iff_exists.1 hsome
      exact halone p rfl hstate
    · rw [if_neg hgo]
      exact flight_stopRunner _ _ hheld hmode
  | resume j outcome =>
    obtain ⟨job, hjob, rfl⟩ := Option.map_eq_some_iff.1 hs
    exact flight_resume outcome hheld hmode (List.mem_of_find?_eq_some hjob)
  | stopRunner restart msg =>
    cases hs
    exact flight_stopRunner restart msg hheld hmode
  | forceLoad =>
    cases hs
    unfold forceLoad
    split
    · exact ⟨⟨hheld.proxy, hheld.pool, hheld.stopped⟩, hmode.congr rfl rfl rfl rfl rfl rfl⟩
    · split
      · exact flight_stopRunner _ _ hheld hmode
      · exact ⟨hheld, hmode⟩
  | stopResumed k => exact flight_stopResumed hheld hmode hs

theorem singleFlight_of_mode (h : Held s) (hm : Mode s) : SingleFlight s := by
  refine ⟨?_, h⟩
  cases hm with
  | idle _ jobs | connected _ jobs | cleaning _ _ _ _ jobs =>
    rw [jobs]
    exact Nat.zero_le 1
  | flying _ _ jobs =>
    rw [jobs]
    exact Nat.le_refl 1
  | joining _ _ _ _ _ jobs =>
    rcases jobs with jobs | ⟨job, jobs, -, -⟩ <;> rw [jobs]
    · exact Nat.zero_le 1
    · exact Nat.le_refl 1

theorem held_created : Held created :=
  ⟨fun p hp => absurd hp (Nat.not_lt_zero p), fun k hk => absurd hk (Nat.not_lt_zero k), fun _ ha => by cases ha⟩

/-- **When the service is single-flight.**  In a run of starts, stops and reloads with any outcomes of the connecting
jobs, there is one connecting job at a time, no live proxy or process pool is lost from `Data` and no pool is open when
`Stopped` is announced, if and only if every start that gets through arrives when no connecting job is alive. -/
theorem single_flight_iff (es : List Event) :
    Machine.always step SingleFlight created es ↔ Machine.along step (fun s e _ => StartsAlone s e) created es := by
  constructor
  · refine Machine.along_of_always (fun s e t _ ht hstep => ?_) es created
    rintro profile rfl hstate
    cases hstep
    have hjobs : (s.onStartCommand (some profile)).jobs.length ≤ 1 := ht.jobs
    rw [onStartCommand, if_neg (not_not.2 hstate)] at hjobs
    simp only [List.length_append, List.length_singleton] at hjobs
    exact List.length_eq_zero_iff.1 (by omega)
  · intro h
    have hinv := Machine.always_of_along flight_step es created ⟨held_created, .idle rfl rfl rfl rfl rfl⟩ h
    exact Machine.always_mono (fun _ hs => singleFlight_of_mode hs.1 hs.2) es created hinv

/-- A profile to start with. -/
def someProfile : Profile := { id := 1, name := some "A".toList, host := "10.0.0.1".toList, remotePort := 443 }

/-- **Two starts, one after the other**: the second gets through while the first connects.  Both jobs are alive and the
first proxy is lost; both make a process pool, the first is lost, and it is open when `Stopped` is announced. -/
theorem two_starts_in_flight :
    (Machine.run step created [.onStartCommand true true (some someProfile),
      .onStartCommand true true (some someProfile)]).map
        (fun s => (s.jobs.length, s.proxy.map ProxyInstance.id, s.shut)) = some (2, some 1, []) ∧
    (Machine.run step created [.onStartCommand true true (some someProfile),
      .onStartCommand true true (some someProfile), .resume 0 .ok, .resume 1 .ok, .resume 0 .ok, .resume 1 .ok,
      .resume 0 .ok, .resume 1 .ok, .stopRunner false none, .stopResumed 0]).map
        (fun s => (s.state, s.announced.getLast?.map (fun a => (a.state, a.openPools)))) =
      some (.stopped, some (.stopped, [0])) := by
  constructor
  · decide
  · decide

end Service
end Riddles
