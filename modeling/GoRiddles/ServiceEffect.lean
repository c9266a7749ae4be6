import GoRiddles.Service
/-!
# ServiceEffect — what a step of the service shows

Seen from the app, a step of the service launches a connecting job, announces a connection, or does neither.
-/
namespace Riddles
namespace Service

variable {s t u : Service} {e : Event}

/-- No job is launched and no connection announced; the proxy is kept or given up. -/
structure Quiet (s t : Service) : Prop where
  jobs      : t.jobs.length ≤ s.jobs.length
  announced : ∃ as, t.announced = s.announced ++ as ∧ ∀ a ∈ as, a.state ≠ .connected
  connected : t.state = .connected → s.state = .connected
  proxy     : t.proxy = s.proxy ∨ t.proxy = none

/-- A connecting job is launched for a profile. -/
structure Launched (s t : Service) (profile : Profile) : Prop where
  jobs      : t.jobs.length = s.jobs.length + 1
  announced : t.announced = s.announced
  state     : t.state = s.state
  proxy     : ∃ id, t.proxy = some ⟨id, profile⟩

/-- A connecting job is over and the connection announced. -/
structure Landed (s t : Service) : Prop where
  jobs      : t.jobs.length < s.jobs.length
  announced : ∃ a, t.announced = s.announced ++ [a] ∧ a.state = .connected
  proxy     : t.proxy = s.proxy

/-! ## Quiet pieces -/

theorem Quiet.trans (h : Quiet s t) (h' : Quiet t u) : Quiet s u := by
  refine ⟨h'.jobs.trans h.jobs, ?_, fun hc => h.connected (h'.connected hc), ?_⟩
  · obtain ⟨as, has, hne⟩ := h.announced
    obtain ⟨bs, hbs, hne'⟩ := h'.announced
    refine ⟨as ++ bs, by rw [hbs, has, List.append_assoc], fun a ha => ?_⟩
    rcases List.mem_append.1 ha with ha | ha
    · exact hne a ha
    · exact hne' a ha
  · rcases h'.proxy with hp | hp
    · rw [hp]
      exact h.proxy
    · exact .inr hp

theorem quiet_of_silent (jobs : t.jobs.length ≤ s.jobs.length) (announced : t.announced = s.announced)
    (state : t.state = s.state) (proxy : t.proxy = s.proxy ∨ t.proxy = none) : Quiet s t :=
  ⟨jobs, ⟨[], by rw [announced, List.append_nil], fun _ ha => by cases ha⟩, fun hc => state ▸ hc, proxy⟩

theorem Quiet.rfl : Quiet s s := quiet_of_silent (Nat.le_refl _) (Eq.refl _) (Eq.refl _) (.inl (Eq.refl _))

theorem quiet_changeState (state : State) (msg : Option Text) (hne : state ≠ .connected) :
    Quiet s (s.changeState state msg) := by
  unfold changeState
  split
  · exact .rfl
  · refine ⟨Nat.le_refl _, ⟨_, rfl, fun a ha => ?_⟩, fun hc => absurd hc hne, .inl rfl⟩
    rw [List.mem_singleton.1 ha]
    exact hne

theorem quiet_stopRunner (restart : Bool) (msg : Option Text) : Quiet s (s.stopRunner restart msg) := by
  have hstop : Quiet s (s.changeState .stopping none) := quiet_changeState .stopping none (fun hc => by cases hc)
  unfold stopRunner
  split
  · exact .rfl
  · dsimp only
    generalize s.changeState .stopping none = s' at hstop ⊢
    have hclean : Quiet s' { s'.cleanUp with stops := s'.stops ++ [⟨restart, msg, none⟩] } :=
      quiet_of_silent (Nat.le_refl _) rfl rfl (.inr rfl)
    split
    · exact hstop.trans hclean
    · rename_i j _
      split
      · refine hstop.trans (quiet_of_silent (Nat.le_of_eq ?_) rfl rfl (.inl rfl))
        exact List.length_map _
      · exact hstop.trans hclean

theorem quiet_drop (j : Nat) : Quiet s (s.drop j) :=
  quiet_of_silent (List.length_filter_le _ _) rfl rfl (.inl rfl)

theorem quiet_finallyJob (j : Nat) : Quiet s (s.finallyJob j) :=
  quiet_of_silent (List.length_filter_le _ _) rfl rfl (.inl rfl)

theorem quiet_failJob (j : Nat) (reason : Text) : Quiet s (s.failJob j reason) :=
  (quiet_stopRunner _ _).trans (quiet_finallyJob j)

theorem quiet_setPhase (j : Nat) (phase : Phase) : Quiet s (s.setPhase j phase) :=
  quiet_of_silent (Nat.le_of_eq (List.length_map _)) rfl rfl (.inl rfl)

theorem quiet_buildPool (j : Nat) (outcome : Outcome) : Quiet s (s.buildPool j outcome) := by
  have hpool : Quiet s s.newPool := quiet_of_silent (Nat.le_refl _) rfl rfl (.inl rfl)
  unfold buildPool
  split
  · exact hpool.trans (quiet_failJob j _)
  · split
    · exact hpool.trans (quiet_failJob j _)
    · refine Quiet.trans ?_ (quiet_setPhase j .wiring)
      exact quiet_of_silent (Nat.le_refl _) rfl rfl (.inl rfl)

/-! ## The steps -/

theorem connected_landed {job : Job} (hjob : job ∈ s.jobs) (hstate : s.state ≠ .connected) :
    Landed s ((s.changeState .connected none).finallyJob job.id) := by
  unfold changeState
  rw [if_neg (fun hc => hstate hc.1)]
  refine ⟨?_, ⟨_, rfl, rfl⟩, rfl⟩
  show (s.jobs.filter (fun job' => job'.id ≠ job.id)).length < s.jobs.length
  exact List.length_filter_lt_length_iff_exists.2 ⟨job, hjob, by simp⟩

/-- **A job that runs on** is quiet unless it connects. -/
theorem resume_effect {job : Job} (outcome : Outcome) (hjob : job ∈ s.jobs) :
    Quiet s (s.resume job outcome) ∨ Landed s (s.resume job outcome) := by
  unfold resume
  split
  · left
    split
    · exact quiet_drop job.id
    · exact quiet_finallyJob job.id
  · split
    · exact .inl (quiet_failJob job.id _)
    · exact .inl (quiet_setPhase job.id _)
    · split
      · exact .inl (quiet_setPhase job.id _)
      · exact .inl (quiet_buildPool job.id _)
    · exact .inl (quiet_buildPool job.id _)
    · exact .inl .rfl
    · exact .inl (quiet_failJob job.id _)
    · split
      · exact .inl (quiet_failJob job.id _)
      · by_cases hstate : s.state = .connected
        · left
          unfold changeState
          rw [if_pos ⟨hstate, rfl⟩]
          exact quiet_finallyJob job.id
        · exact .inr (connected_landed hjob hstate)

theorem finish_quiet (stop : Stop) : Quiet s (s.finish stop) := by
  have hstopped : Quiet s (s.changeState .stopped stop.msg) := quiet_changeState .stopped stop.msg (fun hc => by cases hc)
  unfold finish
  dsimp only
  split
  · exact hstopped.trans (quiet_of_silent (Nat.le_refl _) rfl rfl (.inl rfl))
  · exact hstopped

theorem forceLoad_quiet : Quiet s s.forceLoad := by
  unfold forceLoad
  split
  · exact quiet_of_silent (Nat.le_refl _) rfl rfl (.inl rfl)
  · split
    · exact quiet_stopRunner _ _
    · exact .rfl

/-- **A start command** launches a job for the current profile, or is quiet. -/
theorem start_effect {vpnMode prepared : Bool} {profile : Option Profile}
    (hs : s.step (.onStartCommand vpnMode prepared profile) = some t) :
    Quiet s t ∨ ∃ p, profile = some p ∧ Launched s t p := by
  cases hs
  split
  · unfold onStartCommand
    split
    · exact .inl .rfl
    · split
      · left
        refine Quiet.trans ?_ (quiet_stopRunner _ _)
        exact quiet_of_silent (Nat.le_refl _) rfl rfl (.inl rfl)
      · rename_i p
        exact .inr ⟨p, rfl, List.length_append, rfl, rfl, ⟨_, rfl⟩⟩
  · exact .inl (quiet_stopRunner _ _)

/-- **Any other step** is quiet, or a connection. -/
theorem own_effect (he : ∀ vpnMode prepared profile, e ≠ .onStartCommand vpnMode prepared profile)
    (hs : s.step e = some t) : Quiet s t ∨ Landed s t := by
  cases e with
  | onStartCommand vpnMode prepared profile => exact absurd rfl (he vpnMode prepared profile)
  | resume j outcome =>
    obtain ⟨job, hjob, rfl⟩ := Option.map_eq_some_iff.1 hs
    exact resume_effect outcome (List.mem_of_find?_eq_some hjob)
  | stopRunner restart msg =>
    cases hs
    exact .inl (quiet_stopRunner restart msg)
  | forceLoad =>
    cases hs
    exact .inl forceLoad_quiet
  | stopResumed k =>
    left
    simp only [step] at hs
    split at hs
    · cases hs
    · rename_i stop _
      split at hs
      · cases hs
        refine Quiet.trans ?_ (finish_quiet stop)
        exact quiet_of_silent (Nat.le_refl _) rfl rfl (.inl rfl)
      · split at hs
        · cases hs
        · cases hs
          exact quiet_of_silent (Nat.le_refl _) rfl rfl (.inr rfl)

end Service
end Riddles
