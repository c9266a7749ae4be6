import Mathlib.Data.List.Basic
/-!
# Machine — runs of a guarded step function

A component is given by its step function `σ → ε → Option σ`: what an event does in a state, `none` when the state does
not allow it.  `run` folds a list of events, `always` reads a predicate at every state a list of events goes through,
and `along` reads a relation at every step it takes.  Every result about whole runs is one of the induction rules below,
fed with a fact about one step.  Nothing here names a component.
-/
namespace Riddles
namespace Machine

variable {σ ε : Type}

/-- The state a list of events leads to, `none` from the first event that is not allowed. -/
def run (step : σ → ε → Option σ) : σ → List ε → Option σ
  | s, []      => some s
  | s, e :: es => (step s e).bind (fun t => run step t es)

/-- A step taken. -/
structure Taken (σ ε : Type) where
  before : σ
  event  : ε
  after  : σ

/-- The steps a list of events takes, up to the first event that is not allowed. -/
def trail (step : σ → ε → Option σ) : σ → List ε → List (Taken σ ε)
  | _, []      => []
  | s, e :: es =>
    match step s e with
    | none   => []
    | some t => ⟨s, e, t⟩ :: trail step t es

/-- `P` holds in every state the events go through, the first and the last included. -/
def always (step : σ → ε → Option σ) (P : σ → Prop) : σ → List ε → Prop
  | s, []      => P s
  | s, e :: es => P s ∧ ∀ t, step s e = some t → always step P t es

/-- `Q` holds of every step the events take: the state before, the event, the state after. -/
def along (step : σ → ε → Option σ) (Q : σ → ε → σ → Prop) : σ → List ε → Prop
  | _, []      => True
  | s, e :: es => ∀ t, step s e = some t → Q s e t ∧ along step Q t es

instance decidableAlong (step : σ → ε → Option σ) (Q : σ → ε → σ → Prop) [∀ s e t, Decidable (Q s e t)] :
    ∀ (s : σ) (es : List ε), Decidable (along step Q s es)
  | _, []      => isTrue trivial
  | s, e :: es =>
    match h : step s e with
    | none   => isTrue (fun t ht => by rw [h] at ht; cases ht)
    | some t =>
      have := decidableAlong step Q t es
      decidable_of_iff (Q s e t ∧ along step Q t es)
        ⟨fun hq u hu => by rw [h] at hu; cases hu; exact hq, fun hq => hq t h⟩

variable {step : σ → ε → Option σ} {s t : σ} {e : ε} {es : List ε}

@[simp] theorem run_nil : run step s [] = some s := rfl

theorem run_cons_eq_some :
    run step s (e :: es) = some t ↔ ∃ u, step s e = some u ∧ run step u es = some t := by
  rw [run, Option.bind_eq_some_iff]

theorem run_snoc_eq_some : run step s (es ++ [e]) = some t ↔ ∃ u, run step s es = some u ∧ step u e = some t := by
  induction es generalizing s with
  | nil => simp [run]
  | cons x es ih =>
    rw [List.cons_append, run_cons_eq_some]
    constructor
    · rintro ⟨v, hv, hrun⟩
      obtain ⟨u, hu, ht⟩ := ih.1 hrun
      exact ⟨u, run_cons_eq_some.2 ⟨v, hv, hu⟩, ht⟩
    · rintro ⟨u, hu, ht⟩
      obtain ⟨v, hv, hrun⟩ := run_cons_eq_some.1 hu
      exact ⟨v, hv, ih.2 ⟨u, hrun, ht⟩⟩

theorem always_of_inv {I : σ → Prop} (hstep : ∀ s e t, I s → step s e = some t → I t) :
    ∀ (es : List ε) (s : σ), I s → always step I s es
  | [], _, hs => hs
  | e :: es, s, hs => ⟨hs, fun u hu => always_of_inv hstep es u (hstep s e u hs hu)⟩

theorem along_of_inv {I : σ → Prop} {Q : σ → ε → σ → Prop} (hstep : ∀ s e t, I s → step s e = some t → I t)
    (hQ : ∀ s e t, I s → step s e = some t → Q s e t) :
    ∀ (es : List ε) (s : σ), I s → along step Q s es
  | [], _, _ => trivial
  | e :: es, s, hs => fun u hu => ⟨hQ s e u hs hu, along_of_inv hstep hQ es u (hstep s e u hs hu)⟩

/-- **Induction along a restricted run**: an invariant kept by every step that meets `Q` holds throughout a run whose
steps all meet it. -/
theorem always_of_along {I : σ → Prop} {Q : σ → ε → σ → Prop}
    (hstep : ∀ s e t, I s → Q s e t → step s e = some t → I t) :
    ∀ (es : List ε) (s : σ), I s → along step Q s es → always step I s es
  | [], _, hs, _ => hs
  | e :: es, s, hs, h => by
    refine ⟨hs, fun u hu => ?_⟩
    obtain ⟨hq, hrest⟩ := h u hu
    exact always_of_along hstep es u (hstep s e u hs hq hu) hrest

/-- **Induction along restricted events**: an invariant kept by every step of an allowed event holds throughout a run of
allowed events. -/
theorem always_of_events {I : σ → Prop} {Q : ε → Prop} (hstep : ∀ s e t, I s → Q e → step s e = some t → I t) :
    ∀ (es : List ε) (s : σ), I s → (∀ e ∈ es, Q e) → always step I s es
  | [], _, hs, _ => hs
  | e :: es, s, hs, h => by
    refine ⟨hs, fun u hu => ?_⟩
    have hu' := hstep s e u hs (h e List.mem_cons_self) hu
    exact always_of_events hstep es u hu' (fun x hx => h x (List.mem_cons_of_mem e hx))

theorem always_mono {P P' : σ → Prop} (h : ∀ s, P s → P' s) :
    ∀ (es : List ε) (s : σ), always step P s es → always step P' s es
  | [], s, hs => h s hs
  | _ :: es, s, hs => ⟨h s hs.1, fun u hu => always_mono h es u (hs.2 u hu)⟩

theorem always_and {P P' : σ → Prop} :
    ∀ (es : List ε) (s : σ), always step P s es → always step P' s es → always step (fun s => P s ∧ P' s) s es
  | [], _, h, h' => ⟨h, h'⟩
  | _ :: es, _, h, h' => ⟨⟨h.1, h'.1⟩, fun u hu => always_and es u (h.2 u hu) (h'.2 u hu)⟩

theorem always_head {P : σ → Prop} : ∀ (es : List ε) (s : σ), always step P s es → P s
  | [], _, h => h
  | _ :: _, _, h => h.1

theorem always_last {P : σ → Prop} : ∀ (es : List ε) (s : σ), always step P s es → run step s es = some t → P t
  | [], s, h, hr => by
    rw [run_nil, Option.some.injEq] at hr
    exact hr ▸ h
  | e :: es, s, h, hr => by
    obtain ⟨u, hu, hr⟩ := run_cons_eq_some.1 hr
    exact always_last es u (h.2 u hu) hr

/-- **Where an invariant fails, a step broke it**: if every step out of a good state is either one that meets `Q` or
leads to a bad state, a run that stays good meets `Q` at every step. -/
theorem along_of_always {P : σ → Prop} {Q : σ → ε → σ → Prop}
    (hstep : ∀ s e t, P s → P t → step s e = some t → Q s e t) :
    ∀ (es : List ε) (s : σ), always step P s es → along step Q s es
  | [], _, _ => trivial
  | e :: es, s, h => by
    intro u hu
    have hu' := h.2 u hu
    exact ⟨hstep s e u h.1 (always_head es u hu') hu, along_of_always hstep es u hu'⟩

/-- **One restriction from another**: steps that meet `Q` from states of an invariant they keep meet `Q'` too. -/
theorem along_of_along {I : σ → Prop} {Q Q' : σ → ε → σ → Prop}
    (hstep : ∀ s e t, I s → Q s e t → step s e = some t → I t ∧ Q' s e t) :
    ∀ (es : List ε) (s : σ), I s → along step Q s es → along step Q' s es
  | [], _, _, _ => trivial
  | e :: es, s, hs, h => by
    intro u hu
    obtain ⟨hq, hrest⟩ := h u hu
    obtain ⟨hi, hq'⟩ := hstep s e u hs hq hu
    exact ⟨hq', along_of_along hstep es u hi hrest⟩

/-- **A property and its exact condition**: where each step of an invariant's states keeps `P` just when it meets `Q`, a run
has `P` throughout just when all of its steps meet `Q`. -/
theorem always_iff_along {I P : σ → Prop} {Q : σ → ε → σ → Prop} (hkeep : ∀ s e t, I s → step s e = some t → I t)
    (hstep : ∀ s e t, I s → P s → step s e = some t → (P t ↔ Q s e t)) (es : List ε) (s : σ) (hI : I s) (hP : P s) :
    always step P s es ↔ along step Q s es := by
  constructor
  · intro h
    have hboth := always_and es s (always_of_inv hkeep es s hI) h
    exact along_of_always (fun s e t hs ht hst => (hstep s e t hs.1 hs.2 hst).1 ht.2) es s hboth
  · intro h
    have hboth : always step (fun s => I s ∧ P s) s es := by
      refine always_of_along (fun s e t hs hq hst => ?_) es s ⟨hI, hP⟩ h
      exact ⟨hkeep s e t hs.1 hst, (hstep s e t hs.1 hs.2 hst).2 hq⟩
    exact always_mono (fun _ hs => hs.2) es s hboth

theorem along_iff_along {I : σ → Prop} {Q Q' : σ → ε → σ → Prop} (hkeep : ∀ s e t, I s → step s e = some t → I t)
    (hstep : ∀ s e t, I s → step s e = some t → (Q s e t ↔ Q' s e t)) (es : List ε) (s : σ) (hI : I s) :
    along step Q s es ↔ along step Q' s es := by
  constructor
  · exact along_of_along (fun s e t hs hq hst => ⟨hkeep s e t hs hst, (hstep s e t hs hst).1 hq⟩) es s hI
  · exact along_of_along (fun s e t hs hq hst => ⟨hkeep s e t hs hst, (hstep s e t hs hst).2 hq⟩) es s hI

/-! ## What happened before -/

/-- Among the events an event of `P` happened, and none of `Q` since. -/
def since (P Q : ε → Prop) (es : List ε) : Prop :=
  ∃ before e after, es = before ++ e :: after ∧ P e ∧ ∀ x ∈ after, ¬ Q x

theorem not_since_nil {P Q : ε → Prop} : ¬ since P Q [] := by
  rintro ⟨before, e, after, h, -⟩
  simp at h

/-- **One more event**: it is of `P` itself, or it is not of `Q` and leaves things as they were. -/
theorem since_snoc {P Q : ε → Prop} : since P Q (es ++ [e]) ↔ P e ∨ ¬ Q e ∧ since P Q es := by
  constructor
  · rintro ⟨before, x, after, h, hx, hafter⟩
    rcases List.eq_nil_or_concat after with rfl | ⟨after', y, rfl⟩
    · obtain ⟨-, hlast⟩ := List.append_inj' h rfl
      rw [List.cons.injEq] at hlast
      rw [hlast.1]
      exact Or.inl hx
    · rw [List.concat_eq_append] at h hafter
      rw [← List.cons_append, ← List.append_assoc] at h
      obtain ⟨hes, hlast⟩ := List.append_inj' h rfl
      rw [List.cons.injEq] at hlast
      rw [hlast.1]
      refine Or.inr ⟨hafter y (by simp), before, x, after', hes, hx, fun z hz => hafter z (by simp [hz])⟩
  · rintro (he | ⟨hne, before, x, after, rfl, hx, hafter⟩)
    · exact ⟨es, e, [], rfl, he, by simp⟩
    · refine ⟨before, x, after ++ [e], by simp, hx, fun z hz => ?_⟩
      rcases List.mem_append.1 hz with hz | hz
      · exact hafter z hz
      · rw [List.mem_singleton] at hz
        rw [hz]
        exact hne

/-- **Induction over a run and its past.** -/
theorem run_of_past {I : List ε → σ → Prop} (hstep : ∀ past s e t, I past s → step s e = some t → I (past ++ [e]) t) :
    ∀ (es past : List ε) (s : σ), I past s → run step s es = some t → I (past ++ es) t
  | [], past, s, hs, hr => by
    rw [run_nil, Option.some.injEq] at hr
    rw [List.append_nil, ← hr]
    exact hs
  | e :: es, past, s, hs, hr => by
    obtain ⟨u, hu, hr⟩ := run_cons_eq_some.1 hr
    have hrest := run_of_past hstep es (past ++ [e]) u (hstep past s e u hs hu) hr
    rw [List.append_assoc] at hrest
    exact hrest

/-- **Induction over a run and the steps it has taken.** -/
theorem run_of_trail {I : List (Taken σ ε) → σ → Prop}
    (hstep : ∀ past s e t, I past s → step s e = some t → I (past ++ [⟨s, e, t⟩]) t) :
    ∀ (es : List ε) (past : List (Taken σ ε)) (s : σ), I past s → run step s es = some t → I (past ++ trail step s es) t
  | [], past, s, hs, hr => by
    rw [run_nil, Option.some.injEq] at hr
    rw [trail, List.append_nil, ← hr]
    exact hs
  | e :: es, past, s, hs, hr => by
    obtain ⟨u, hu, hr⟩ := run_cons_eq_some.1 hr
    have hrest := run_of_trail hstep es (past ++ [⟨s, e, u⟩]) u (hstep past s e u hs hu) hr
    rw [List.append_assoc] at hrest
    rw [trail, hu]
    exact hrest

/-- **A rank that the moves use up**: if each move lowers the rank of the state and no other event raises it, the moves of a
run are at most the rank it started with. -/
theorem run_of_rank {I : List ε → σ → Nat → Prop} {moves : ε → Bool}
    (hmove : ∀ past s e t k, I past s k → moves e = true → step s e = some t → ∃ k', k' < k ∧ I (past ++ [e]) t k')
    (hother : ∀ past s e t k, I past s k → moves e = false → step s e = some t → I (past ++ [e]) t k) :
    ∀ (es past : List ε) (s : σ) (k : Nat), I past s k → run step s es = some t →
      ∃ k', I (past ++ es) t k' ∧ k' + es.countP moves ≤ k
  | [], past, s, k, hs, hr => by
    rw [run_nil, Option.some.injEq] at hr
    rw [List.append_nil, ← hr]
    exact ⟨k, hs, by simp⟩
  | e :: es, past, s, k, hs, hr => by
    obtain ⟨u, hu, hr⟩ := run_cons_eq_some.1 hr
    cases hmoves : moves e with
    | true =>
      obtain ⟨j, hj, huj⟩ := hmove past s e u k hs hmoves hu
      obtain ⟨k', ht, hk'⟩ := run_of_rank hmove hother es (past ++ [e]) u j huj hr
      rw [List.append_assoc] at ht
      refine ⟨k', ht, ?_⟩
      rw [List.countP_cons_of_pos hmoves]
      omega
    | false =>
      obtain ⟨k', ht, hk'⟩ := run_of_rank hmove hother es (past ++ [e]) u k (hother past s e u k hs hmoves hu) hr
      rw [List.append_assoc] at ht
      refine ⟨k', ht, ?_⟩
      rw [List.countP_cons_of_neg (by simp [hmoves])]
      exact hk'

end Machine
end Riddles
