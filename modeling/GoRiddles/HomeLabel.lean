import GoRiddles.HomeMoves
/-!
# HomeLabel — the status label against the connection

The label is set when an animation ends, by a `Stopped` report while the screen takes clicks, and by the binding; the state
is set by every report.  Here a `HomeAc` runs without reports until it is bound, is bound once, and then runs with reports
at any time.
-/
namespace Riddles
namespace Home

variable {info : ServerInfoManager} {h t : Home} {e : Event}

/-- The label says `Connected` exactly when the app is connected. -/
def LabelAgrees (h : Home) : Prop := h.statusText = "Connected".toList ↔ h.server.isConnected = true

instance (h : Home) : Decidable h.LabelAgrees := inferInstanceAs (Decidable (_ ↔ _))

/-- **The screen tells the truth when idle.** -/
def Truthful (h : Home) : Prop := h.canClick = true → h.LabelAgrees

instance (h : Home) : Decidable h.Truthful := inferInstanceAs (Decidable (_ → _))

/-- A screen that is not bound: no report reaches it. -/
def unbound (info : ServerInfoManager) (h : Home) (e : Event) : Option Home :=
  if e.isReport then none else h.step info e

/-- A screen that is bound, and is not bound again. -/
def bound (info : ServerInfoManager) (h : Home) (e : Event) : Option Home :=
  match e with
  | .onServiceConnected _ => none
  | e => h.step info e

/-- While the screen takes clicks, `Connected` is reported only if it is known already and a state other than `Connected`
and `Stopped` only if the app is not connected; a refused permission finds the label right; and a disconnecting animation
does not end connected. -/
def Settled (h : Home) : Event → Prop
  | .stateChanged state => h.canClick = true →
      (state = .connected → h.server.isConnected = true) ∧
      (state ≠ .connected → state ≠ .stopped → h.server.isConnected = false)
  | .registerResult it => (it || !h.permission) = true → h.LabelAgrees
  | .animationEnd _ | .onDestroy _ => h.animators ≠ 0 → h.connect = false → h.server.isConnected = false
  | _ => True

instance (h : Home) : (e : Event) → Decidable (h.Settled e)
  | .stateChanged _ | .registerResult _ | .animationEnd _ | .onDestroy _ => inferInstanceAs (Decidable (_ → _))
  | .onServiceConnected _ | .connectBtn _ _ | .chooseServerBtn | .setBtn | .drawerClosed | .onBackPressed | .row _ | .sure
  | .cancel | .listBack | .onActivityResult _ _ | .tick => isTrue trivial

theorem step_of_bound (hs : bound info h e = some t) :
    h.step info e = some t ∧ ∀ state, e ≠ .onServiceConnected state := by
  unfold bound at hs
  split at hs
  · cases hs
  · rename_i honce
    exact ⟨hs, fun state he => honce state he⟩

theorem step_of_unbound (hs : unbound info h e = some t) : h.step info e = some t ∧ e.isReport = false := by
  unfold unbound at hs
  split at hs
  · cases hs
  · rename_i he
    exact ⟨hs, Bool.eq_false_iff.2 he⟩

/-! ## What an event does to the label -/

/-- Label, click guard, animation and state are the same. -/
structure SameLabel (h t : Home) : Prop where
  canClick  : t.canClick = h.canClick
  label     : t.statusText = h.statusText
  animators : t.animators = h.animators
  connect   : t.connect = h.connect
  state     : t.server.state = h.server.state

inductive Labelled (h : Home) (e : Event) : Home → Prop
  | kept {t : Home} (settled : h.Settled e) (same : SameLabel h t) : Labelled h e t
  | clicked (settled : h.Settled e) (h' : Home) (same : SameLabel h h') (netStatus : Nat) (prepared : Bool) :
      Labelled h e (h'.clickConnect netStatus prepared)
  | answered (it : Bool) (event : e = .registerResult it) (was : h.asked = true) :
      Labelled h e ({ h with asked := false }.registerResult it)
  | ended (goFront destroyed : Bool) (event : e = .animationEnd goFront ∨ e = .onDestroy goFront) (was : h.animators ≠ 0) :
      Labelled h e { h.animationEnd goFront with destroyed := destroyed }
  | reported (state : State) (event : e = .stateChanged state) : Labelled h e (h.stateChanged state)
  | bound (state : State) (event : e = .onServiceConnected state) : Labelled h e (h.onServiceConnected state)

theorem SameLabel.rfl : SameLabel h h := ⟨Eq.refl _, Eq.refl _, Eq.refl _, Eq.refl _, Eq.refl _⟩

theorem sameLabel_click (h : Home) (bean : ServerBean) : SameLabel h (h.click bean) := by
  unfold click
  split
  · exact ⟨Eq.refl _, Eq.refl _, Eq.refl _, Eq.refl _, Eq.refl _⟩
  · split <;> exact ⟨Eq.refl _, Eq.refl _, Eq.refl _, Eq.refl _, Eq.refl _⟩

theorem labelled_onActivityResult (settled : h.Settled e) (action : Action) (netStatus : Nat) (prepared : Bool) :
    Labelled h e ({ h with result := none }.onActivityResult action netStatus prepared) := by
  cases action with
  | disconnect => exact .clicked settled { h with result := none } ⟨rfl, rfl, rfl, rfl, rfl⟩ netStatus prepared
  | connect => exact .clicked settled { h with result := none }.updateServerInfo ⟨rfl, rfl, rfl, rfl, rfl⟩ netStatus prepared
  | empty => exact .kept settled ⟨rfl, rfl, rfl, rfl, rfl⟩

/-- **Inversion of a step** for the label. -/
theorem labelled_of_step (hs : h.step info e = some t) : Labelled h e t := by
  cases stepped_of_step hs with
  | onServiceConnected state => exact .bound state rfl
  | stateChanged state => exact .reported state rfl
  | connectBtn netStatus prepared front =>
    have hsettled : h.Settled (.connectBtn netStatus prepared) := trivial
    exact .clicked hsettled h .rfl netStatus prepared
  | connectIgnored | chooseIgnored | setIgnored => exact .kept trivial .rfl
  | chooseServerBtn | setBtn | drawerClosed | sure | cancel | listBack | tick =>
    exact .kept trivial ⟨rfl, rfl, rfl, rfl, rfl⟩
  | onBackPressed =>
    unfold Home.onBackPressed
    split
    · exact .kept trivial ⟨rfl, rfl, rfl, rfl, rfl⟩
    · exact .kept trivial .rfl
  | onDestroy goFront =>
    unfold Home.onDestroy
    split
    · rename_i hnone
      exact .kept (fun hrun => absurd hnone hrun) ⟨rfl, rfl, rfl, rfl, rfl⟩
    · exact .ended goFront true (.inr rfl) ‹_›
  | @row position bean row list => exact .kept trivial (sameLabel_click h bean)
  | @onActivityResult action netStatus prepared result =>
    have hsettled : h.Settled (.onActivityResult netStatus prepared) := trivial
    exact labelled_onActivityResult hsettled action netStatus prepared
  | registerResult it asked => exact .answered it rfl asked
  | animationEnd goFront running => exact .ended goFront (h.animationEnd goFront).destroyed (.inl rfl) running

theorem statusText_animationEnd (h : Home) (goFront : Bool) :
    (h.animationEnd goFront).statusText =
      if h.connect && h.server.isConnected then "Connected".toList else "Disconnect".toList := by
  unfold animationEnd checkConnectResult jumpToResult
  cases h.connect <;> cases h.server.isConnected <;> cases h.server.isDisconnected <;> cases goFront <;> rfl

theorem registerResult_refused {it : Bool} (hrefused : (it || !h.permission) = true) :
    (h.registerResult it).canClick = true ∧ SameLabel { h with canClick := true } (h.registerResult it) := by
  have hnot : ¬ (!it && h.permission) = true := by
    cases it <;> simp_all
  unfold registerResult
  rw [if_neg hnot]
  exact ⟨rfl, rfl, rfl, rfl, rfl, rfl⟩

theorem registerResult_granted {it : Bool} (hgranted : ¬ (it || !h.permission) = true) :
    h.registerResult it = { h with permission := false }.connectServer := by
  have hyes : (!it && h.permission) = true := by
    cases it <;> simp_all
  unfold registerResult
  rw [if_pos hyes]

/-! ## After the binding -/

theorem Truthful.same (ht : Truthful h) (hsame : SameLabel h t) : Truthful t := by
  unfold Truthful LabelAgrees ConnectServer.isConnected at *
  rw [hsame.canClick, hsame.label, hsame.state]
  exact ht

theorem truthful_busy (hbusy : t.canClick = false) : Truthful t := by
  intro hc
  cases hbusy.symm.trans hc

theorem Truthful.clickConnect (ht : Truthful h) (netStatus : Nat) (prepared : Bool) :
    Truthful (h.clickConnect netStatus prepared) := by
  unfold Home.clickConnect
  split
  · exact ht
  · rename_i hfree
    rw [Bool.not_eq_true', Bool.not_eq_false] at hfree
    dsimp only
    split
    · exact truthful_busy rfl
    · split
      · exact ht.same ⟨hfree.symm, rfl, rfl, rfl, rfl⟩
      · split <;> exact truthful_busy rfl

theorem truthful_animationEnd (h : Home) (goFront : Bool) :
    Truthful (h.animationEnd goFront) ↔ (h.connect = false → h.server.isConnected = false) := by
  obtain ⟨hserver, hfree, -⟩ := animationEnd_fields h goFront
  unfold Truthful LabelAgrees
  rw [hserver, hfree, statusText_animationEnd]
  cases h.connect <;> cases h.server.isConnected <;> decide

theorem truthful_stateChanged (ht : Truthful h) (state : State) :
    Truthful (h.stateChanged state) ↔ h.Settled (.stateChanged state) := by
  have hr := reported_stateChanged h state
  unfold Truthful Settled LabelAgrees
  rw [hr.canClick]
  refine imp_congr_right (fun hfree => ?_)
  have hlabel := ht hfree
  unfold LabelAgrees at hlabel
  have hconn : (h.stateChanged state).server.isConnected = decide (state = .connected) := by
    unfold ConnectServer.isConnected
    rw [hr.state]
  have htext : (h.stateChanged state).statusText = if state = .stopped then "Disconnect".toList else h.statusText := by
    unfold stateChanged disconnectSuccess
    by_cases hs : state = .stopped <;> simp [hs, hfree, updateStoppedUI]
  rw [hconn, htext]
  cases state with
  | stopped => exact iff_of_true (by rw [if_pos rfl]; decide) ⟨fun hs => (by cases hs), fun _ hs => absurd rfl hs⟩
  | connected =>
    rw [if_neg (fun hs => by cases hs), hlabel]
    simp
  | idle | connecting | stopping =>
    rw [if_neg (fun hs => by cases hs), hlabel]
    simp

theorem truthful_registerResult (hg : Guarded h) (hasked : h.asked = true) (it : Bool) :
    Truthful ({ h with asked := false }.registerResult it) ↔ h.Settled (.registerResult it) := by
  unfold Settled
  by_cases hrefused : (it || !h.permission) = true
  · obtain ⟨hfree, hsame⟩ := registerResult_refused (h := { h with asked := false }) hrefused
    unfold Truthful LabelAgrees ConnectServer.isConnected
    rw [hfree, hsame.label, hsame.state]
    exact ⟨fun ha _ => ha rfl, fun ha _ => ha hrefused⟩
  · rw [registerResult_granted (h := { h with asked := false }) hrefused]
    exact iff_of_true (truthful_busy (hg.waiting hasked).1) (fun hr => absurd hr hrefused)

/-- **One step**: an idle screen stays truthful exactly when the step is settled. -/
theorem settled_iff (hg : Guarded h) (ht : Truthful h) (hs : Home.bound info h e = some t) : Truthful t ↔ h.Settled e := by
  obtain ⟨hstep, honce⟩ := step_of_bound hs
  cases labelled_of_step hstep with
  | kept settled same => exact iff_of_true (ht.same same) settled
  | clicked settled h' same netStatus prepared => exact iff_of_true ((ht.same same).clickConnect netStatus prepared) settled
  | answered it event was =>
    rw [event]
    exact truthful_registerResult hg was it
  | ended goFront destroyed event was =>
    have hend : Truthful { h.animationEnd goFront with destroyed := destroyed } ↔ Truthful (h.animationEnd goFront) := Iff.rfl
    have himp : (h.connect = false → h.server.isConnected = false) ↔ h.Settled e := by
      rcases event with rfl | rfl <;> exact ⟨fun hi _ => hi, fun hi => hi was⟩
    exact hend.trans ((truthful_animationEnd h goFront).trans himp)
  | reported state event =>
    rw [event]
    exact truthful_stateChanged ht state
  | bound state event => exact absurd event (honce state)

/-! ## Before the binding -/

/-- Without reports the label never says `Connected`: a connecting animation is not connected. -/
structure Unlit (h : Home) : Prop where
  label      : h.statusText ≠ "Connected".toList
  connecting : h.animators ≠ 0 → h.connect = true → h.server.isConnected = false

theorem unlit_opened (c : ConnectServer) : Unlit (opened c) := by
  refine ⟨?_, fun hrun => absurd rfl hrun⟩
  show "Disconnect".toList ≠ _
  decide

theorem Unlit.same (hu : Unlit h) (hsame : SameLabel h t) : Unlit t := by
  refine ⟨hsame.label ▸ hu.label, ?_⟩
  unfold ConnectServer.isConnected
  rw [hsame.animators, hsame.connect, hsame.state]
  exact hu.connecting

theorem unlit_connectServer (h : Home) : Unlit h.connectServer := by
  refine ⟨?_, fun _ _ => rfl⟩
  show "Connecting...".toList ≠ _
  decide

theorem Unlit.clickConnect (hu : Unlit h) (netStatus : Nat) (prepared : Bool) :
    Unlit (h.clickConnect netStatus prepared) := by
  unfold Home.clickConnect
  split
  · exact hu
  · dsimp only
    split
    · refine ⟨?_, fun _ hc => by cases hc⟩
      show "Disconnecting...".toList ≠ _
      decide
    · split
      · exact ⟨hu.label, hu.connecting⟩
      · split
        · exact ⟨hu.label, hu.connecting⟩
        · exact unlit_connectServer _

theorem Unlit.animationEnd (hu : Unlit h) (hg : Guarded h) (hrun : h.animators ≠ 0) (goFront : Bool) :
    Unlit (h.animationEnd goFront) := by
  have hani : (h.animationEnd goFront).animators = 0 :=
    (animationEnd_fields h goFront).2.2.2.1.trans (Nat.sub_eq_zero_of_le hg.animators)
  refine ⟨?_, fun hne => absurd hani hne⟩
  rw [statusText_animationEnd]
  cases hc : h.connect with
  | false =>
    rw [Bool.false_and]
    decide
  | true =>
    rw [hu.connecting hrun hc]
    decide

theorem unlit_step (h : Home) (e : Event) (t : Home) (hi : Guarded h ∧ Unlit h) (hs : unbound info h e = some t) :
    Guarded t ∧ Unlit t := by
  obtain ⟨hstep, hreport⟩ := step_of_unbound hs
  obtain ⟨hg, hu⟩ := hi
  refine ⟨guarded_step h e t hg hstep, ?_⟩
  cases labelled_of_step hstep with
  | kept _ same => exact hu.same same
  | clicked _ h' same netStatus prepared => exact (hu.same same).clickConnect netStatus prepared
  | answered it _ was =>
    by_cases hrefused : (it || !h.permission) = true
    · obtain ⟨-, hsame⟩ := registerResult_refused (h := { h with asked := false }) hrefused
      have hfree : Unlit { h with asked := false, canClick := true } := ⟨hu.label, hu.connecting⟩
      exact hfree.same hsame
    · rw [registerResult_granted (h := { h with asked := false }) hrefused]
      exact unlit_connectServer _
  | ended goFront destroyed _ was =>
    have hend := hu.animationEnd hg was goFront
    exact ⟨hend.label, hend.connecting⟩
  | reported state event | bound state event =>
    rw [event] at hreport
    cases hreport

/-- The binding makes the label agree with the state it reads. -/
theorem truthful_bind (hu : Unlit h) {state : State} (hs : h.step info (.onServiceConnected state) = some t) :
    Truthful t := by
  have hstate := (reported_of_bind hs).state
  unfold step at hs
  split at hs
  · cases hs
  · cases hs
    intro _
    unfold LabelAgrees ConnectServer.isConnected
    rw [hstate]
    unfold onServiceConnected
    by_cases hc : state = .connected
    · simp only [hc, if_true, decide_true, iff_true]
      rfl
    · simp only [hc, decide_false, Bool.false_eq_true, iff_false]
      exact hu.label

/-- **The home screen tells the truth when idle if and only if every event is settled**: from the binding on, in every run
of clicks, permission results, ends of animations and reports at any time. -/
theorem home_truthful_iff (info : ServerInfoManager) (c : ConnectServer) (es₀ : List Event) (h₀ : Home)
    (hrun : Machine.run (unbound info) (opened c) es₀ = some h₀) (state : State) (h₁ : Home)
    (hbind : h₀.step info (.onServiceConnected state) = some h₁) (es : List Event) :
    Machine.always (bound info) Truthful h₁ es ↔ Machine.along (bound info) (fun h e _ => h.Settled e) h₁ es := by
  have hunbound : Machine.always (unbound info) (fun h => Guarded h ∧ Unlit h) (opened c) es₀ :=
    Machine.always_of_inv unlit_step es₀ _ ⟨guarded_opened c, unlit_opened c⟩
  have hbefore := Machine.always_last es₀ _ hunbound hrun
  have hguarded := guarded_step h₀ _ h₁ hbefore.1 hbind
  exact Machine.always_iff_along (fun h e t hg hs => guarded_step h e t hg (step_of_bound hs).1)
    (fun h e t hg ht hs => settled_iff hg ht hs) es h₁ hguarded (truthful_bind hbefore.2 hbind)

/-- The screen is bound to a stopped service, connects in time, and disconnects. -/
theorem home_truthful_connects :
    ∃ h₁, (opened initial.server).step oneServer (.onServiceConnected .stopped) = some h₁ ∧
      (Machine.run (bound oneServer) h₁ [.connectBtn 0 true, .stateChanged .connected, .animationEnd true,
        .connectBtn 0 true, .stateChanged .stopping, .stateChanged .stopped, .animationEnd true]).isSome ∧
      Machine.always (bound oneServer) Truthful h₁ [.connectBtn 0 true, .stateChanged .connected, .animationEnd true,
        .connectBtn 0 true, .stateChanged .stopping, .stateChanged .stopped, .animationEnd true] := by
  refine ⟨_, rfl, rfl, (home_truthful_iff oneServer initial.server [] _ rfl .stopped _ rfl _).2 ?_⟩
  decide

/-- **Connected under the label `Disconnect`**: the connection is reported after the animation has ended. -/
theorem home_label_late :
    ∃ h₁ h, (opened initial.server).step oneServer (.onServiceConnected .stopped) = some h₁ ∧
      Machine.run (bound oneServer) h₁ [.connectBtn 0 true, .animationEnd true, .stateChanged .connected] = some h ∧
      h.canClick = true ∧ h.statusText = "Disconnect".toList ∧ h.server.isConnected = true ∧ ¬ Truthful h := by
  refine ⟨_, _, rfl, rfl, rfl, rfl, rfl, ?_⟩
  decide

end Home
end Riddles
