import GoRiddles.HomeMoves
/-!
# HomePick — a pick in the server list and what is done for it

`ChooseServerAc` decides the action from the state it sees; `HomeAc.onActivityResult` carries it out with `clickConnect`,
which reads the state again and toggles.  The two agree exactly when no report has changed the state in between.
-/
namespace Riddles
namespace Home

variable {info : ServerInfoManager} {h t : Home}

/-- **The pick is honoured**: for the action `connect` nothing is disconnected, and for `disconnect` nothing is connected
and no permission asked. -/
def PickHonoured (h : Home) (e : Event) (t : Home) : Prop :=
  ∀ netStatus prepared, e = .onActivityResult netStatus prepared →
    (h.result = some .connect → t.server.disconnects = h.server.disconnects) ∧
    (h.result = some .disconnect → t.server.connects = h.server.connects ∧ t.asked = h.asked)

/-- When the result is delivered, the app is still disconnected for `connect`, and still connected for `disconnect`, or
has no network. -/
def StillAsPicked (h : Home) (e : Event) : Prop :=
  ∀ netStatus prepared, e = .onActivityResult netStatus prepared →
    (h.result = some .connect → h.server.isConnected = false) ∧
    (h.result = some .disconnect → h.server.isConnected = true ∨ netStatus = 1)

/-- The toggle, on a screen that takes the click. -/
theorem clickConnect_toggles (netStatus : Nat) (prepared : Bool) (hfree : h.canClick = true) (hasked : h.asked = false) :
    ((h.clickConnect netStatus prepared).server.disconnects = h.server.disconnects ↔ h.server.isConnected = false) ∧
    ((h.clickConnect netStatus prepared).server.connects = h.server.connects ∧
      (h.clickConnect netStatus prepared).asked = h.asked ↔ h.server.isConnected = true ∨ netStatus = 1) := by
  unfold clickConnect
  by_cases hconn : h.server.isConnected = true
  · simp [hfree, hconn, updateDisConnectingUI, startConnectAnimator, ConnectServer.disconnect]
  · by_cases hnet : netStatus = 1
    · simp [hfree, hconn, hnet, updateServerInfo]
    · cases prepared with
      | false => simp [hfree, hconn, hnet, hasked, updateServerInfo]
      | true =>
        simp [hfree, hconn, hnet, updateServerInfo, connectServer, updateConnectingUI, startConnectAnimator,
          ConnectServer.connect]

theorem pickHonoured_iff {e : Event} (hg : Guarded h) (hs : h.step info e = some t) :
    PickHonoured h e t ↔ StillAsPicked h e := by
  unfold PickHonoured StillAsPicked
  refine forall_congr' (fun netStatus => forall_congr' (fun prepared => imp_congr_right (fun he => ?_)))
  subst he
  unfold step at hs
  split at hs
  · cases hs
  · obtain ⟨action, hr, rfl⟩ := Option.map_eq_some_iff.1 hs
    have hfree := hg.result (by rw [hr]; exact Option.some_ne_none action)
    have hasked := (hg.idle hfree).1
    cases action with
    | connect =>
      have htoggle := (clickConnect_toggles (h := { h with result := none }.updateServerInfo) netStatus prepared hfree hasked).1
      simp only [hr, forall_const, reduceCtorEq, false_implies, and_true, Option.some.injEq]
      exact htoggle
    | disconnect =>
      have htoggle := (clickConnect_toggles (h := { h with result := none }) netStatus prepared hfree hasked).2
      simp only [hr, forall_const, reduceCtorEq, false_implies, true_and, Option.some.injEq]
      exact htoggle
    | empty => simp [hr]

/-- **A pick is honoured if and only if no report has overtaken it.**  In every run of a home screen, with reports at any
point between the click, the dialog and the delivery of the result. -/
theorem pick_honoured_iff (info : ServerInfoManager) (c : ConnectServer) (es : List Event) :
    Machine.along (step info) PickHonoured (opened c) es ↔
      Machine.along (step info) (fun h e _ => StillAsPicked h e) (opened c) es :=
  Machine.along_iff_along guarded_step (fun _ _ _ hg hs => pickHonoured_iff hg hs) es _ (guarded_opened c)

/-- **A pick to connect disconnects**: a slow connection is reported after the pick and before its result is delivered. -/
theorem pick_overtaken :
    ∃ h t, Machine.run (step oneServer) initial [.onServiceConnected .stopped, .connectBtn 0 true, .animationEnd true,
        .chooseServerBtn, .row 0, .stateChanged .connected] = some h ∧
      h.result = some .connect ∧ h.step oneServer (.onActivityResult 0 true) = some t ∧
      t.server.disconnects = h.server.disconnects + 1 ∧ ¬ PickHonoured h (.onActivityResult 0 true) t := by
  refine ⟨_, _, rfl, rfl, rfl, rfl, fun hp => ?_⟩
  have := (hp 0 true rfl).1 rfl
  revert this
  decide

end Home
end Riddles
