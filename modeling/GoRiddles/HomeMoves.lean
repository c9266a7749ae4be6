import GoRiddles.Home
/-!
# HomeMoves — what an event does to the home screen

The click guard: while `canClick` is set no permission request and no animator is outstanding, and the server list is over
the screen only then.  `Move` is what an event can do to the guard, to the server list and to the connection object; that
the guard is kept is read off it.
-/
namespace Riddles
namespace Home

variable {info : ServerInfoManager} {h t : Home} {e : Event}

/-- **The click guard**: at most one permission request or animator is outstanding and none while `canClick` is set; the
server list is shown, and its result is pending, only while it is. -/
structure Guarded (h : Home) : Prop where
  animators : h.animators ≤ 1
  asked     : h.asked = true → h.animators = 0
  idle      : h.canClick = true → h.asked = false ∧ h.animators = 0
  chooser   : h.chooser ≠ .closed → h.canClick = true ∧ h.result = none
  result    : h.result ≠ none → h.canClick = true

theorem guarded_initial : Guarded initial where
  animators   := Nat.zero_le 1
  asked _     := rfl
  idle _      := ⟨rfl, rfl⟩
  chooser hne := absurd rfl hne
  result hne  := absurd rfl hne

/-- While a permission request is outstanding the home screen is in front and takes no clicks. -/
theorem Guarded.waiting (hg : Guarded h) (hasked : h.asked = true) :
    h.canClick = false ∧ h.chooser = .closed ∧ h.result = none := by
  have hbusy : h.canClick = false := by
    by_contra hc
    rw [Bool.not_eq_false] at hc
    rw [(hg.idle hc).1] at hasked
    cases hasked
  refine ⟨hbusy, ?_, ?_⟩
  · by_contra hc
    rw [(hg.chooser hc).1] at hbusy
    cases hbusy
  · by_contra hr
    rw [hg.result hr] at hbusy
    cases hbusy

theorem Guarded.closed (hg : Guarded h) {action : Action} (hr : h.result = some action) : h.chooser = .closed := by
  by_contra hc
  rw [(hg.chooser hc).2] at hr
  cases hr

/-! ## The moves -/

/-- What a click on the connect button does. -/
inductive Clicked (h t : Home) : Prop
  | ignored (blocked : h.canClick = false) (server : t.server = h.server) (canClick : t.canClick = false)
      (asked : t.asked = h.asked) (animators : t.animators = h.animators)
  | disconnects (free : h.canClick = true) (connected : h.server.isConnected = true)
      (server : t.server = h.server.disconnect) (canClick : t.canClick = false) (asked : t.asked = h.asked)
      (animators : t.animators = h.animators + 1)
  | refused (free : h.canClick = true) (connected : h.server.isConnected = false) (server : t.server = h.server)
      (canClick : t.canClick = true) (asked : t.asked = h.asked) (animators : t.animators = h.animators)
  | asks (free : h.canClick = true) (connected : h.server.isConnected = false) (server : t.server = h.server)
      (canClick : t.canClick = false) (asked : t.asked = true) (animators : t.animators = h.animators)
  | connects (free : h.canClick = true) (connected : h.server.isConnected = false)
      (server : t.server = h.server.connect) (canClick : t.canClick = false) (asked : t.asked = h.asked)
      (animators : t.animators = h.animators + 1)

/-- The connection object as it was, its timer apart. -/
structure Kept (c d : ConnectServer) : Prop where
  state    : d.state = c.state
  address  : d.address = c.address
  connects : d.connects = c.connects

/-- The event is a click on the row of a server that is taken at once. -/
def Listed (info : ServerInfoManager) (e : Event) (h : Home) (bean : ServerBean) : Prop :=
  ∃ position, e = .row position ∧ info.adapterList[position]? = some bean ∧ h.asksFirst bean = false

/-- A state of the service is reported. -/
structure Reported (state : State) (h t : Home) : Prop where
  state     : t.server.state = state
  address   : t.server.address = h.server.address
  connects  : t.server.connects = h.server.connects
  canClick  : t.canClick = h.canClick
  asked     : t.asked = h.asked
  animators : t.animators = h.animators
  result    : t.result = h.result
  chooser   : t.chooser = h.chooser

/-- **What an event does** that is not a report. -/
inductive Move (info : ServerInfoManager) (e : Event) (h t : Home) : Prop
  /-- Nothing but what is shown and which screen is in front. -/
  | screens (server : Kept h.server t.server) (canClick : t.canClick = h.canClick) (asked : t.asked = h.asked)
      (animators : t.animators = h.animators) (result : t.result = h.result)
      (chooser : t.chooser ≠ .closed → h.canClick = true ∧ h.result = none)
      (dialog : ∀ bean, t.chooser = .dialog bean → h.chooser = .dialog bean ∨ h.server.isConnected = true)
  | clicked (click : Clicked h t) (chooser : t.chooser = .closed) (result : t.result = none)
  /-- The result of a pick that asks for nothing. -/
  | dropped (was : h.result = some .empty) (server : t.server = h.server) (canClick : t.canClick = h.canClick)
      (asked : t.asked = h.asked) (animators : t.animators = h.animators) (chooser : t.chooser = .closed)
      (result : t.result = none)
  | granted (was : h.asked = true) (server : t.server = h.server.connect) (canClick : t.canClick = h.canClick)
      (asked : t.asked = false) (animators : t.animators = h.animators + 1) (chooser : t.chooser = h.chooser)
      (result : t.result = h.result)
  | denied (was : h.asked = true) (server : t.server = h.server) (canClick : t.canClick = true)
      (asked : t.asked = false) (animators : t.animators = h.animators) (chooser : t.chooser = h.chooser)
      (result : t.result = h.result)
  | ended (was : h.animators ≠ 0) (server : t.server = h.server) (canClick : t.canClick = true)
      (asked : t.asked = h.asked) (animators : t.animators = h.animators - 1) (chooser : t.chooser = h.chooser)
      (result : t.result = h.result)
  /-- A server is chosen, in the list or in the dialog. -/
  | chosen (bean : ServerBean) (action : Action) (was : h.chooser ≠ .closed)
      (how : Listed info e h bean ∧ action ≠ .disconnect ∨ h.chooser = .dialog bean ∧ action = .disconnect)
      (server : t.server = { h.server with currentServer := bean }) (canClick : t.canClick = h.canClick)
      (asked : t.asked = h.asked) (animators : t.animators = h.animators) (chooser : t.chooser = .closed)
      (result : t.result = some action)

theorem Kept.rfl {c : ConnectServer} : Kept c c := ⟨Eq.refl _, Eq.refl _, Eq.refl _⟩

theorem Guarded.still (hg : Guarded h) (server : Kept h.server t.server) (canClick : t.canClick = h.canClick)
    (asked : t.asked = h.asked) (animators : t.animators = h.animators) (result : t.result = h.result)
    (chooser : t.chooser = h.chooser) : Move info e h t := by
  refine .screens server canClick asked animators result (fun hne => ?_) (fun bean hd => .inl ?_)
  · rw [chooser] at hne
    exact hg.chooser hne
  · rw [← chooser]
    exact hd

theorem clickConnect_spec (h : Home) (netStatus : Nat) (prepared : Bool) :
    Clicked h (h.clickConnect netStatus prepared) ∧ (h.clickConnect netStatus prepared).chooser = h.chooser ∧
      (h.clickConnect netStatus prepared).result = h.result := by
  unfold clickConnect
  by_cases hfree : h.canClick = true
  · rw [if_neg (by rw [hfree]; exact Bool.false_ne_true)]
    dsimp only
    by_cases hconn : h.server.isConnected = true
    · rw [if_pos hconn]
      exact ⟨.disconnects hfree hconn rfl rfl rfl rfl, rfl, rfl⟩
    · rw [if_neg hconn]
      rw [Bool.not_eq_true] at hconn
      by_cases hnet : netStatus = 1
      · rw [if_pos hnet]
        exact ⟨.refused hfree hconn rfl rfl rfl rfl, rfl, rfl⟩
      · rw [if_neg hnet]
        cases prepared with
        | false => exact ⟨.asks hfree hconn rfl rfl rfl rfl, rfl, rfl⟩
        | true => exact ⟨.connects hfree hconn rfl rfl rfl rfl, rfl, rfl⟩
  · rw [Bool.not_eq_true] at hfree
    rw [if_pos (by rw [hfree]; rfl)]
    exact ⟨.ignored hfree rfl hfree rfl rfl, rfl, rfl⟩

theorem Clicked.congr {h' : Home} (hc : Clicked h' t) (server : h'.server = h.server) (canClick : h'.canClick = h.canClick)
    (asked : h'.asked = h.asked) (animators : h'.animators = h.animators) : Clicked h t := by
  cases hc with
  | ignored a b c d f => exact .ignored (canClick ▸ a) (b.trans server) c (d.trans asked) (f.trans animators)
  | disconnects a b c d f g =>
    exact .disconnects (canClick ▸ a) (server ▸ b) (server ▸ c) d (f.trans asked) (animators ▸ g)
  | refused a b c d f g => exact .refused (canClick ▸ a) (server ▸ b) (c.trans server) d (f.trans asked) (g.trans animators)
  | asks a b c d f g => exact .asks (canClick ▸ a) (server ▸ b) (c.trans server) d f (g.trans animators)
  | connects a b c d f g => exact .connects (canClick ▸ a) (server ▸ b) (server ▸ c) d (f.trans asked) (animators ▸ g)

theorem move_onActivityResult (action : Action) (netStatus : Nat) (prepared : Bool) (hg : Guarded h)
    (hr : h.result = some action) :
    Move info e h ({ h with result := none }.onActivityResult action netStatus prepared) := by
  have hch := hg.closed hr
  cases action with
  | disconnect =>
    obtain ⟨hc, hch', hre⟩ := clickConnect_spec { h with result := none } netStatus prepared
    exact .clicked (hc.congr rfl rfl rfl rfl) (hch'.trans hch) hre
  | connect =>
    obtain ⟨hc, hch', hre⟩ := clickConnect_spec { h with result := none }.updateServerInfo netStatus prepared
    exact .clicked (hc.congr rfl rfl rfl rfl) (hch'.trans hch) hre
  | empty => exact .dropped hr rfl rfl rfl rfl hch rfl

theorem animationEnd_fields (h : Home) (goFront : Bool) :
    (h.animationEnd goFront).server = h.server ∧ (h.animationEnd goFront).canClick = true ∧
      (h.animationEnd goFront).asked = h.asked ∧ (h.animationEnd goFront).animators = h.animators - 1 ∧
      (h.animationEnd goFront).chooser = h.chooser ∧ (h.animationEnd goFront).result = h.result := by
  unfold animationEnd checkConnectResult jumpToResult
  dsimp only
  repeat' split
  all_goals exact ⟨rfl, rfl, rfl, rfl, rfl, rfl⟩

theorem move_click {bean : ServerBean} {position : Nat} (hg : Guarded h)
    (hrow : info.adapterList[position]? = some bean) (hlist : h.chooser = .list) :
    Move info (.row position) h (h.click bean) := by
  have hover : h.chooser ≠ .closed := by
    rw [hlist]
    exact fun hc => by cases hc
  unfold click
  split
  · rename_i hask
    have hconn := (Bool.and_eq_true_iff.1 hask).1
    exact .screens .rfl rfl rfl rfl rfl (fun _ => hg.chooser hover) (fun _ _ => .inr hconn)
  · rename_i hask
    have hlisted : Listed info (.row position) h bean := ⟨position, rfl, hrow, Bool.eq_false_iff.2 hask⟩
    split
    · exact .chosen bean .empty hover (.inl ⟨hlisted, fun ha => by cases ha⟩) rfl rfl rfl rfl rfl rfl
    · exact .chosen bean .connect hover (.inl ⟨hlisted, fun ha => by cases ha⟩) rfl rfl rfl rfl rfl rfl

theorem report_fields (c : ConnectServer) (state : State) :
    (c.report state).state = state ∧ (c.report state).address = c.address ∧ (c.report state).connects = c.connects := by
  unfold ConnectServer.report
  split <;> exact ⟨rfl, rfl, rfl⟩

theorem reported_onServiceConnected (h : Home) (state : State) : Reported state h (h.onServiceConnected state) := by
  obtain ⟨hst, had, hco⟩ := report_fields h.server state
  unfold onServiceConnected
  dsimp only
  split <;> exact ⟨hst, had, hco, rfl, rfl, rfl, rfl, rfl⟩

theorem reported_stateChanged (h : Home) (state : State) : Reported state h (h.stateChanged state) := by
  obtain ⟨hst, had, hco⟩ := report_fields h.server state
  unfold stateChanged disconnectSuccess
  dsimp only
  repeat' split
  all_goals exact ⟨hst, had, hco, rfl, rfl, rfl, rfl, rfl⟩

theorem reported_of_bind {state : State} (hs : h.step info (.onServiceConnected state) = some t) : Reported state h t := by
  unfold step at hs
  split at hs
  · cases hs
  · cases hs
    exact reported_onServiceConnected h state

theorem reported_of_report {state : State} (hs : h.step info (.stateChanged state) = some t) : Reported state h t := by
  unfold step at hs
  split at hs
  · cases hs
  · cases hs
    exact reported_stateChanged h state

theorem front_iff : h.front = true ↔ h.chooser = .closed ∧ h.result = none := decide_eq_true_iff

/-- **The steps**, as the events allow them. -/
inductive Stepped (info : ServerInfoManager) (h : Home) : Event → Home → Prop
  | onServiceConnected (state : State) : Stepped info h (.onServiceConnected state) (h.onServiceConnected state)
  | stateChanged (state : State) : Stepped info h (.stateChanged state) (h.stateChanged state)
  | connectBtn (netStatus : Nat) (prepared : Bool) (front : h.front = true) :
      Stepped info h (.connectBtn netStatus prepared) (h.clickConnect netStatus prepared)
  | connectIgnored (netStatus : Nat) (prepared : Bool) : Stepped info h (.connectBtn netStatus prepared) h
  | chooseServerBtn (front : h.front = true) (free : h.free = true) :
      Stepped info h .chooseServerBtn { h with chooser := .list }
  | chooseIgnored : Stepped info h .chooseServerBtn h
  | setBtn : Stepped info h .setBtn { h with drawerOpen := true }
  | setIgnored : Stepped info h .setBtn h
  | drawerClosed : Stepped info h .drawerClosed { h with drawerOpen := false }
  | onBackPressed : Stepped info h .onBackPressed h.onBackPressed
  | onDestroy (goFront : Bool) : Stepped info h (.onDestroy goFront) (h.onDestroy goFront)
  | row {position : Nat} {bean : ServerBean} (row : info.adapterList[position]? = some bean) (list : h.chooser = .list) :
      Stepped info h (.row position) (h.click bean)
  | sure {bean : ServerBean} (dialog : h.chooser = .dialog bean) : Stepped info h .sure (h.sure bean)
  | cancel {bean : ServerBean} (dialog : h.chooser = .dialog bean) : Stepped info h .cancel { h with chooser := .list }
  | listBack : Stepped info h .listBack { h with chooser := .closed }
  | onActivityResult {action : Action} (netStatus : Nat) (prepared : Bool) (result : h.result = some action) :
      Stepped info h (.onActivityResult netStatus prepared)
        ({ h with result := none }.onActivityResult action netStatus prepared)
  | registerResult (it : Bool) (asked : h.asked = true) :
      Stepped info h (.registerResult it) ({ h with asked := false }.registerResult it)
  | animationEnd (goFront : Bool) (running : h.animators ≠ 0) :
      Stepped info h (.animationEnd goFront) (h.animationEnd goFront)
  | tick : Stepped info h .tick
      { h with
        connectTime := ConnectTimeManager.transTime h.server.timer.time
        server := { h.server with timer := { h.server.timer with time := h.server.timer.time + 1 } } }

theorem stepped_of_step (hs : h.step info e = some t) : Stepped info h e t := by
  unfold step at hs
  by_cases hdestroyed : h.destroyed = true
  · rw [if_pos hdestroyed] at hs
    cases hs
  rw [if_neg hdestroyed] at hs
  cases e with
  | onServiceConnected state =>
    cases hs
    exact .onServiceConnected state
  | stateChanged state =>
    cases hs
    exact .stateChanged state
  | connectBtn netStatus prepared =>
    simp only [Option.ite_none_right_eq_some, Option.some.injEq] at hs
    rw [← hs.2]
    split
    · exact .connectIgnored netStatus prepared
    · exact .connectBtn netStatus prepared hs.1
  | chooseServerBtn =>
    simp only [Option.ite_none_right_eq_some, Option.some.injEq] at hs
    rw [← hs.2]
    split
    · exact .chooseServerBtn hs.1 ‹_›
    · exact .chooseIgnored
  | setBtn =>
    simp only [Option.ite_none_right_eq_some, Option.some.injEq] at hs
    rw [← hs.2]
    split
    · exact .setBtn
    · exact .setIgnored
  | drawerClosed =>
    cases hs
    exact .drawerClosed
  | onBackPressed =>
    simp only [Option.ite_none_right_eq_some, Option.some.injEq] at hs
    rw [← hs.2]
    exact .onBackPressed
  | onDestroy goFront =>
    cases hs
    exact .onDestroy goFront
  | row position =>
    simp only [Option.ite_none_right_eq_some, Option.map_eq_some_iff] at hs
    obtain ⟨hlist, bean, hrow, rfl⟩ := hs
    exact .row hrow hlist
  | sure =>
    dsimp only at hs
    split at hs
    · cases hs
      exact .sure ‹_›
    · cases hs
  | cancel =>
    dsimp only at hs
    split at hs
    · cases hs
      exact .cancel ‹_›
    · cases hs
  | listBack =>
    simp only [Option.ite_none_right_eq_some, Option.some.injEq] at hs
    rw [← hs.2]
    exact .listBack
  | onActivityResult netStatus prepared =>
    obtain ⟨action, hr, rfl⟩ := Option.map_eq_some_iff.1 hs
    exact .onActivityResult netStatus prepared hr
  | registerResult it =>
    simp only [Option.ite_none_right_eq_some, Option.some.injEq] at hs
    rw [← hs.2]
    exact .registerResult it hs.1
  | animationEnd goFront =>
    simp only [Option.ite_none_left_eq_some, Option.some.injEq] at hs
    rw [← hs.2]
    exact .animationEnd goFront hs.1
  | tick =>
    simp only [Option.ite_none_right_eq_some, Option.some.injEq] at hs
    rw [← hs.2]
    exact .tick

/-- **Inversion of a step** that is not a report. -/
theorem move_of_step (hg : Guarded h) (he : e.isReport = false) (hs : h.step info e = some t) : Move info e h t := by
  cases stepped_of_step hs with
  | onServiceConnected | stateChanged => cases he
  | connectBtn netStatus prepared front =>
    obtain ⟨hch, hre⟩ := front_iff.1 front
    obtain ⟨hc, hch', hre'⟩ := clickConnect_spec h netStatus prepared
    exact .clicked hc (hch'.trans hch) (hre'.trans hre)
  | connectIgnored | chooseIgnored | setIgnored | setBtn | drawerClosed => exact hg.still .rfl rfl rfl rfl rfl rfl
  | chooseServerBtn front free =>
    unfold Home.free at free
    rw [Bool.and_eq_true] at free
    exact .screens .rfl rfl rfl rfl rfl (fun _ => ⟨free.2, (front_iff.1 front).2⟩) (fun _ hd => by cases hd)
  | onBackPressed =>
    unfold Home.onBackPressed
    split <;> exact hg.still .rfl rfl rfl rfl rfl rfl
  | onDestroy goFront =>
    unfold Home.onDestroy
    split
    · exact hg.still .rfl rfl rfl rfl rfl rfl
    · rename_i hrun
      obtain ⟨hse, hcan, hask, hani, hch, hre⟩ := animationEnd_fields h goFront
      exact .ended hrun hse hcan hask hani hch hre
  | row row list => exact move_click hg row list
  | @sure bean dialog =>
    refine .chosen bean .disconnect ?_ (.inr ⟨dialog, rfl⟩) rfl rfl rfl rfl rfl rfl
    rw [dialog]
    exact fun hc => by cases hc
  | cancel dialog =>
    have hover := hg.chooser (by rw [dialog]; exact fun hc => by cases hc)
    exact .screens .rfl rfl rfl rfl rfl (fun _ => hover) (fun _ hd => by cases hd)
  | listBack => exact .screens .rfl rfl rfl rfl rfl (fun hc => absurd rfl hc) (fun _ hd => by cases hd)
  | @onActivityResult action netStatus prepared result => exact move_onActivityResult action netStatus prepared hg result
  | registerResult it asked =>
    unfold Home.registerResult
    split
    · exact .granted asked rfl rfl rfl rfl rfl rfl
    · exact .denied asked rfl rfl rfl rfl rfl rfl
  | animationEnd goFront running =>
    obtain ⟨hse, hcan, hask, hani, hch, hre⟩ := animationEnd_fields h goFront
    exact .ended running hse hcan hask hani hch hre
  | tick => exact hg.still ⟨rfl, rfl, rfl⟩ rfl rfl rfl rfl rfl

/-! ## The guard is kept -/

theorem Clicked.guarded (hc : Clicked h t) (hg : Guarded h) (hchooser : t.chooser = .closed) (hresult : t.result = none) :
    Guarded t := by
  have hclosed : t.chooser ≠ .closed → t.canClick = true ∧ t.result = none := fun hne => absurd hchooser hne
  have hnone : t.result ≠ none → t.canClick = true := fun hne => absurd hresult hne
  have hbusy : t.canClick = false → t.canClick = true → t.asked = false ∧ t.animators = 0 := by
    intro hf ht
    rw [hf] at ht
    cases ht
  cases hc with
  | ignored _ _ canClick asked animators =>
    refine ⟨animators ▸ hg.animators, ?_, hbusy canClick, hclosed, hnone⟩
    rw [asked, animators]
    exact hg.asked
  | refused free _ _ _ asked animators =>
    obtain ⟨hask, hani⟩ := hg.idle free
    exact ⟨animators ▸ hg.animators, fun _ => animators.trans hani, fun _ => ⟨asked.trans hask, animators.trans hani⟩,
      hclosed, hnone⟩
  | asks free _ _ canClick _ animators =>
    obtain ⟨-, hani⟩ := hg.idle free
    exact ⟨animators ▸ hg.animators, fun _ => animators.trans hani, hbusy canClick, hclosed, hnone⟩
  | disconnects free _ _ canClick asked animators | connects free _ _ canClick asked animators =>
    obtain ⟨hask, hani⟩ := hg.idle free
    refine ⟨?_, fun ha => ?_, hbusy canClick, hclosed, hnone⟩
    · rw [animators, hani]
    · rw [asked, hask] at ha
      cases ha

theorem Guarded.congr (hg : Guarded h) (canClick : t.canClick = h.canClick) (asked : t.asked = h.asked)
    (animators : t.animators = h.animators) (chooser : t.chooser = h.chooser) (result : t.result = h.result) :
    Guarded t := by
  constructor
  · exact animators ▸ hg.animators
  · rw [asked, animators]
    exact hg.asked
  · rw [canClick, asked, animators]
    exact hg.idle
  · rw [chooser, canClick, result]
    exact hg.chooser
  · rw [result, canClick]
    exact hg.result

theorem Reported.guarded {state : State} (hr : Reported state h t) (hg : Guarded h) : Guarded t :=
  hg.congr hr.canClick hr.asked hr.animators hr.chooser hr.result

/-- **Every event keeps the click guard.** -/
theorem Move.guarded (hm : Move info e h t) (hg : Guarded h) : Guarded t := by
  cases hm with
  | screens _ canClick asked animators result chooser =>
    refine ⟨animators ▸ hg.animators, ?_, ?_, fun hne => ?_, ?_⟩
    · rw [asked, animators]
      exact hg.asked
    · rw [canClick, asked, animators]
      exact hg.idle
    · rw [canClick, result]
      exact chooser hne
    · rw [result, canClick]
      exact hg.result
  | clicked click chooser result => exact click.guarded hg chooser result
  | dropped _ _ canClick asked animators chooser result =>
    refine ⟨animators ▸ hg.animators, ?_, ?_, fun hne => absurd chooser hne, fun hne => absurd result hne⟩
    · rw [asked, animators]
      exact hg.asked
    · rw [canClick, asked, animators]
      exact hg.idle
  | granted was _ canClick asked animators chooser result =>
    obtain ⟨hbusy, hclosed, hnone⟩ := hg.waiting was
    refine ⟨?_, fun ha => ?_, fun hc => ?_, fun hne => absurd (chooser.trans hclosed) hne,
      fun hne => absurd (result.trans hnone) hne⟩
    · rw [animators, hg.asked was]
    · rw [asked] at ha
      cases ha
    · rw [canClick, hbusy] at hc
      cases hc
  | denied was _ canClick asked animators chooser result =>
    obtain ⟨-, hclosed, hnone⟩ := hg.waiting was
    have hani := animators.trans (hg.asked was)
    exact ⟨animators ▸ hg.animators, fun _ => hani, fun _ => ⟨asked, hani⟩,
      fun hne => absurd (chooser.trans hclosed) hne, fun hne => absurd (result.trans hnone) hne⟩
  | ended was _ canClick asked animators chooser result =>
    have hani : t.animators = 0 := animators.trans (Nat.sub_eq_zero_of_le hg.animators)
    have hask : t.asked = false := by
      by_contra ha
      rw [asked, Bool.not_eq_false] at ha
      exact was (hg.asked ha)
    refine ⟨hani ▸ Nat.zero_le 1, fun _ => hani, fun _ => ⟨hask, hani⟩, fun hne => ⟨canClick, ?_⟩, fun _ => canClick⟩
    rw [chooser] at hne
    exact result.trans (hg.chooser hne).2
  | chosen _ _ was _ _ canClick asked animators chooser =>
    refine ⟨animators ▸ hg.animators, ?_, ?_, fun hne => absurd chooser hne, fun _ => canClick.trans (hg.chooser was).1⟩
    · rw [asked, animators]
      exact hg.asked
    · rw [canClick, asked, animators]
      exact hg.idle

theorem guarded_step (h : Home) (e : Event) (t : Home) (hg : Guarded h) (hs : h.step info e = some t) : Guarded t := by
  cases he : e.isReport with
  | false => exact (move_of_step hg he hs).guarded hg
  | true =>
    cases e with
    | onServiceConnected => exact (reported_of_bind hs).guarded hg
    | stateChanged => exact (reported_of_report hs).guarded hg
    | _ => cases he

/-- A new `HomeAc`, in a process that may have connected before. -/
def opened (c : ConnectServer) : Home := { initial with server := c }

theorem guarded_opened (c : ConnectServer) : Guarded (opened c) :=
  guarded_initial.congr rfl rfl rfl rfl rfl

end Home
end Riddles
