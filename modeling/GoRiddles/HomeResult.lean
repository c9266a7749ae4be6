import GoRiddles.HomeMoves
import Mathlib.Data.List.Nodup
/-!
# HomeResult — when the result page is opened

The end of an animation looks at the connection and may start `ResultAc`.  A `ClickLedger` is written beside the home
screen: the clicks accepted so far are numbered, and the permission request and the animations outstanding, and every start
of `ResultAc`, are booked under the click they come from.  No click opens the page twice, and the screen refuses clicks
only while something of the last accepted one is outstanding.  `onDestroy` cancels a running animation, though, which ends
it, and its end opens the page from a screen that is being torn down.
-/
namespace Riddles
namespace Home

structure ClickLedger where
  clicks      : Nat
  /-- The click of the permission request that is outstanding. -/
  askedBy     : Option Nat
  /-- The clicks of the animations that are running. -/
  animatorsBy : List Nat
  /-- The clicks that `ResultAc` was started for. -/
  resultsBy   : List Nat
  deriving DecidableEq, Repr

namespace ClickLedger

def empty : ClickLedger := ⟨0, none, [], []⟩

/-- `clickConnect` was called on `h` and left `t`: what it started is booked under the new click. -/
def click (l : ClickLedger) (h t : Home) : ClickLedger :=
  if h.canClick then
    { l with
      clicks := l.clicks + 1
      askedBy := if t.asked then some (l.clicks + 1) else none
      animatorsBy := l.animatorsBy ++ List.replicate (t.animators - h.animators) (l.clicks + 1) }
  else l

/-- The permission request was answered: an animation it started is its click's. -/
def answer (l : ClickLedger) (h t : Home) : ClickLedger :=
  { l with
    askedBy := none
    animatorsBy := l.animatorsBy ++ List.replicate (t.animators - h.animators) (l.askedBy.getD 0) }

/-- An animation ended: a page it opened is its click's. -/
def ended (l : ClickLedger) (h t : Home) : ClickLedger :=
  { l with
    animatorsBy := l.animatorsBy.drop (h.animators - t.animators)
    resultsBy := l.resultsBy ++ l.animatorsBy.take (t.results.length - h.results.length) }

def book (l : ClickLedger) (h : Home) (e : Event) (t : Home) : ClickLedger :=
  match e with
  | .connectBtn _ _ => if h.drawerOpen then l else l.click h t
  | .onActivityResult _ _ => if h.result = some .empty then l else l.click h t
  | .registerResult _ => l.answer h t
  | .animationEnd _ | .onDestroy _ => l.ended h t
  | _ => l

end ClickLedger

def bookedStep (info : ServerInfoManager) (s : Home × ClickLedger) (e : Event) : Option (Home × ClickLedger) :=
  (s.1.step info e).map (fun t => (t, s.2.book s.1 e t))

variable {info : ServerInfoManager} {h t : Home} {l : ClickLedger} {e : Event}

/-! ## What the events do to the page -/

theorem results_clickConnect (h : Home) (netStatus : Nat) (prepared : Bool) :
    (h.clickConnect netStatus prepared).results = h.results := by
  unfold clickConnect
  split
  · rfl
  · dsimp only
    split
    · rfl
    · split
      · rfl
      · split <;> rfl

def reached (h : Home) : Bool := if h.connect then h.server.isConnected else h.server.isDisconnected

theorem results_animationEnd (h : Home) (goFront : Bool) :
    (h.animationEnd goFront).results = h.results ++ (if h.reached && goFront then [h.connect] else []) := by
  unfold animationEnd checkConnectResult jumpToResult reached
  cases hc : h.connect with
  | true =>
    by_cases hb : h.server.isConnected = true
    · cases goFront <;> simp [hb, updateConnectedUI]
    · simp [hb, updateStoppedUI, showToast]
  | false =>
    by_cases hb : h.server.isDisconnected = true
    · cases goFront <;> simp [hb, updateStoppedUI, updateServerInfo]
    · simp [hb, updateStoppedUI, showToast]

theorem step_connectBtn {netStatus : Nat} {prepared : Bool} (hs : h.step info (.connectBtn netStatus prepared) = some t) :
    t = if h.drawerOpen then h else h.clickConnect netStatus prepared := by
  unfold step at hs
  split at hs
  · cases hs
  · simp only [Option.ite_none_right_eq_some, Option.some.injEq] at hs
    exact hs.2.symm

/-- Nothing of a click is started or ended. -/
structure Still (h t : Home) : Prop where
  canClick  : t.canClick = h.canClick
  asked     : t.asked = h.asked
  animators : t.animators = h.animators
  results   : t.results = h.results

theorem still_onServiceConnected (h : Home) (state : State) : Still h (h.onServiceConnected state) := by
  unfold onServiceConnected
  dsimp only
  split <;> exact ⟨rfl, rfl, rfl, rfl⟩

theorem still_stateChanged (h : Home) (state : State) : Still h (h.stateChanged state) := by
  unfold stateChanged disconnectSuccess
  dsimp only
  repeat' split
  all_goals exact ⟨rfl, rfl, rfl, rfl⟩

theorem still_onBackPressed (h : Home) : Still h h.onBackPressed := by
  unfold onBackPressed
  split <;> exact ⟨rfl, rfl, rfl, rfl⟩

theorem still_click (h : Home) (bean : ServerBean) : Still h (h.click bean) := by
  unfold click chooseServer
  repeat' split
  all_goals exact ⟨rfl, rfl, rfl, rfl⟩

/-! ## The ledger -/

/-- **The ledger is kept**: what is outstanding is the last accepted click's, the pages opened are all booked, each under
another click, and the last click has opened none while something of it is outstanding; a screen that refuses clicks has
something outstanding. -/
structure Booked (h : Home) (l : ClickLedger) : Prop where
  guarded   : Guarded h
  asked     : l.askedBy = if h.asked then some l.clicks else none
  animators : l.animatorsBy = List.replicate h.animators l.clicks
  results   : l.resultsBy.length = h.results.length
  nodup     : l.resultsBy.Nodup
  le        : ∀ c ∈ l.resultsBy, c ≤ l.clicks
  fresh     : h.asked = true ∨ h.animators ≠ 0 → l.clicks ∉ l.resultsBy
  busy      : h.canClick = false → h.asked = true ∨ h.animators ≠ 0

theorem booked_opened (c : ConnectServer) : Booked (opened c) .empty where
  guarded   := guarded_opened c
  asked     := rfl
  animators := rfl
  results   := rfl
  nodup     := List.nodup_nil
  le _ hc   := by cases hc
  fresh _   := by simp [ClickLedger.empty]
  busy hf   := by cases hf

theorem Booked.still (hb : Booked h l) (hg : Guarded t) (hs : Still h t) : Booked t l := by
  refine ⟨hg, ?_, ?_, ?_, hb.nodup, hb.le, ?_, ?_⟩
  · rw [hs.asked]
    exact hb.asked
  · rw [hs.animators]
    exact hb.animators
  · rw [hs.results]
    exact hb.results
  · rw [hs.asked, hs.animators]
    exact hb.fresh
  · rw [hs.canClick, hs.asked, hs.animators]
    exact hb.busy

theorem Booked.next_fresh (hb : Booked h l) : l.clicks + 1 ∉ l.resultsBy := by
  intro hmem
  have := hb.le _ hmem
  omega

theorem Booked.click (hb : Booked h l) (hg : Guarded t) (hc : Clicked h t) (results : t.results = h.results) :
    Booked t (l.click h t) := by
  have hle : ∀ c ∈ l.resultsBy, c ≤ l.clicks + 1 := fun c hmem => Nat.le_succ_of_le (hb.le c hmem)
  have hresults : l.resultsBy.length = t.results.length := by
    rw [results]
    exact hb.results
  -- an accepted click finds nothing outstanding
  have hidle : h.canClick = true → h.asked = false ∧ h.animators = 0 ∧ l.animatorsBy = [] := by
    intro hfree
    obtain ⟨hask, hani⟩ := hb.guarded.idle hfree
    refine ⟨hask, hani, ?_⟩
    rw [hb.animators, hani]
    rfl
  unfold ClickLedger.click
  cases hc with
  | ignored blocked _ canClick asked animators =>
    rw [if_neg (by rw [blocked]; exact Bool.false_ne_true)]
    exact hb.still hg ⟨canClick.trans blocked.symm, asked, animators, results⟩
  | refused free _ _ canClick asked animators =>
    obtain ⟨hask, hani, hby⟩ := hidle free
    rw [if_pos free]
    refine ⟨hg, ?_, ?_, hresults, hb.nodup, hle, fun _ => hb.next_fresh, fun hf => ?_⟩
    · simp [asked, hask]
    · simp [animators, hani, hby]
    · rw [canClick] at hf
      cases hf
  | asks free _ _ canClick asked animators =>
    obtain ⟨-, hani, hby⟩ := hidle free
    rw [if_pos free]
    refine ⟨hg, ?_, ?_, hresults, hb.nodup, hle, fun _ => hb.next_fresh, fun _ => Or.inl asked⟩
    · simp [asked]
    · simp [animators, hani, hby]
  | disconnects free _ _ canClick asked animators | connects free _ _ canClick asked animators =>
    obtain ⟨hask, hani, hby⟩ := hidle free
    rw [if_pos free]
    refine ⟨hg, ?_, ?_, hresults, hb.nodup, hle, fun _ => hb.next_fresh, fun _ => Or.inr ?_⟩
    · simp [asked, hask]
    · simp [animators, hani, hby]
    · simp [animators]

theorem Booked.answer (hb : Booked h l) (hasked : h.asked = true) (it : Bool)
    (hg : Guarded ({ h with asked := false }.registerResult it)) :
    Booked ({ h with asked := false }.registerResult it) (l.answer h ({ h with asked := false }.registerResult it)) := by
  have hani : h.animators = 0 := hb.guarded.asked hasked
  have hby : l.animatorsBy = [] := by
    rw [hb.animators, hani]
    rfl
  have haskedBy : l.askedBy = some l.clicks := by
    rw [hb.asked, hasked]
    rfl
  have hfresh := hb.fresh (Or.inl hasked)
  unfold registerResult at hg ⊢
  split at hg
  · rename_i hgranted
    rw [if_pos hgranted]
    refine ⟨hg, rfl, ?_, hb.results, hb.nodup, hb.le, fun _ => hfresh, fun _ => Or.inr ?_⟩
    · simp [ClickLedger.answer, connectServer, startConnectAnimator, updateConnectingUI, hani, hby, haskedBy]
    · simp [connectServer, startConnectAnimator]
  · rename_i hrefused
    rw [if_neg hrefused]
    refine ⟨hg, rfl, ?_, hb.results, hb.nodup, hb.le, fun _ => hfresh, fun hf => ?_⟩
    · simp [ClickLedger.answer, showToast, hani, hby]
    · cases hf

/-- **The end of an animation** opens the page at most once, for the last accepted click. -/
theorem Booked.ended (hb : Booked h l) (hrunning : h.animators ≠ 0) (hg : Guarded t) (canClick : t.canClick = true)
    (asked : t.asked = h.asked) (animators : t.animators = h.animators - 1)
    {opens : List Bool} (hopens : opens.length ≤ 1) (results : t.results = h.results ++ opens) :
    Booked t (l.ended h t) := by
  have hone : h.animators = 1 := by
    have := hb.guarded.animators
    omega
  have hby : l.animatorsBy = [l.clicks] := by
    rw [hb.animators, hone]
    rfl
  have hask : h.asked = false := by
    by_contra ha
    rw [Bool.not_eq_false] at ha
    exact hrunning (hb.guarded.asked ha)
  have hfresh := hb.fresh (Or.inr hrunning)
  have hnew : t.results.length - h.results.length = opens.length := by
    rw [results, List.length_append]
    omega
  have htake : ∀ c ∈ l.animatorsBy.take opens.length, c = l.clicks := by
    intro c hc
    have hmem := List.mem_of_mem_take hc
    rw [hby, List.mem_singleton] at hmem
    exact hmem
  have hidle : ¬ (t.asked = true ∨ t.animators ≠ 0) := by
    rw [asked, hask, animators, hone]
    simp
  unfold ClickLedger.ended
  rw [hnew]
  refine ⟨hg, ?_, ?_, ?_, ?_, ?_, fun hout => absurd hout hidle, fun hf => ?_⟩
  · rw [asked]
    exact hb.asked
  · simp [hby, animators, hone]
  · simp only [List.length_append, List.length_take, hby, List.length_singleton, results, hb.results]
    omega
  · rw [List.nodup_append]
    refine ⟨hb.nodup, ?_, ?_⟩
    · rw [hby]
      exact (List.nodup_singleton l.clicks).sublist (List.take_sublist _ _)
    · intro a ha b hbm hab
      rw [hab, htake b hbm] at ha
      exact hfresh ha
  · intro c hc
    rcases List.mem_append.1 hc with hc | hc
    · exact hb.le c hc
    · exact Nat.le_of_eq (htake c hc)
  · rw [canClick] at hf
    cases hf

theorem length_opens (c : Bool) (connect : Bool) : (if c then [connect] else []).length ≤ 1 := by
  cases c <;> simp

/-- A screen torn down ends the animation that is running, if one is. -/
theorem Booked.destroy (hb : Booked h l) (goFront : Bool) (hg : Guarded (h.onDestroy goFront)) :
    Booked (h.onDestroy goFront) (l.ended h (h.onDestroy goFront)) := by
  by_cases hrunning : h.animators = 0
  · have hsame : h.onDestroy goFront = { h with destroyed := true } := by
      unfold onDestroy
      rw [if_pos hrunning]
    have hledger : l.ended h { h with destroyed := true } = l := by simp [ClickLedger.ended]
    rw [hsame] at hg ⊢
    rw [hledger]
    exact hb.still hg ⟨rfl, rfl, rfl, rfl⟩
  · have hend : h.onDestroy goFront = { h.animationEnd goFront with destroyed := true } := by
      unfold onDestroy
      rw [if_neg hrunning]
    obtain ⟨-, hcan, hask, hani, -, -⟩ := animationEnd_fields h goFront
    rw [hend] at hg ⊢
    exact hb.ended hrunning hg hcan hask hani (length_opens _ _) (results_animationEnd h goFront)

theorem booked_step (s : Home × ClickLedger) (e : Event) (t : Home × ClickLedger) (hb : Booked s.1 s.2)
    (hs : bookedStep info s e = some t) : Booked t.1 t.2 := by
  obtain ⟨h, l⟩ := s
  obtain ⟨t, hstep, rfl⟩ := Option.map_eq_some_iff.1 hs
  have hg : Guarded t := guarded_step h e t hb.guarded hstep
  show Booked t (l.book h e t)
  cases e with
  | connectBtn netStatus prepared =>
    have ht := step_connectBtn hstep
    unfold ClickLedger.book
    dsimp only
    by_cases hdrawer : h.drawerOpen = true
    · rw [if_pos hdrawer] at ht ⊢
      rw [ht]
      exact hb
    · rw [if_neg hdrawer] at ht ⊢
      subst ht
      exact hb.click hg (clickConnect_spec h netStatus prepared).1 (results_clickConnect h netStatus prepared)
  | onActivityResult netStatus prepared =>
    unfold ClickLedger.book
    dsimp only
    cases stepped_of_step hstep with
    | @onActivityResult action _ _ hresult =>
      cases action with
      | empty =>
        rw [if_pos hresult]
        exact hb.still hg ⟨rfl, rfl, rfl, rfl⟩
      | connect =>
        rw [if_neg (by rw [hresult]; simp)]
        have hc := (clickConnect_spec { h with result := none }.updateServerInfo netStatus prepared).1
        exact hb.click hg (hc.congr rfl rfl rfl rfl) (results_clickConnect _ netStatus prepared)
      | disconnect =>
        rw [if_neg (by rw [hresult]; simp)]
        have hc := (clickConnect_spec { h with result := none } netStatus prepared).1
        exact hb.click hg (hc.congr rfl rfl rfl rfl) (results_clickConnect _ netStatus prepared)
  | registerResult it =>
    cases stepped_of_step hstep with
    | registerResult _ hasked => exact hb.answer hasked it hg
  | animationEnd goFront =>
    cases stepped_of_step hstep with
    | animationEnd _ running =>
      obtain ⟨-, hcan, hask, hani, -, -⟩ := animationEnd_fields h goFront
      exact hb.ended running hg hcan hask hani (length_opens _ _) (results_animationEnd h goFront)
  | onDestroy goFront =>
    cases stepped_of_step hstep
    exact hb.destroy goFront hg
  | onServiceConnected state =>
    cases stepped_of_step hstep
    exact hb.still hg (still_onServiceConnected h state)
  | stateChanged state =>
    cases stepped_of_step hstep
    exact hb.still hg (still_stateChanged h state)
  | onBackPressed =>
    cases stepped_of_step hstep
    exact hb.still hg (still_onBackPressed h)
  | row position =>
    cases stepped_of_step hstep with
    | @row _ bean => exact hb.still hg (still_click h bean)
  | chooseServerBtn | setBtn | drawerClosed | sure | cancel | listBack | tick =>
    cases stepped_of_step hstep <;> exact hb.still hg ⟨rfl, rfl, rfl, rfl⟩

/-! ## The page -/

/-- **One page for a click**: every start of `ResultAc` is booked, no two under one click, and clicks are refused only while
the permission request or an animation of the last accepted click is outstanding. -/
structure OpensOnce (h : Home) (l : ClickLedger) : Prop where
  booked : l.resultsBy.length = h.results.length
  once   : l.resultsBy.Nodup
  busy   : h.canClick = false →
    h.asked = true ∧ l.askedBy = some l.clicks ∨ h.animators ≠ 0 ∧ ∀ c ∈ l.animatorsBy, c = l.clicks

theorem Booked.opensOnce (hb : Booked h l) : OpensOnce h l := by
  refine ⟨hb.results, hb.nodup, fun hf => ?_⟩
  rcases hb.busy hf with hasked | hrunning
  · left
    rw [hb.asked, hasked]
    exact ⟨rfl, rfl⟩
  · right
    refine ⟨hrunning, fun c hc => ?_⟩
    rw [hb.animators] at hc
    exact List.eq_of_mem_replicate hc

/-- **A live screen only**: `onDestroy` starts no page. -/
def OpensAlive (h : Home) (e : Event) (t : Home) : Prop := ∀ goFront, e = .onDestroy goFront → t.results = h.results

/-- The screen is torn down with no animation running, or with the app not in front, or before the connection is what the
animation waits for. -/
def LeavesQuietly (h : Home) (e : Event) : Prop :=
  ∀ goFront, e = .onDestroy goFront → h.animators = 0 ∨ goFront = false ∨
    (if h.connect then h.server.isConnected else h.server.isDisconnected) = false

theorem results_onDestroy (h : Home) (goFront : Bool) :
    (h.onDestroy goFront).results =
      h.results ++ (if h.animators ≠ 0 ∧ (h.reached && goFront) = true then [h.connect] else []) := by
  unfold onDestroy
  by_cases hrunning : h.animators = 0
  · simp [hrunning]
  · rw [if_neg hrunning]
    simp [hrunning, results_animationEnd]

theorem opensAlive_iff (hs : h.step info e = some t) : OpensAlive h e t ↔ LeavesQuietly h e := by
  unfold OpensAlive LeavesQuietly
  refine forall_congr' (fun goFront => imp_congr_right (fun he => ?_))
  subst he
  cases stepped_of_step hs
  rw [results_onDestroy]
  have hreached : h.reached = if h.connect then h.server.isConnected else h.server.isDisconnected := rfl
  rw [← hreached]
  by_cases hrunning : h.animators = 0
  · simp [hrunning]
  · cases goFront
    · simp
    · cases h.reached <;> simp [hrunning]

/-- **The result page opens once, and from a live screen, if and only if the screen is left quietly.**  In every run of a
home screen, whatever the order of clicks, answers, picks, reports and ends of animations, and whenever it is torn down. -/
theorem result_once_iff (info : ServerInfoManager) (c : ConnectServer) (es : List Event) :
    Machine.along (bookedStep info) (fun s e t => OpensOnce t.1 t.2 ∧ OpensAlive s.1 e t.1) (opened c, .empty) es ↔
      Machine.along (bookedStep info) (fun s e _ => LeavesQuietly s.1 e) (opened c, .empty) es := by
  refine Machine.along_iff_along booked_step (fun s e t hb hs => ?_) es _ (booked_opened c)
  have hopens := (booked_step s e t hb hs).opensOnce
  obtain ⟨t, hstep, rfl⟩ := Option.map_eq_some_iff.1 hs
  rw [← opensAlive_iff hstep]
  exact ⟨fun hboth => hboth.2, fun halive => ⟨hopens, halive⟩⟩

/-- **A page from a screen that is gone**: the screen is left in the middle of the animation, the tunnel being up. -/
theorem result_from_destroyed :
    ∃ h t, Machine.run (step oneServer) initial [.connectBtn 0 true, .stateChanged .connected] = some h ∧
      h.step oneServer (.onDestroy true) = some t ∧ h.results = [] ∧ t.results = [true] ∧
      ¬ OpensAlive h (.onDestroy true) t := by
  refine ⟨_, _, rfl, rfl, rfl, rfl, fun halive => ?_⟩
  have hsame := halive true rfl
  revert hsame
  decide

end Home
end Riddles
