import GoRiddles.TabOrder
/-!
# TabClosed — does a closed tab stay closed?

The tab grid keeps a tab's buttons until it is rebound, so a tab can be chosen or closed that is closed already.
`removeTab` looks whether the tab is listed; `changeTab` does not, and puts it back on top.  The listed tabs are those
created and not closed exactly as long as no closed tab is chosen.
-/
namespace Riddles
namespace TabManager

variable {s t : Session} {e : Event}

/-- **A closed tab is neither listed nor current, and every other tab is listed.** -/
def ClosedStayClosed (s : Session) : Prop :=
  (∀ u, s.m.Closed u → u ∉ s.m.listTabs ∧ ∀ m', s.m.getCurTab ≠ .ok (some u, m')) ∧
    ∀ u, u ∈ s.m.listTabs ↔ u < s.m.created ∧ ¬ s.m.Closed u

/-- `changeTab`, where it has an effect, is called with a listed tab. -/
def ChoosesListed (s : Session) (e : Event) : Prop :=
  ∀ u c, e = .changeTab u → s.m.isDestroyed = false → s.m.topTab = some c → c ≠ u → u ∈ s.m.tabs

/-- What carries it through a run. -/
structure Accounted (s : Session) : Prop where
  sane   : s.m.Sane
  nodup  : s.m.tabs.Nodup
  listed : ∀ u, u ∈ s.m.tabs ↔ u < s.m.created ∧ ¬ s.m.Closed u
  closed : ∀ u, s.m.Closed u → u < s.m.created

theorem getCurTab_eq {m m' : TabManager} {u : Nat} (h : m.getCurTab = .ok (some u, m')) :
    m.topTab = some u ∨ u = m.created := by
  unfold getCurTab ensureTabs newTab at h
  split at h
  · cases h
  · split at h
    · cases h
    · rename_i m₁ hm₁
      split at hm₁
      · split at hm₁
        · cases hm₁
        · rename_i tab m₂ hnew
          split at hnew
          · cases hnew
          · cases hnew
            cases hm₁
            cases h
            exact .inr rfl
      · cases hm₁
        simp only [Except.ok.injEq, Prod.mk.injEq] at h
        exact .inl h.1

theorem Accounted.closedStayClosed (h : Accounted s) : ClosedStayClosed s := by
  refine ⟨fun u hu => ?_, h.listed⟩
  have hnot : u ∉ s.m.tabs := fun hm => ((h.listed u).1 hm).2 hu
  refine ⟨hnot, fun m' hcur => ?_⟩
  rcases getCurTab_eq hcur with htop | rfl
  · exact hnot (h.sane.top u htop)
  · exact Nat.lt_irrefl _ (h.closed _ hu)

theorem Accounted.not_closed (h : Accounted s) : ¬ s.m.Closed s.m.created := by
  intro hc
  exact Nat.lt_irrefl _ (h.closed _ hc)

/-- With one tab more, the listed tabs and the new one are those not closed. -/
theorem Accounted.succ (h : Accounted s) (u : Nat) :
    u < s.m.created + 1 ∧ ¬ s.m.Closed u ↔ u ∈ s.m.tabs ∨ u = s.m.created := by
  rw [h.listed, Nat.lt_succ_iff_lt_or_eq]
  constructor
  · rintro ⟨hlt | heq, hopen⟩
    · exact .inl ⟨hlt, hopen⟩
    · exact .inr heq
  · rintro (⟨hlt, hopen⟩ | rfl)
    · exact ⟨.inl hlt, hopen⟩
    · exact ⟨.inr rfl, h.not_closed⟩

/-- A tab that is closed was created, by whatever step it was closed. -/
theorem Accounted.closed_shift (h : Accounted s) (hshift : Shift s.m e t.m) (u : Nat) (hu : t.m.Closed u) :
    u < t.m.created := by
  cases hshift with
  | quiet _ _ _ _ created closed | changed _ _ _ _ _ _ _ _ _ created closed =>
    rw [created]
    exact h.closed u ((closed u).1 hu)
  | first _ _ _ _ _ _ created closed | added _ _ _ _ _ created closed =>
    rw [created]
    exact Nat.lt_succ_of_lt (h.closed u ((closed u).1 hu))
  | removed _ v _ _ listed _ _ _ created closed =>
    rw [created]
    rcases (closed u).1 hu with hu | rfl
    · exact h.closed u hu
    · exact h.sane.created u listed
  | removedLast _ v _ _ listed _ _ _ created closed =>
    rw [created]
    rcases (closed u).1 hu with hu | rfl
    · exact Nat.lt_succ_of_lt (h.closed u hu)
    · exact Nat.lt_succ_of_lt (h.sane.created u listed)
  | destroyed _ _ _ _ created closed =>
    rw [created]
    rcases (closed u).1 hu with hu | hu
    · exact h.closed u hu
    · exact h.sane.created u hu

theorem accounted_step (s : Session) (e : Event) (t : Session) (h : Accounted s) (hon : ChoosesListed s e)
    (hs : step s e = some t) : Accounted t := by
  obtain ⟨hshift, hsane, -⟩ := shift_of_step h.sane hs
  have hclosed := h.closed_shift hshift
  cases hshift with
  | quiet _ _ tabs _ created closed =>
    refine ⟨hsane, tabs ▸ h.nodup, fun u => ?_, hclosed⟩
    rw [tabs, created, closed]
    exact h.listed u
  | first _ _ _ nil tabs _ created closed =>
    refine ⟨hsane, tabs ▸ List.nodup_singleton _, fun u => ?_, hclosed⟩
    rw [tabs, created, closed, h.succ, nil]
    simp
  | added _ _ _ tabs _ created closed =>
    refine ⟨hsane, ?_, fun u => ?_, hclosed⟩
    · rw [tabs, ← List.concat_eq_append]
      exact h.nodup.concat (fun hx => Nat.lt_irrefl _ (h.sane.created _ hx))
    · rw [tabs, created, closed, h.succ, List.mem_append, List.mem_singleton]
  | changed _ v c event live was other tabs _ created closed =>
    have hv := hon v c event live was other
    refine ⟨hsane, ?_, fun u => ?_, hclosed⟩
    · rw [tabs, List.nodup_cons]
      exact ⟨h.nodup.not_mem_erase, h.nodup.erase v⟩
    · rw [tabs, created, closed, ← h.listed, List.mem_cons, h.nodup.mem_erase_iff]
      by_cases huv : u = v <;> simp [huv, hv]
  | removed _ v _ _ _ _ tabs _ created closed =>
    refine ⟨hsane, tabs ▸ h.nodup.erase v, fun u => ?_, hclosed⟩
    rw [tabs, created, closed, h.nodup.mem_erase_iff, h.listed, not_or]
    exact ⟨fun ⟨hne, hlt, hnc⟩ => ⟨hlt, hnc, hne⟩, fun ⟨hlt, hnc, hne⟩ => ⟨hne, hlt, hnc⟩⟩
  | removedLast _ v _ _ listed left tabs _ created closed =>
    refine ⟨hsane, tabs ▸ List.nodup_singleton _, fun u => ?_, hclosed⟩
    have hnone : ¬ (u ≠ v ∧ u ∈ s.m.tabs) := by
      rw [← h.nodup.mem_erase_iff, left]
      exact List.not_mem_nil
    have hnew : s.m.created ≠ v := fun heq => Nat.lt_irrefl _ (heq ▸ h.sane.created v listed)
    rw [tabs, created, closed, not_or, ← and_assoc, h.succ, List.mem_singleton]
    constructor
    · rintro rfl
      exact ⟨.inr rfl, hnew⟩
    · rintro ⟨hmem | heq, hne⟩
      · exact absurd ⟨hne, hmem⟩ hnone
      · exact heq
  | destroyed _ _ tabs _ created closed =>
    refine ⟨hsane, tabs ▸ List.nodup_nil, fun u => ?_, hclosed⟩
    rw [tabs, created, closed, h.listed]
    refine ⟨fun hm => absurd hm List.not_mem_nil, fun ⟨hlt, hn⟩ => ?_⟩
    by_cases hc : s.m.Closed u
    · exact absurd (.inl hc) hn
    · exact absurd (.inr ⟨hlt, hc⟩) hn

theorem accounted_start (context : Nat) : Accounted (start context) := by
  refine ⟨sane_new context, List.nodup_nil, fun u => ⟨fun h => ?_, fun h => ?_⟩, fun u h => ?_⟩
  · cases h
  · exact absurd h.1 (Nat.not_lt_zero u)
  · cases h

theorem sane_step (s : Session) (e : Event) (t : Session) (h : s.m.Sane) (hs : step s e = some t) : t.m.Sane :=
  (shift_of_step h hs).2.1

theorem choosesListed_of_closedStayClosed (hsane : s.m.Sane) (h : ClosedStayClosed s) (ht : ClosedStayClosed t)
    (hs : step s e = some t) : ChoosesListed s e := by
  rintro u c rfl hlive htop hne
  by_contra hnot
  obtain ⟨hshift, -, -⟩ := shift_of_step hsane hs
  have hknown : u < s.m.created := by
    unfold step at hs
    split at hs
    · rename_i hk
      exact of_decide_eq_true hk
    · cases hs
  have hclosed : s.m.Closed u := by
    by_contra hopen
    exact hnot ((h.2 u).2 ⟨hknown, hopen⟩)
  cases hshift with
  | quiet _ idle =>
    rcases idle with hd | hnone | hsame
    · rw [hlive] at hd
      cases hd
    · rw [htop] at hnone
      cases hnone
    · rw [htop] at hsame
      exact hne (Option.some.inj hsame)
  | first _ event | added _ event | removed _ _ event | removedLast _ _ event | destroyed event => cases event
  | changed _ v _ event _ _ _ tabs _ _ closed =>
    cases event
    refine (ht.1 u ((closed u).2 hclosed)).1 ?_
    rw [listTabs, tabs]
    exact List.mem_cons_self

/-- **When closed tabs stay closed.**  In a run of any operations with any tabs ever created, closed tabs are never listed
or current again and the list is what was created and not closed, if and only if `changeTab` is never called, where it
has an effect, with a tab that is not listed. -/
theorem closed_tabs_stay_closed_iff (context : Nat) (es : List Event) :
    Machine.always step ClosedStayClosed (start context) es ↔
      Machine.along step (fun s e _ => ChoosesListed s e) (start context) es := by
  constructor
  · intro h
    have hsane := Machine.always_of_inv sane_step es (start context) (sane_new context)
    refine Machine.along_of_always (fun s e t hs ht hstep => ?_) es _ (Machine.always_and es _ hsane h)
    exact choosesListed_of_closedStayClosed hs.1 hs.2 ht.2 hstep
  · intro h
    have hinv := Machine.always_of_along accounted_step es _ (accounted_start context) h
    exact Machine.always_mono (fun _ h => h.closedStayClosed) es _ hinv

/-- **A closed tab comes back**: it is closed, then chosen from a grid that still shows it. -/
theorem closed_tab_comes_back :
    (Machine.run step (start 0) [.getCurTab, .addTab, .removeTab 1, .changeTab 1]).map
      (fun s => (s.m.listTabs, s.m.topTab, s.m.calls.contains (.onLayoutDestroy 1))) = some ([1, 0], some 1, true) ∧
    ¬ Machine.always step ClosedStayClosed (start 0) [.getCurTab, .addTab, .removeTab 1, .changeTab 1] := by
  have hrun : (Machine.run step (start 0) [.getCurTab, .addTab, .removeTab 1, .changeTab 1]).map
      (fun s => (s.m.listTabs, s.m.topTab, s.m.calls.contains (.onLayoutDestroy 1))) = some ([1, 0], some 1, true) := by
    decide
  refine ⟨hrun, fun hall => ?_⟩
  obtain ⟨t, ht, hval⟩ := Option.map_eq_some_iff.1 hrun
  simp only [Prod.mk.injEq] at hval
  obtain ⟨hlist, -, hcalls⟩ := hval
  refine ((Machine.always_last _ _ hall ht).1 1 (List.contains_iff_mem.1 hcalls)).1 ?_
  rw [hlist]
  exact List.mem_cons_self

end TabManager
end Riddles
