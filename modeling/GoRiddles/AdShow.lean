import GoRiddles.AdMoves
import Mathlib.Data.List.Perm.Basic
/-!
# AdShow — one full-screen ad at a time

`isShowing` is set where an ad is passed to the SDK and reset where the SDK reports on it, and the app is called back in
between.  Each call of `show` has its number, so that a completion can be told from another.
-/
namespace Riddles
namespace Ads

variable {a b : Ads} {e : Event}

/-- **One at a time, and each once**: `isShowing` tells whether the SDK owes a report, it owes one at most, and every call of
`show` so far either was completed, once, or is the one it owes the report on. -/
structure Exclusive (a : Ads) : Prop where
  showing : a.isShowing = true ↔ a.outstanding.length = 1
  single  : a.outstanding.length ≤ 1
  once    : (a.completed ++ a.outstanding.map Showing.call).Perm (List.range a.calls)

theorem exclusive_created (now : Nat) (config : MAdConfig) : Exclusive (created now config) :=
  ⟨by simp [created], by simp [created], by simp [created]⟩

theorem Exclusive.idle (h : Exclusive a) (hidle : a.isShowing = false) : a.outstanding = [] := by
  have hne : a.outstanding.length ≠ 1 := by
    intro hone
    rw [h.showing.2 hone] at hidle
    cases hidle
  have hle := h.single
  exact List.eq_nil_of_length_eq_zero (by omega)

theorem Exclusive.only (h : Exclusive a) {r : Showing} (hr : r ∈ a.outstanding) : a.outstanding = [r] := by
  have hpos := List.length_pos_of_mem hr
  have hle := h.single
  obtain ⟨r', hr'⟩ := List.length_eq_one_iff.1 (show a.outstanding.length = 1 by omega)
  rw [hr', List.mem_singleton] at hr
  rw [hr', hr]

/-- What was shown, and what was called, is as it was. -/
def Still (a b : Ads) : Prop :=
  b.isShowing = a.isShowing ∧ b.outstanding = a.outstanding ∧ b.calls = a.calls ∧ b.completed = a.completed

/-- **When a call completes**: at once if it is refused, and otherwise when the SDK reports on it. -/
def Completes (a : Ads) (e : Event) (b : Ads) : Prop :=
  match e with
  | .next =>
    match a.code with
    | .showAd _ data isOnResume _ _ :: _ =>
      b.calls = a.calls + 1 ∧
        if a.refuses data isOnResume then b.completed = a.completed ++ [a.calls] ∧ b.outstanding = a.outstanding
        else b.completed = a.completed ∧ b.outstanding.map Showing.call = [a.calls]
    | _ => Still a b
  | .report call =>
    a.outstanding.map Showing.call = [call] ∧ b.outstanding = [] ∧ b.completed = a.completed ++ [call] ∧ b.calls = a.calls
  | _ => Still a b

theorem Exclusive.still (h : Exclusive a) (hstill : Still a b) : Exclusive b := by
  obtain ⟨hshowing, houtstanding, hcalls, hcompleted⟩ := hstill
  constructor
  · rw [hshowing, houtstanding]
    exact h.showing
  · rw [houtstanding]
    exact h.single
  · rw [hcompleted, houtstanding, hcalls]
    exact h.once

/-- **One step.** -/
theorem exclusive_step (h : Exclusive a) (hstep : a.step e = some b) : Exclusive b ∧ Completes a e b := by
  cases stepped_of_step hstep with
  | @load scene code hcode =>
    have hstill : Still a ({ a with code := code }.load scene) := ⟨rfl, rfl, rfl, rfl⟩
    refine ⟨h.still hstill, ?_⟩
    simp only [Completes, hcode]
    exact hstill
  | refused hcode hrefuses =>
    refine ⟨⟨h.showing, h.single, ?_⟩, ?_⟩
    · rw [List.range_succ]
      have hswap : (a.completed ++ [a.calls] ++ a.outstanding.map Showing.call).Perm
          (a.completed ++ a.outstanding.map Showing.call ++ [a.calls]) := by
        rw [List.append_assoc, List.append_assoc]
        exact List.perm_append_comm.append_left _
      exact hswap.trans (h.once.append_right _)
    · simp only [Completes, hcode, if_pos hrefuses, and_self]
  | passed hcode hrefuses =>
    have hidle : a.isShowing = false := by
      simp only [refuses, Bool.or_eq_false_iff] at hrefuses
      exact hrefuses.2
    have hnone := h.idle hidle
    have honce := h.once
    rw [hnone] at honce
    refine ⟨⟨?_, ?_, ?_⟩, ?_⟩
    · simp [hnone]
    · simp [hnone]
    · rw [hnone, List.range_succ]
      simpa using honce.append_right [a.calls]
    · simp [Completes, hcode, hrefuses, hnone]
  | @report r hr =>
    have honly := h.only (List.mem_of_find?_eq_some hr)
    have hnone : (a.onAdComplete r).outstanding = [] := by
      simp [onAdComplete, onAdShowCompleted, setScene, honly]
    have honce := h.once
    rw [honly] at honce
    refine ⟨⟨?_, ?_, ?_⟩, ?_⟩
    · rw [hnone]
      simp [onAdComplete, onAdShowCompleted, setScene]
    · rw [hnone]
      exact Nat.zero_le 1
    · rw [hnone, List.map_nil, List.append_nil]
      exact honce
    · refine ⟨by simp [honly], hnone, rfl, rfl⟩
  | _ =>
    have hstill : Still a _ := ⟨rfl, rfl, rfl, rfl⟩
    exact ⟨h.still hstill, hstill⟩

theorem report_enabled {r : Showing} (hr : r ∈ a.outstanding) : ∃ b, a.step (.report r.call) = some b := by
  have hsome : (a.outstanding.find? (fun r' => r'.call = r.call)).isSome = true :=
    List.find?_isSome.2 ⟨r, hr, by simp⟩
  obtain ⟨r', hr'⟩ := Option.isSome_iff_exists.1 hsome
  exact ⟨a.onAdComplete r', by simp only [step, hr', Option.map_some]⟩

/-- **Full-screen ads exclude each other, and every show completes once.**  In every run of the ad module, whatever the app
calls and from whichever callback, `isShowing` is set exactly while the SDK owes a report on an ad, it never owes two, and
every call of `show` is completed exactly once: at once where it is refused, and otherwise at the report, which is always
possible. -/
theorem shows_exclusive (now : Nat) (config : MAdConfig) (es : List Event) :
    Machine.always step (fun a => Exclusive a ∧ ∀ r ∈ a.outstanding, ∃ b, a.step (.report r.call) = some b)
        (created now config) es ∧
      Machine.along step Completes (created now config) es := by
  have hkept : ∀ a e b, Exclusive a → step a e = some b → Exclusive b := fun _ _ _ h hstep => (exclusive_step h hstep).1
  constructor
  · have hexclusive := Machine.always_of_inv hkept es _ (exclusive_created now config)
    exact Machine.always_mono (fun a h => ⟨h, fun r => report_enabled⟩) es _ hexclusive
  · exact Machine.along_of_inv hkept (fun _ _ _ h hstep => (exclusive_step h hstep).2) es _ (exclusive_created now config)

end Ads
end Riddles
