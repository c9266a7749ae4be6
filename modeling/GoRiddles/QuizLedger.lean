import GoRiddles.QuizMoves
/-!
# QuizLedger — coins and free tips

Answers, reward ads and any number of tips dialogs write the same stored counters.  `Booking` says what a step books and
what it does to the counters; summed over a run it gives the coin ledger, which is exact, and the free-tip ledger, which
is exact as long as no dialog spends a free tip that another has spent in the meantime.
-/
namespace Riddles

/-- What an entry credits. -/
def Entry.credit : Entry → Int
  | .paid _ increase => increase
  | .adReward        => 40
  | _                => 0

/-- What an entry charges. -/
def Entry.charge : Entry → Int
  | .paidTip price => price
  | _              => 0

def credits (log : List Entry) : Int := (log.map Entry.credit).sum

def charges (log : List Entry) : Int := (log.map Entry.charge).sum

/-- The tips revealed without coins. -/
def freeTips (log : List Entry) : Nat := log.countP (· = .freeTip)

@[simp] theorem credits_append (l l' : List Entry) : credits (l ++ l') = credits l + credits l' := by
  simp [credits]

@[simp] theorem charges_append (l l' : List Entry) : charges (l ++ l') = charges l + charges l' := by
  simp [charges]

@[simp] theorem freeTips_append (l l' : List Entry) : freeTips (l ++ l') = freeTips l + freeTips l' := by
  simp [freeTips]

namespace Quiz

open Usr (attr_increaseCoin attr_deductCoin attr_deductFreeTipsOpportunity)

variable {lib : Library} {s t : Quiz} {e : Event}

@[simp] theorem usr_opened (usr : Usr) (log : List Entry) : (opened usr log).usr = usr := by
  unfold opened
  simp only
  split <;> rfl

@[simp] theorem log_opened (usr : Usr) (log : List Entry) : (opened usr log).log = log := by
  unfold opened
  simp only
  split <;> rfl

theorem crashed_opened {usr : Usr} {log : List Entry} {x : Thrown} (h : (opened usr log).crashed = some x) :
    checkLevelValue usr.getLevel = .error x := by
  unfold opened at h
  simp only at h
  split at h
  · rename_i y hy
    cases h
    exact hy
  · cases h

@[simp] theorem attr_flagged (s : Quiz) (a : Attr) : s.flagged.sp.attr a = s.usr.sp.attr a := by
  unfold flagged
  split
  · rfl
  · exact attr_setAnswered _ _ a

theorem increase_flagged (s : Quiz) : increase s.flagged = increase s.usr := by
  unfold increase Usr.getLevel
  rw [attr_flagged]

/-- The event is a choice, and it hits the right option. -/
def hits (s : Quiz) : Event → Bool
  | .onOption c => s.data.rightOptionIndex == c
  | _ => false

theorem hits_plain (h : e.isPlain = true) : s.hits e = false ∧ e ≠ .adReward := by
  cases e with
  | onOption | adReward => cases h
  | _ => exact ⟨rfl, by simp⟩

/-- The reward: the coins first, then the experience, whose failure leaves the coins. -/
structure Reward (s t : Quiz) (inc : Int) (u : Usr) : Prop where
  inc_eq : inc = increase s.usr
  coin   : u.getCoinCount = wrap (s.usr.getCoinCount + inc)
  frame  : ∀ a, a ≠ .usrCoinCount → u.sp.attr a = s.usr.sp.attr a
  exp    : (u.increaseExperience inc = .ok t.usr ∧ t.crashed = none) ∨
    ∃ x, u.increaseExperience inc = .error x ∧ t.usr = u ∧ t.crashed = some x

/-- **What a step books**, with what it does to the counters. -/
inductive Booking (s : Quiz) (e : Event) (t : Quiz) : List Entry → Prop
  | nothing (usr : t.usr = s.usr) (tips : ∀ k i, e = .viewTips k i → t.tips = s.tips)
      (crashed : ∀ x, t.crashed = some x → x = .noSuchElement ∨ x = tipsIndexError ∨
        checkLevelValue s.usr.getLevel = .error x) (other : s.hits e = false ∧ e ≠ .adReward) : Booking s e t []
  | paid (text : Option Text) (inc : Int) (u : Usr) (reward : Reward s t inc u) (hit : s.hits e = true) :
      Booking s e t [.paid text inc]
  | adReward (usr : t.usr = s.usr.increaseCoin 40) (crashed : t.crashed = none) (event : e = .adReward) :
      Booking s e t [.adReward]
  | freeTip (usr : t.usr = s.usr.deductFreeTipsOpportunity) (k : Nat) (tip : ViewTipsData) (i : Int)
      (event : e = .viewTips k i) (dialog : s.tips[k]? = some tip) (offered : 0 < tip.mFreeTipsOpportunity)
      (crashed : t.crashed = none) : Booking s e t [.freeTip]
  | paidTip (k : Nat) (i price : Int) (event : e = .viewTips k i) (priced : ViewTipsData.deductCoin i = .ok price)
      (enough : price ≤ s.usr.getCoinCount) (usr : t.usr = s.usr.deductCoin price) (crashed : t.crashed = none) :
      Booking s e t [.paidTip price]

theorem booking_of_kept {new : List Entry} (h : Kept s t) (hc : t.crashed = none)
    (hother : s.hits e = false ∧ e ≠ .adReward) (hnew : new = []) : t.log = s.log ++ new ∧ Booking s e t new := by
  subst hnew
  refine ⟨by rw [h.log, List.append_nil], .nothing h.usr (fun _ _ _ => h.tips) (fun x hx => ?_) hother⟩
  rw [hc] at hx
  cases hx

theorem Turn.booking (h : Turn lib s e t) : ∃ new, t.log = s.log ++ new ∧ Booking s e t new := by
  cases h with
  | idle _ _ kept crashed plain =>
    exact ⟨[], by rw [kept.log, List.append_nil], .nothing kept.usr (fun _ _ _ => kept.tips) crashed (hits_plain plain)⟩
  | draw _ _ _ event _ _ _ _ kept crashed =>
    subst event
    exact ⟨[], booking_of_kept kept crashed (hits_plain rfl) rfl⟩
  | loaded _ _ _ _ _ kept crashed plain | go _ _ _ kept crashed plain | launch _ _ _ _ kept crashed plain =>
    exact ⟨[], booking_of_kept kept crashed (hits_plain plain) rfl⟩
  | wrong c _ miss _ _ kept crashed event =>
    subst event
    exact ⟨[], booking_of_kept kept crashed ⟨beq_eq_false_iff_ne.2 miss, by simp⟩ rfl⟩
  | reset _ _ _ kept crashed event =>
    subst event
    exact ⟨[], booking_of_kept kept crashed ⟨rfl, by simp⟩ rfl⟩
  | right c u _ hit _ _ rewarded event =>
    subst event
    refine ⟨_, rewarded.log, .paid _ _ u ⟨increase_flagged s, ?_, ?_, rewarded.exp⟩ (beq_iff_eq.2 hit)⟩
    · rw [rewarded.coin, Usr.getCoinCount, attr_increaseCoin, if_pos rfl, attr_flagged]
      rfl
    · intro a ha
      rw [rewarded.coin, attr_increaseCoin, if_neg ha, attr_flagged]
  | adReward _ _ usr log _ crashed event => exact ⟨_, log, .adReward usr crashed event⟩
  | openTips q tip event _ _ _ usr log _ crashed =>
    subst event
    refine ⟨[], by rw [log, List.append_nil], .nothing usr ?_ ?_ (hits_plain rfl)⟩
    · intro k i hk
      cases hk
    · intro x hx
      rw [crashed] at hx
      cases hx
  | freeTip k tip i event dialog offered _ usr log crashed =>
    exact ⟨_, log, .freeTip usr k tip i event dialog offered crashed⟩
  | paidTip k i price event priced enough _ usr log crashed =>
    exact ⟨_, log, .paidTip k i price event priced enough usr crashed⟩
  | restart event restarted =>
    subst event restarted
    refine ⟨[], by rw [log_opened, List.append_nil], .nothing (usr_opened _ _) ?_ ?_ ⟨rfl, by simp⟩⟩
    · intro k i hk
      cases hk
    · exact fun x hx => .inr (.inr (crashed_opened hx))

theorem booking_of_step (h : step lib s e = some t) : ∃ new, t.log = s.log ++ new ∧ Booking s e t new :=
  (turn_of_step h).booking

theorem Reward.attr {inc : Int} {u : Usr} (h : Reward s t inc u) (a : Attr) (h₁ : a ≠ .usrLevel) (h₂ : a ≠ .usrLevelExp) :
    t.usr.sp.attr a = u.sp.attr a := by
  rcases h.exp with ⟨hok, -⟩ | ⟨x, -, husr, -⟩
  · exact Usr.attr_increaseExperience hok a h₁ h₂
  · rw [husr]

theorem increase_cases (u : Usr) : increase u = 5 ∨ increase u = 10 := by
  unfold increase
  split
  · exact .inl rfl
  · exact .inr rfl

/-! ## Coins -/

/-- The balance is what the log says, while everything credited fits an `Int`. -/
structure Balanced (init : Int) (s : Quiz) : Prop where
  charged : 0 ≤ charges s.log
  exact   : init + credits s.log < 2 ^ 31 →
    s.usr.getCoinCount = init + credits s.log - charges s.log ∧ 0 ≤ s.usr.getCoinCount

/-- What one step does with coins: a choice of the right option, and nothing else, is paid as an answer, by the level it
was given at; the reward of an ad, and nothing else, is paid as one; a tip is free where the dialog offers a free one, and
else sold at its price to a player who has it and for exactly that; a call that reveals nothing changes nothing. -/
structure FairStep (s : Quiz) (e : Event) (t : Quiz) : Prop where
  answers : s.hits e = true ↔ ∃ text inc, t.log = s.log ++ [.paid text inc]
  answer  : ∀ text inc, t.log = s.log ++ [.paid text inc] →
    inc = if 1 ≤ s.usr.getLevel ∧ s.usr.getLevel ≤ 5 then 5 else 10
  reward  : e = .adReward ↔ t.log = s.log ++ [.adReward]
  free    : t.log = s.log ++ [.freeTip] → t.usr.getCoinCount = s.usr.getCoinCount ∧
    ∃ k i tip, e = .viewTips k i ∧ s.tips[k]? = some tip ∧ 0 < tip.mFreeTipsOpportunity
  tip     : ∀ price, t.log = s.log ++ [.paidTip price] →
    price ≤ s.usr.getCoinCount ∧ t.usr.getCoinCount = s.usr.getCoinCount - price ∧
      ∃ k i, e = .viewTips k i ∧ ((i = 0 ∧ price = 10) ∨ (i = 1 ∧ price = 15))
  refused : ∀ k i, e = .viewTips k i → t.log = s.log →
    t.usr.getCoinCount = s.usr.getCoinCount ∧ t.usr.getFreeTipsOpportunity = s.usr.getFreeTipsOpportunity ∧
      t.tips = s.tips

theorem credits_nonneg {new : List Entry} (h : Booking s e t new) : 0 ≤ credits new := by
  cases h with
  | paid text inc u reward =>
    have h := increase_cases s.usr
    rw [← reward.inc_eq] at h
    show (0 : Int) ≤ inc + 0
    omega
  | adReward => exact (by decide : (0 : Int) ≤ 40 + 0)
  | _ => exact Int.le_refl 0

theorem charges_nonneg {new : List Entry} (h : Booking s e t new) : 0 ≤ charges new := by
  cases h with
  | paidTip k i price event priced =>
    show (0 : Int) ≤ price + 0
    rcases ViewTipsData.deductCoin_ok priced with ⟨-, rfl⟩ | ⟨-, rfl⟩ <;> decide
  | _ => exact Int.le_refl 0

/-- A booking moves the balance by what it books, if the balance has room for it. -/
theorem Booking.coin {new : List Entry} (h : Booking s e t new) (h₀ : 0 ≤ s.usr.getCoinCount)
    (h₁ : s.usr.getCoinCount + credits new < 2 ^ 31) :
    t.usr.getCoinCount = s.usr.getCoinCount + credits new - charges new ∧ 0 ≤ t.usr.getCoinCount := by
  have hcr := credits_nonneg h
  cases h with
  | nothing usr =>
    rw [usr]
    show _ = s.usr.getCoinCount + 0 - 0 ∧ _
    omega
  | paid text inc u reward =>
    have hc : t.usr.getCoinCount = u.getCoinCount := reward.attr .usrCoinCount (by decide) (by decide)
    have hsum : credits [.paid text inc] = inc := Int.add_zero inc
    rw [hsum] at h₁ hcr ⊢
    rw [hc, reward.coin, wrap_of_range (by omega) (by omega)]
    show _ = s.usr.getCoinCount + inc - 0 ∧ _
    omega
  | adReward usr =>
    have hsum : credits [.adReward] = 40 := rfl
    rw [hsum] at h₁ ⊢
    have hc : t.usr.getCoinCount = wrap (s.usr.getCoinCount + 40) := by
      rw [usr, Usr.getCoinCount, attr_increaseCoin, if_pos rfl]
      rfl
    rw [hc, wrap_of_range (by omega) (by omega)]
    show _ = s.usr.getCoinCount + 40 - 0 ∧ _
    omega
  | freeTip usr =>
    have hc : t.usr.getCoinCount = s.usr.getCoinCount := by
      rw [usr, Usr.getCoinCount, attr_deductFreeTipsOpportunity, if_neg (by decide)]
      rfl
    rw [hc]
    show _ = s.usr.getCoinCount + 0 - 0 ∧ _
    omega
  | paidTip k i price event priced enough usr =>
    have hsum : credits [.paidTip price] = 0 := rfl
    have hch : charges [.paidTip price] = price := Int.add_zero price
    have hprice : 0 ≤ price := by
      rcases ViewTipsData.deductCoin_ok priced with ⟨-, rfl⟩ | ⟨-, rfl⟩ <;> decide
    have hc : t.usr.getCoinCount = max 0 (wrap (s.usr.getCoinCount - price)) := by
      rw [usr, Usr.getCoinCount, attr_deductCoin, if_pos rfl]
      rfl
    rw [hsum] at h₁ ⊢
    rw [hch, hc, wrap_of_range (by omega) (by omega)]
    omega

theorem Balanced.room {init : Int} (h : Balanced init s) {new : List Entry} (hnew : 0 ≤ credits new)
    (hfit : init + credits (s.log ++ new) < 2 ^ 31) :
    0 ≤ s.usr.getCoinCount ∧ s.usr.getCoinCount + credits new < 2 ^ 31 := by
  rw [credits_append] at hfit
  obtain ⟨heq, h₀⟩ := h.exact (by omega)
  have := h.charged
  omega

theorem balanced_step {init : Int} (s : Quiz) (e : Event) (t : Quiz) (h : Balanced init s) (hs : step lib s e = some t) :
    Balanced init t := by
  obtain ⟨new, hlog, hbook⟩ := booking_of_step hs
  have hch := charges_nonneg hbook
  refine ⟨?_, fun hfit => ?_⟩
  · rw [hlog, charges_append]
    exact Int.add_nonneg h.charged hch
  · rw [hlog] at hfit ⊢
    obtain ⟨h₀, h₁⟩ := h.room (credits_nonneg hbook) hfit
    obtain ⟨hcoin, hpos⟩ := hbook.coin h₀ h₁
    rw [credits_append] at hfit
    have hcr := credits_nonneg hbook
    obtain ⟨heq, -⟩ := h.exact (by omega)
    rw [credits_append, charges_append]
    refine ⟨?_, hpos⟩
    rw [hcoin, heq]
    omega

/-- **The log says which events paid**: an answer's entry stands for a hit, a reward's for the callback. -/
theorem Booking.paid_iff {new : List Entry} (h : Booking s e t new) :
    (s.hits e = true ↔ ∃ text inc, new = [.paid text inc]) ∧ (e = .adReward ↔ new = [.adReward]) := by
  cases h with
  | nothing _ _ _ other => simp [other.1, other.2]
  | paid text inc u reward hit =>
    have hne : e ≠ .adReward := by
      rintro rfl
      cases hit
    simp [hit, hne]
  | adReward _ _ event =>
    subst event
    simp [hits]
  | freeTip _ _ _ _ event | paidTip _ _ _ event =>
    subst event
    simp [hits]

theorem fair_step {init : Int} (h : Balanced init s) (hs : step lib s e = some t)
    (hfit : init + credits t.log < 2 ^ 31) : FairStep s e t := by
  obtain ⟨new, hlog, hbook⟩ := booking_of_step hs
  rw [hlog] at hfit
  obtain ⟨h₀, h₁⟩ := h.room (credits_nonneg hbook) hfit
  have hnew : ∀ new', t.log = s.log ++ new' ↔ new = new' := by
    intro new'
    rw [hlog, List.append_right_inj]
  have hcoin := (hbook.coin h₀ h₁).1
  refine ⟨?_, ?_, ?_, ?_, ?_, ?_⟩
  · simp only [hnew]
    exact hbook.paid_iff.1
  · intro text inc htext
    rw [(hnew _).1 htext] at hbook
    cases hbook with
    | paid _ _ u reward => exact reward.inc_eq
  · rw [hnew]
    exact hbook.paid_iff.2
  · intro hfree
    rw [(hnew _).1 hfree] at hbook hcoin
    cases hbook with
    | freeTip usr k tip i event dialog offered =>
      have hsum : credits [.freeTip] - charges [.freeTip] = 0 := rfl
      exact ⟨by omega, k, i, tip, event, dialog, offered⟩
  · intro price hprice
    rw [(hnew _).1 hprice] at hbook hcoin
    cases hbook with
    | paidTip k i _ event priced enough =>
      refine ⟨enough, ?_, k, i, event, ViewTipsData.deductCoin_ok priced⟩
      have hsum : credits [.paidTip price] = 0 := rfl
      have hch : charges [.paidTip price] = price := Int.add_zero price
      rw [hcoin, hsum, hch]
      omega
  · intro k i hev hsame
    rw [← List.append_nil s.log, hnew] at hsame
    rw [hsame] at hbook
    cases hbook with
    | nothing usr tips =>
      rw [usr]
      exact ⟨rfl, rfl, tips k i hev⟩

/-- **The coin ledger is exact.**  From any stored balance that is not negative, in every run of answers, reward ads and
tips dialogs, while the balance and all credits fit an `Int`: the coins are the first balance plus what was credited
minus what was charged and never negative, and every step is fair, so that the credits are those of the right answers and
of the rewards of ads, and the charges those of the tips sold. -/
theorem coins_exact (lib : Library) (sp : Prefs) (es : List Event) (h : 0 ≤ sp.attr .usrCoinCount) :
    Machine.always (step lib) (fun s => sp.attr .usrCoinCount + credits s.log < 2 ^ 31 →
      s.usr.getCoinCount = sp.attr .usrCoinCount + credits s.log - charges s.log ∧ 0 ≤ s.usr.getCoinCount)
      (start sp) es ∧
    Machine.along (step lib) (fun s e t => sp.attr .usrCoinCount + credits t.log < 2 ^ 31 → FairStep s e t)
      (start sp) es := by
  have hstart : Balanced (sp.attr .usrCoinCount) (start sp) := by
    unfold start
    refine ⟨by rw [log_opened]; exact Int.le_refl 0, fun _ => ?_⟩
    rw [log_opened, usr_opened]
    show sp.attr .usrCoinCount = sp.attr .usrCoinCount + 0 - 0 ∧ 0 ≤ sp.attr .usrCoinCount
    omega
  constructor
  · exact Machine.always_mono (fun _ hs => hs.exact) es _ (Machine.always_of_inv balanced_step es _ hstart)
  · exact Machine.along_of_inv balanced_step (fun _ _ _ hs hstep hfit => fair_step hs hstep hfit) es _ hstart

/-- A library of one riddle. -/
def oneRiddle : Library where
  level1To5  := [⟨"What has keys?".toList, [⟨"A piano".toList, true⟩, ⟨"A fish".toList, false⟩], "It is played.".toList⟩]
  level6To10 := []

/-- The coins do not pay the first tip asked for; a reward ad brings some, the tip is bought, and the riddle answered. -/
def oneRiddleSold : List Event :=
  [.draw 0 [0, 0, 1], .loaded 0, .openTips, .viewTips 0 0, .watchRewardAd true, .adReward, .rewardAdCompleted,
    .viewTips 0 0, .onOption 0]

theorem coins_exact_oneRiddle :
    (Machine.run (step oneRiddle) (start (Prefs.empty.setAttr .usrFreeTipsOppo 0)) oneRiddleSold).map
        (fun s => (s.usr.getCoinCount, s.log)) =
      some (35, [.adReward, .paidTip 10, .paid (some "What has keys?".toList) 5]) ∧
    (0 ≤ (Prefs.empty.setAttr .usrFreeTipsOppo 0).attr .usrCoinCount ∧
      Machine.always (step oneRiddle) (fun s => (Prefs.empty.setAttr .usrFreeTipsOppo 0).attr .usrCoinCount +
          credits s.log < 2 ^ 31 →
        s.usr.getCoinCount = (Prefs.empty.setAttr .usrFreeTipsOppo 0).attr .usrCoinCount + credits s.log - charges s.log ∧
          0 ≤ s.usr.getCoinCount) (start (Prefs.empty.setAttr .usrFreeTipsOppo 0)) oneRiddleSold ∧
      Machine.along (step oneRiddle) (fun s e t => (Prefs.empty.setAttr .usrFreeTipsOppo 0).attr .usrCoinCount +
          credits t.log < 2 ^ 31 → FairStep s e t) (start (Prefs.empty.setAttr .usrFreeTipsOppo 0)) oneRiddleSold) :=
  ⟨by decide +kernel, by decide, coins_exact oneRiddle _ _ (by decide)⟩

/-! ## Free tips -/

/-- The free-tip ledger: no more free tips than there were, and the counter says how many are left. -/
def FreeTipsExact (init : Int) (s : Quiz) : Prop :=
  (freeTips s.log : Int) ≤ init ∧ s.usr.getFreeTipsOpportunity = init - freeTips s.log

/-- A dialog that offers a free tip is used while one is left. -/
def SpendsWhatIsLeft (s : Quiz) (e : Event) : Prop :=
  ∀ k i tip, e = .viewTips k i → s.tips[k]? = some tip → 0 < tip.mFreeTipsOpportunity →
    0 < s.usr.getFreeTipsOpportunity

theorem Booking.free {new : List Entry} (h : Booking s e t new) :
    (freeTips new = 0 ∧ t.usr.getFreeTipsOpportunity = s.usr.getFreeTipsOpportunity) ∨
    (freeTips new = 1 ∧ (∃ k tip i, e = .viewTips k i ∧ s.tips[k]? = some tip ∧ 0 < tip.mFreeTipsOpportunity) ∧
      t.usr.getFreeTipsOpportunity = max 0 (wrap (s.usr.getFreeTipsOpportunity - 1))) := by
  cases h with
  | nothing usr => exact .inl ⟨rfl, by rw [usr]⟩
  | paid text inc u reward =>
    refine .inl ⟨rfl, ?_⟩
    exact (reward.attr .usrFreeTipsOppo (by decide) (by decide)).trans (reward.frame .usrFreeTipsOppo (by decide))
  | adReward usr =>
    refine .inl ⟨rfl, ?_⟩
    rw [usr, Usr.getFreeTipsOpportunity, attr_increaseCoin, if_neg (by decide)]
    rfl
  | freeTip usr k tip i event dialog offered =>
    refine .inr ⟨rfl, ⟨k, tip, i, event, dialog, offered⟩, ?_⟩
    rw [usr, Usr.getFreeTipsOpportunity, attr_deductFreeTipsOpportunity, if_pos rfl]
    rfl
  | paidTip k i price event priced enough usr =>
    refine .inl ⟨rfl, ?_⟩
    rw [usr, Usr.getFreeTipsOpportunity, attr_deductCoin, if_neg (by decide)]
    rfl

theorem freeTip_of_step {k : Nat} {i : Int} {tip : ViewTipsData} (hk : s.tips[k]? = some tip)
    (hfree : 0 < tip.mFreeTipsOpportunity) (hs : step lib s (.viewTips k i) = some t) :
    t.log = s.log ++ [.freeTip] := by
  unfold step at hs
  split at hs
  · simp only [act, hk] at hs
    split at hs
    · cases hs
      unfold viewTips ViewTipsData.onViewTips
      simp only [if_pos (gt_iff_lt.2 hfree)]
    · cases hs
  · split at hs
    · rename_i heq
      cases heq
    · cases hs

/-- **When the free tips add up.**  From a stored counter that is not negative, in a run of any number of dialogs, the
free tips revealed stay within it and the counter says what is left, if and only if every dialog whose copy offers a free
tip is used while the stored counter still has one. -/
theorem free_tips_exact_iff (lib : Library) (sp : Prefs) (es : List Event) (h₀ : 0 ≤ sp.attr .usrFreeTipsOppo)
    (h₁ : sp.attr .usrFreeTipsOppo < 2 ^ 31) :
    Machine.always (step lib) (FreeTipsExact (sp.attr .usrFreeTipsOppo)) (start sp) es ↔
      Machine.along (step lib) (fun s e _ => SpendsWhatIsLeft s e) (start sp) es := by
  constructor
  · refine Machine.along_of_always (fun s e t hs ht hstep => ?_) es _
    rintro k i tip rfl hk hfree
    have hlog := freeTip_of_step hk hfree hstep
    obtain ⟨hle, hcount⟩ := hs
    obtain ⟨hle', -⟩ := ht
    rw [hlog, freeTips_append] at hle'
    have hone : freeTips [.freeTip] = 1 := rfl
    rw [hone] at hle'
    omega
  · refine Machine.always_of_along (fun s e t hs hleft hstep => ?_) es _ ?_
    · obtain ⟨hle, hcount⟩ := hs
      obtain ⟨new, hlog, hbook⟩ := booking_of_step hstep
      unfold FreeTipsExact
      rw [hlog, freeTips_append]
      rcases hbook.free with ⟨hnone, hsame⟩ | ⟨hone, ⟨k, tip, i, hev, hk, hfree⟩, hless⟩
      · rw [hnone, hsame]
        exact ⟨hle, hcount⟩
      · have hpos := hleft k i tip hev hk hfree
        rw [hone, hless, wrap_of_range (by omega) (by omega)]
        omega
    · unfold FreeTipsExact start
      rw [log_opened, usr_opened]
      show ((0 : Nat) : Int) ≤ sp.attr .usrFreeTipsOppo ∧ sp.attr .usrFreeTipsOppo = sp.attr .usrFreeTipsOppo - (0 : Nat)
      omega

/-- A fresh store, and one dialog after another. -/
theorem free_tips_exact_iff_fresh :
    (0 ≤ Prefs.empty.attr .usrFreeTipsOppo ∧ Prefs.empty.attr .usrFreeTipsOppo < 2 ^ 31) ∧
    (Machine.always (step oneRiddle) (FreeTipsExact 3) (start Prefs.empty)
      [.draw 0 [0, 0, 1], .loaded 0, .openTips, .viewTips 0 0, .openTips, .viewTips 1 0] ↔
    Machine.along (step oneRiddle) (fun s e _ => SpendsWhatIsLeft s e) (start Prefs.empty)
      [.draw 0 [0, 0, 1], .loaded 0, .openTips, .viewTips 0 0, .openTips, .viewTips 1 0]) :=
  ⟨by decide, free_tips_exact_iff oneRiddle Prefs.empty _ (by decide) (by decide)⟩

/-- **Two dialogs, one free tip.**  Both are opened while the counter says one, and both reveal a tip for free. -/
theorem free_tip_spent_twice :
    (Machine.run (step oneRiddle) (start (Prefs.empty.setAttr .usrFreeTipsOppo 1))
      [.draw 0 [0, 0, 1], .loaded 0, .openTips, .openTips, .viewTips 0 0, .viewTips 1 0]).map
        (fun s => (freeTips s.log, s.usr.getFreeTipsOpportunity, s.usr.getCoinCount)) = some (2, 0, 0) ∧
    ¬ Machine.always (step oneRiddle) (FreeTipsExact ((Prefs.empty.setAttr .usrFreeTipsOppo 1).attr .usrFreeTipsOppo))
      (start (Prefs.empty.setAttr .usrFreeTipsOppo 1))
      [.draw 0 [0, 0, 1], .loaded 0, .openTips, .openTips, .viewTips 0 0, .viewTips 1 0] := by
  have hrun : (Machine.run (step oneRiddle) (start (Prefs.empty.setAttr .usrFreeTipsOppo 1))
      [.draw 0 [0, 0, 1], .loaded 0, .openTips, .openTips, .viewTips 0 0, .viewTips 1 0]).map
        (fun s => (freeTips s.log, s.usr.getFreeTipsOpportunity, s.usr.getCoinCount)) = some (2, 0, 0) := by
    decide +kernel
  refine ⟨hrun, fun hall => ?_⟩
  obtain ⟨t, ht, hval⟩ := Option.map_eq_some_iff.1 hrun
  have hle := (Machine.always_last _ _ hall ht).1
  have htwo : freeTips t.log = 2 := congrArg Prod.fst hval
  rw [htwo] at hle
  exact absurd hle (by decide)

end Quiz
end Riddles
