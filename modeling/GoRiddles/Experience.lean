import GoRiddles.Usr
/-!
# Experience — what a gain of experience does to the level

`UsrManager.increaseExperience` spends a gain level by level.  The stored level and experience stand for one number, the
experience collected so far, and a gain should add to it.  The loop's leftover branch adds the whole gain and not what is
left of it, and a level above ten is refused by the repository, so the sum comes out right only for a gain that stays
inside its level, ends on a level's edge, or reaches level ten and no more.
-/
namespace Riddles
namespace Usr

/-! ## The loop -/

theorem getExpToLevelUp_eq {e : Int} (h₀ : 0 ≤ e) (h₁ : e < 50) : getExpToLevelUp e = 50 - e :=
  wrap_of_range (by omega) (by omega)

theorem levelUp_spent (exp level levelExp : Int) : levelUp exp 0 level levelExp = (level, levelExp) := by
  rw [levelUp, if_neg (by omega)]

/-- **One turn of the loop**: a level is filled, or the whole gain is added to the experience. -/
theorem levelUp_turn (exp : Int) {c level e : Int} (hc : 0 < c) (hc' : c < 2 ^ 31) (he : 0 ≤ e) (he' : e < 50)
    (hl : 0 ≤ level) (hl' : level < 2 ^ 30) :
    levelUp exp c level e =
      if 50 ≤ e + c then levelUp exp (e + c - 50) (level + 1) 0 else (level, wrap (e + exp)) := by
  have hwrap : wrap (c - (50 - e)) = e + c - 50 := by
    rw [wrap_of_range (by omega) (by omega)]
    omega
  rw [levelUp, if_pos hc, getExpToLevelUp_eq he he', hwrap, wrap_of_range (n := level + 1) (by omega) (by omega)]
  by_cases hfull : 50 ≤ e + c
  · rw [if_pos hfull, if_pos (by omega)]
  · rw [if_neg hfull, if_neg (by omega)]

/-- **The loop from an empty level**: a level for every fifty, and the whole gain if anything is left. -/
theorem levelUp_from_empty (exp : Int) (n : Nat) : ∀ (c level : Int), c = n → c < 2 ^ 31 → 0 ≤ level →
    level + c / 50 < 2 ^ 30 →
    levelUp exp c level 0 = (level + c / 50, if c % 50 = 0 then 0 else wrap exp) := by
  -- by the experience still to be spent, which a filled level takes fifty off
  induction n using Nat.strongRecOn with
  | ind n ih =>
    intro c level hn hc hl hlevel
    by_cases h0 : c = 0
    · subst h0
      rw [levelUp_spent]
      simp
    · rw [levelUp_turn exp (by omega) hc (by omega) (by omega) hl (by omega), Int.zero_add]
      by_cases hfull : 50 ≤ c
      · have hrest := ih (n - 50) (by omega) (c - 50) (level + 1) (by omega) (by omega) (by omega) (by omega)
        have hdiv : level + 1 + (c - 50) / 50 = level + c / 50 := by omega
        have hmod : (c - 50) % 50 = c % 50 := by omega
        rw [if_pos hfull, hrest, hdiv, hmod]
      · rw [if_neg hfull, Int.zero_add, if_neg (by omega)]
        have hdiv : level + c / 50 = level := by omega
        rw [hdiv]

/-- The level that a gain reaches, before the repository's check. -/
def reached (u : Usr) (exp : Int) : Int := u.getLevel + (u.getLevelExp + exp) / 50

/-- The experience the loop ends with. -/
def leftover (u : Usr) (exp : Int) : Int :=
  if u.getLevelExp + exp < 50 then u.getLevelExp + exp
  else if (u.getLevelExp + exp) % 50 = 0 then 0 else exp

section
variable {u : Usr} {exp : Int}

theorem one_le_getLevel (u : Usr) : 1 ≤ u.getLevel := Int.le_max_left 1 _

theorem levelUp_gain (hl : u.getLevel < 10) (he : 0 ≤ u.getLevelExp) (he' : u.getLevelExp < 50) (h₀ : 0 ≤ exp)
    (h₁ : exp < 2 ^ 31) :
    levelUp exp exp u.getLevel u.getLevelExp = (u.reached exp, u.leftover exp) := by
  have hpos := one_le_getLevel u
  unfold reached leftover
  by_cases hnone : exp = 0
  · subst hnone
    rw [levelUp_spent, if_pos (by omega)]
    simp only [Int.add_zero, Prod.mk.injEq, and_true]
    omega
  · rw [levelUp_turn exp (by omega) h₁ he he' (by omega) (by omega)]
    by_cases hfull : 50 ≤ u.getLevelExp + exp
    · have hrest := levelUp_from_empty exp (u.getLevelExp + exp - 50).toNat (u.getLevelExp + exp - 50) (u.getLevel + 1)
        (by omega) (by omega) (by omega) (by omega)
      have hdiv : u.getLevel + 1 + (u.getLevelExp + exp - 50) / 50 = u.getLevel + (u.getLevelExp + exp) / 50 := by omega
      have hmod : (u.getLevelExp + exp - 50) % 50 = (u.getLevelExp + exp) % 50 := by omega
      rw [if_pos hfull, hrest, hdiv, hmod, if_neg (show ¬ u.getLevelExp + exp < 50 by omega),
        wrap_of_range (by omega) h₁]
    · have hdiv : u.getLevel + (u.getLevelExp + exp) / 50 = u.getLevel := by omega
      rw [if_neg hfull, if_pos (by omega), hdiv, wrap_of_range (by omega) (by omega)]

/-! ## The gain -/

def gained (u : Usr) (exp : Int) : Usr :=
  if u.reached exp = u.getLevel then u.update .usrLevelExp (u.leftover exp) (.onLevelExpChanged (u.leftover exp))
  else
    (u.update .usrLevel (u.reached exp) (.onLevelChanged (u.reached exp))).update .usrLevelExp (u.leftover exp)
      (.onLevelExpChanged (u.leftover exp))

theorem getLevel_le_reached (he : 0 ≤ u.getLevelExp) (h₀ : 0 ≤ exp) : u.getLevel ≤ u.reached exp := by
  unfold reached
  omega

/-- **A gain is refused above level ten**, and stored otherwise. -/
theorem increaseExperience_eq (hl : u.getLevel < 10) (he : 0 ≤ u.getLevelExp) (he' : u.getLevelExp < 50) (h₀ : 0 ≤ exp)
    (h₁ : exp < 2 ^ 31) :
    u.increaseExperience exp =
      if 10 < u.reached exp then .error (.illegalArgument "usrLevel must be in 1..10".toList)
      else .ok (u.gained exp) := by
  have hpos := one_le_getLevel u
  have hmono := getLevel_le_reached he h₀
  unfold increaseExperience gained
  rw [if_neg (by omega), levelUp_gain hl he he' h₀ h₁]
  simp only
  by_cases hsame : u.reached exp = u.getLevel
  · rw [if_neg (by omega), if_neg (by omega), if_pos hsame]
  · rw [if_pos (by omega), if_neg hsame]
    by_cases hcap : 10 < u.reached exp
    · rw [if_pos hcap, checkLevelValue, if_pos (by omega)]
    · rw [if_neg hcap, checkLevelValue_of_range (by omega) (by omega)]

theorem getLevel_gained (he : 0 ≤ u.getLevelExp) (h₀ : 0 ≤ exp) : (u.gained exp).getLevel = u.reached exp := by
  have hmono := getLevel_le_reached he h₀
  have hpos := one_le_getLevel u
  unfold gained
  by_cases hsame : u.reached exp = u.getLevel
  · rw [if_pos hsame, hsame]
    simp [getLevel]
  · rw [if_neg hsame]
    have hreached : 1 ≤ u.reached exp := by omega
    simpa [getLevel] using Int.max_eq_right hreached

theorem getLevelExp_gained (u : Usr) (exp : Int) : (u.gained exp).getLevelExp = u.leftover exp := by
  unfold gained
  split <;> simp [getLevelExp]

theorem notified_gained (u : Usr) (exp : Int) :
    (u.gained exp).notified = u.notified ++
      (if u.reached exp = u.getLevel then [] else [.onLevelChanged (u.reached exp)]) ++
      [.onLevelExpChanged (u.leftover exp)] := by
  unfold gained
  split <;> simp [update]

end

/-! ## Experience is conserved -/

/-- A player below level ten, as `UsrManager` stores it. -/
structure Below (u : Usr) : Prop where
  level_pos    : 1 ≤ u.sp.attr .usrLevel
  level_le     : u.sp.attr .usrLevel ≤ 9
  levelExp_pos : 0 ≤ u.sp.attr .usrLevelExp
  levelExp_lt  : u.sp.attr .usrLevelExp < 50

theorem Below.getLevel_lt {u : Usr} (h : u.Below) : u.getLevel < 10 := by
  have hle := h.level_le
  have hlevel : u.getLevel = u.sp.attr .usrLevel := Int.max_eq_right h.level_pos
  omega

/-- The experience collected so far, the gain added. -/
def total (u : Usr) (exp : Int) : Int := 50 * (u.getLevel - 1) + u.getLevelExp + exp

/-- **The gain is added to what was collected**: the level and the experience are those of the sum, and the listeners
are told what is stored, of the level only when it is another one. -/
structure Conserved (u : Usr) (exp : Int) (v : Usr) : Prop where
  level    : v.getLevel = min 10 (1 + u.total exp / 50)
  levelExp : v.getLevel < 10 → v.getLevelExp = u.total exp % 50
  notified : v.notified = u.notified ++ (if v.getLevel = u.getLevel then [] else [.onLevelChanged v.getLevel]) ++
    [.onLevelExpChanged v.getLevelExp]

theorem total_div (u : Usr) (exp : Int) : 1 + u.total exp / 50 = u.reached exp := by
  unfold total reached
  omega

theorem total_mod (u : Usr) (exp : Int) : u.total exp % 50 = (u.getLevelExp + exp) % 50 := by
  unfold total
  omega

theorem conserved_gained {u : Usr} {exp : Int} (he : 0 ≤ u.getLevelExp) (h₀ : 0 ≤ exp) (hcap : u.reached exp ≤ 10) :
    u.Conserved exp (u.gained exp) ↔
      (u.reached exp < 10 → u.leftover exp = (u.getLevelExp + exp) % 50) := by
  constructor
  · intro hc hlt
    have hexp := hc.levelExp
    rw [getLevel_gained he h₀, getLevelExp_gained, total_mod] at hexp
    exact hexp hlt
  · intro hexp
    refine ⟨?_, ?_, ?_⟩
    · rw [getLevel_gained he h₀, total_div]
      omega
    · rw [getLevel_gained he h₀, getLevelExp_gained, total_mod]
      exact hexp
    · rw [notified_gained, getLevel_gained he h₀, getLevelExp_gained]

/-- What is left over is right for a gain inside the level and for one that ends on a level's edge. -/
theorem leftover_eq_mod_iff {u : Usr} {exp : Int} (he : 0 ≤ u.getLevelExp) (he' : u.getLevelExp < 50) (h₀ : 0 ≤ exp) :
    u.leftover exp = (u.getLevelExp + exp) % 50 ↔ u.getLevelExp + exp < 50 ∨ (u.getLevelExp + exp) % 50 = 0 := by
  unfold leftover
  by_cases hin : u.getLevelExp + exp < 50
  · rw [if_pos hin]
    omega
  · rw [if_neg hin]
    by_cases hedge : (u.getLevelExp + exp) % 50 = 0
    · rw [if_pos hedge]
      omega
    · -- the whole gain is the remainder only if the experience before it was fifty
      rw [if_neg hedge]
      omega

/-- **When experience is conserved.**  For a player below level ten and any gain, `increaseExperience` returns and adds
the gain to the experience collected exactly when the gain stays inside the level, or reaches level ten and no more, or
ends on the edge of a level up to there. -/
theorem experience_conserved_iff (u : Usr) (exp : Int) (h : u.Below) (h₀ : 0 ≤ exp) (h₁ : exp < 2 ^ 31) :
    (∃ v, u.increaseExperience exp = .ok v ∧ u.Conserved exp v) ↔
      u.getLevelExp + exp < 50 ∨ u.getLevel + (u.getLevelExp + exp) / 50 = 10 ∨
        u.getLevel + (u.getLevelExp + exp) / 50 < 10 ∧ (u.getLevelExp + exp) % 50 = 0 := by
  have hl := h.getLevel_lt
  have he : 0 ≤ u.getLevelExp := h.levelExp_pos
  have he' : u.getLevelExp < 50 := h.levelExp_lt
  have hreached : u.reached exp = u.getLevel + (u.getLevelExp + exp) / 50 := rfl
  rw [increaseExperience_eq hl he he' h₀ h₁]
  by_cases hcap : 10 < u.reached exp
  · rw [if_pos hcap]
    constructor
    · rintro ⟨v, hv, -⟩
      cases hv
    · intro hor
      omega
  · rw [if_neg hcap]
    have hiff := conserved_gained he h₀ (by omega)
    have hmod := leftover_eq_mod_iff he he' h₀
    constructor
    · rintro ⟨v, hv, hc⟩
      cases hv
      have hexp := hiff.1 hc
      rw [hmod] at hexp
      omega
    · intro hor
      refine ⟨_, rfl, hiff.2 (fun hlt => hmod.2 ?_)⟩
      omega

def stored (level levelExp : Int) : Usr := ⟨(Prefs.empty.setAttr .usrLevel level).setAttr .usrLevelExp levelExp, []⟩

theorem below_stored {level levelExp : Int} (h₁ : 1 ≤ level) (h₂ : level ≤ 9) (h₃ : 0 ≤ levelExp) (h₄ : levelExp < 50) :
    (stored level levelExp).Below := by
  constructor <;> simpa [stored]

theorem experience_conserved_iff_edge :
    (∃ v, (stored 1 40).increaseExperience 60 = .ok v ∧ (stored 1 40).Conserved 60 v) :=
  (experience_conserved_iff (stored 1 40) 60 (below_stored (by decide) (by decide) (by decide) (by decide)) (by decide)
    (by decide)).2 (by simp [stored, getLevel, getLevelExp])

/-- **Fifteen points on top of forty are kept whole**: level two with fifteen and not with five. -/
theorem experience_gained_twice : ¬ ∃ v, (stored 1 40).increaseExperience 15 = .ok v ∧ (stored 1 40).Conserved 15 v := by
  have hb : (stored 1 40).Below := below_stored (by decide) (by decide) (by decide) (by decide)
  have hlevel : (stored 1 40).getLevel = 1 := by simp [stored, getLevel]
  have hexp : (stored 1 40).getLevelExp = 40 := by simp [stored, getLevelExp]
  have hreached : (stored 1 40).reached 15 = 2 := by
    unfold reached
    rw [hlevel, hexp]
    rfl
  have hleft : (stored 1 40).leftover 15 = 15 := by
    unfold leftover
    rw [hexp]
    rfl
  rw [increaseExperience_eq hb.getLevel_lt hb.levelExp_pos hb.levelExp_lt (by decide) (by decide), hreached]
  rintro ⟨v, hv, hc⟩
  cases hv
  have hmod := hc.levelExp
  rw [getLevel_gained hb.levelExp_pos (by decide), getLevelExp_gained, hreached, hleft, total_mod, hexp] at hmod
  exact absurd (hmod (by decide)) (by decide)

end Usr
end Riddles
