import GoRiddles.Cache
/-!
# Usr — the player's stored attributes

`LevelUtils.kt`, `LocalUsrRepository.kt` and `UsrManager.kt`: level, experience, coins and free tips live in the
preference store; `UsrManager` is the only writer.  Every change is announced to the registered listeners, all of which
receive the same value: `Usr.notified` keeps the announcements in order.
-/
namespace Riddles

/-- What the modelled code can throw. -/
inductive Thrown where
  | illegalArgument (message : Text)
  | illegalState (message : Text)
  | noSuchElement
  deriving DecidableEq, Repr

/-- `checkLevelValue` of `LevelUtils.kt`. -/
def checkLevelValue (level : Int) : Except Thrown Int :=
  if level < 1 ∨ level > 10 then .error (.illegalArgument "usrLevel must be in 1..10".toList) else .ok level

theorem checkLevelValue_of_range {level : Int} (h₁ : 1 ≤ level) (h₂ : level ≤ 10) : checkLevelValue level = .ok level := by
  unfold checkLevelValue
  rw [if_neg (by omega)]

theorem checkLevelValue_ok {level l : Int} (h : checkLevelValue level = .ok l) : 1 ≤ level ∧ level ≤ 10 ∧ l = level := by
  unfold checkLevelValue at h
  split at h
  · cases h
  · cases h
    omega

/-! ## The attributes -/

/-- The delegated properties of `LocalUsrRepository`. -/
inductive Attr where
  | usrLevel
  | usrCoinCount
  | usrLevelExp
  | usrFreeTipsOppo
  deriving DecidableEq, Repr

def Attr.key : Attr → Text
  | .usrLevel        => "USR_LEVEL".toList
  | .usrCoinCount    => "USR_COIN_COUNT".toList
  | .usrLevelExp     => "USR_LEVEL_EXP".toList
  | .usrFreeTipsOppo => "USR_FREE_OPPO".toList

/-- The delegate's default: three free tips, nothing of the rest. -/
def Attr.dflt : Attr → Int
  | .usrFreeTipsOppo => 3
  | _                => 0

theorem Attr.key_inj {a b : Attr} : a.key = b.key ↔ a = b := by
  cases a <;> cases b <;> decide

theorem Attr.underscore_mem_key (a : Attr) : '_' ∈ a.key := by
  cases a <;> decide

/-- `CacheableIntDelegate.getValue` of an attribute. -/
def Prefs.attr (p : Prefs) (a : Attr) : Int := readIntFromCache p a.key a.dflt

/-- `CacheableIntDelegate.setValue` of an attribute. -/
def Prefs.setAttr (p : Prefs) (a : Attr) (v : Int) : Prefs := writeIntToCache p a.key v

@[simp] theorem attr_setAttr (p : Prefs) (a b : Attr) (v : Int) :
    (p.setAttr a v).attr b = if b = a then v else p.attr b := by
  by_cases h : b = a
  · subst h
    simp [Prefs.attr, Prefs.setAttr]
  · rw [if_neg h]
    exact readInt_writeInt_of_ne p (fun hk => h (Attr.key_inj.1 hk)) v b.dflt

/-- The stored attributes and what the listeners were told. -/
inductive AttrChange where
  | onLevelChanged (level : Int)
  | onCoinCountChanged (coinCount : Int)
  | onLevelExpChanged (exp : Int)
  | onFreeTipsOpportunity (freeTipsOpportunity : Int)
  deriving DecidableEq, Repr

structure Usr where
  sp       : Prefs
  notified : List AttrChange

namespace Usr

def getLevel (u : Usr) : Int := max 1 (u.sp.attr .usrLevel)

def getCoinCount (u : Usr) : Int := u.sp.attr .usrCoinCount

def getLevelExp (u : Usr) : Int := u.sp.attr .usrLevelExp

def getFreeTipsOpportunity (u : Usr) : Int := u.sp.attr .usrFreeTipsOppo

/-- An attribute write of the repository, and its announcement. -/
def update (u : Usr) (a : Attr) (v : Int) (change : AttrChange) : Usr :=
  { sp := u.sp.setAttr a v, notified := u.notified ++ [change] }

@[simp] theorem sp_update (u : Usr) (a : Attr) (v : Int) (c : AttrChange) : (u.update a v c).sp = u.sp.setAttr a v := rfl

def deductCoin (u : Usr) (count : Int) : Usr :=
  let newCoinCount := max 0 (wrap (u.getCoinCount - count))
  u.update .usrCoinCount newCoinCount (.onCoinCountChanged newCoinCount)

def increaseCoin (u : Usr) (count : Int) : Usr :=
  let newCoinCount := wrap (u.getCoinCount + count)
  u.update .usrCoinCount newCoinCount (.onCoinCountChanged newCoinCount)

def deductFreeTipsOpportunity (u : Usr) : Usr :=
  let newFreeOppo := max 0 (wrap (u.getFreeTipsOpportunity - 1))
  u.update .usrFreeTipsOppo newFreeOppo (.onFreeTipsOpportunity newFreeOppo)

def getExpToLevelUp (nowLevelExp : Int) : Int := wrap (50 - nowLevelExp)

/-- The loop of `increaseExperience`: the new level and the new experience once `consumeExp` is used up. -/
def levelUp (exp consumeExp newLevel newLevelExp : Int) : Int × Int :=
  if 0 < consumeExp then
    if 0 ≤ wrap (consumeExp - getExpToLevelUp newLevelExp) then
      levelUp exp (wrap (consumeExp - getExpToLevelUp newLevelExp)) (wrap (newLevel + 1)) 0
    else
      -- the leftover branch adds the whole gain, not what is left of it
      (newLevel, wrap (newLevelExp + exp))
  else (newLevel, newLevelExp)
-- only the first turn can start from a nonzero experience; after it every turn takes 50 off
termination_by if newLevelExp = 0 then consumeExp.toNat else 2 ^ 31
decreasing_by
  have hlt := wrap_lt (consumeExp - getExpToLevelUp newLevelExp)
  by_cases h : newLevelExp = 0
  · subst h
    have h50 : getExpToLevelUp 0 = 50 := by decide
    rw [h50] at hlt ⊢
    have hle := wrap_le (n := consumeExp - 50) (by omega)
    simp only [if_true]
    omega
  · simp only [if_true, h, if_false]
    omega

def increaseExperience (u : Usr) (exp : Int) : Except Thrown Usr :=
  let nowLevel := u.getLevel
  if nowLevel ≥ 10 then .ok u
  else
    let (newLevel, newLevelExp) := levelUp exp exp nowLevel u.getLevelExp
    if newLevel > nowLevel then
      match checkLevelValue newLevel with
      | .error e => .error e
      | .ok level =>
        .ok ((u.update .usrLevel level (.onLevelChanged newLevel)).update .usrLevelExp newLevelExp
          (.onLevelExpChanged newLevelExp))
    else .ok (u.update .usrLevelExp newLevelExp (.onLevelExpChanged newLevelExp))

/-! ## What each write leaves alone -/

@[simp] theorem attr_increaseCoin (u : Usr) (count : Int) (a : Attr) :
    (u.increaseCoin count).sp.attr a =
      if a = .usrCoinCount then wrap (u.sp.attr .usrCoinCount + count) else u.sp.attr a := by
  simp [increaseCoin, getCoinCount]

@[simp] theorem attr_deductCoin (u : Usr) (count : Int) (a : Attr) :
    (u.deductCoin count).sp.attr a =
      if a = .usrCoinCount then max 0 (wrap (u.sp.attr .usrCoinCount - count)) else u.sp.attr a := by
  simp [deductCoin, getCoinCount]

@[simp] theorem attr_deductFreeTipsOpportunity (u : Usr) (a : Attr) :
    u.deductFreeTipsOpportunity.sp.attr a =
      if a = .usrFreeTipsOppo then max 0 (wrap (u.sp.attr .usrFreeTipsOppo - 1)) else u.sp.attr a := by
  simp [deductFreeTipsOpportunity, getFreeTipsOpportunity]

/-- **What a gain of experience stores**: nothing, or the experience, or the level and the experience. -/
theorem sp_increaseExperience {u v : Usr} {exp : Int} (h : u.increaseExperience exp = .ok v) :
    v.sp = u.sp ∨ (∃ e, v.sp = u.sp.setAttr .usrLevelExp e) ∨
      ∃ level e, v.sp = (u.sp.setAttr .usrLevel level).setAttr .usrLevelExp e := by
  unfold increaseExperience at h
  simp only at h
  split at h
  · cases h
    exact .inl rfl
  · split at h
    · split at h
      · cases h
      · cases h
        exact .inr (.inr ⟨_, _, rfl⟩)
    · cases h
      exact .inr (.inl ⟨_, rfl⟩)

/-- **Experience touches the level and the experience only.** -/
theorem attr_increaseExperience {u v : Usr} {exp : Int} (h : u.increaseExperience exp = .ok v) (a : Attr)
    (h₁ : a ≠ .usrLevel) (h₂ : a ≠ .usrLevelExp) : v.sp.attr a = u.sp.attr a := by
  rcases sp_increaseExperience h with hsp | ⟨e, hsp⟩ | ⟨level, e, hsp⟩
  · rw [hsp]
  · rw [hsp, attr_setAttr, if_neg h₂]
  · rw [hsp, attr_setAttr, if_neg h₂, attr_setAttr, if_neg h₁]

end Usr
end Riddles
