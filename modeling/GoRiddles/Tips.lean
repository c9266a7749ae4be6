import GoRiddles.Questions
/-!
# Tips — the tips dialog's view model

`ViewTipsData.kt`.  A dialog copies the free-tip counter when it is built, and every call of `onViewTips` decides on the
copy, not on the stored counter.  `Tip` says what a call did.
-/
namespace Riddles

structure ViewTipsData where
  mQuestion            : MQuestion
  mFreeTipsOpportunity : Int
  mAnswer              : Text
  usrTipsOptionedIndex : Int
  deriving DecidableEq, Repr

/-- What a call of `onViewTips` did: a free reveal, a paid one, or the offer to earn coins instead. -/
inductive Tip where
  | free
  | paid (deductCoin : Int)
  | refused
  deriving DecidableEq, Repr

namespace ViewTipsData

/-- The constructor; `first { it.isAnswer }` throws on a question without an answer. -/
def init (u : Usr) (question : MQuestion) : Except Thrown ViewTipsData :=
  match question.options.find? (fun o => o.isAnswer) with
  | none => .error .noSuchElement
  | some o =>
    .ok { mQuestion := question, mFreeTipsOpportunity := u.getFreeTipsOpportunity, mAnswer := o.text,
          usrTipsOptionedIndex := -1 }

/-- The price of the explanation and of the answer. -/
def deductCoin (tipsOptionedIndex : Int) : Except Thrown Int :=
  if tipsOptionedIndex = 0 then .ok 10
  else if tipsOptionedIndex = 1 then .ok 15
  else .error (.illegalArgument "tipsOptionedIndex must be 0 or 1".toList)

def onViewTips (t : ViewTipsData) (u : Usr) (tipsOptionedIndex : Int) : Except Thrown (ViewTipsData × Usr × Tip) :=
  if t.mFreeTipsOpportunity > 0 then
    .ok ({ t with mFreeTipsOpportunity := t.mFreeTipsOpportunity - 1, usrTipsOptionedIndex := tipsOptionedIndex },
      u.deductFreeTipsOpportunity, .free)
  else
    match deductCoin tipsOptionedIndex with
    | .error e => .error e
    | .ok price =>
      if u.getCoinCount < price then .ok (t, u, .refused)
      else .ok ({ t with usrTipsOptionedIndex := tipsOptionedIndex }, u.deductCoin price, .paid price)

theorem deductCoin_ok {i price : Int} (h : deductCoin i = .ok price) : (i = 0 ∧ price = 10) ∨ (i = 1 ∧ price = 15) := by
  unfold deductCoin at h
  split at h
  · cases h
    exact .inl ⟨‹_›, rfl⟩
  · split at h
    · cases h
      exact .inr ⟨‹_›, rfl⟩
    · cases h

end ViewTipsData
end Riddles
