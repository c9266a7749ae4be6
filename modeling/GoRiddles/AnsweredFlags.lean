import GoRiddles.Questions
/-!
# AnsweredFlags — whose flag it is

A riddle's answered flag is kept under the hash code of its text, in the store that also holds the player's attributes.
The key is the number in decimal, so two flags share a key exactly when the two hash codes are equal, and no flag shares
one with an attribute.  Over any sequence of writes a riddle is flagged, therefore, when some riddle with its hash code
was; that this riddle has its text is more than the key can say.
-/
namespace Riddles

/-! ## Keys -/

theorem toDigits_inj {m n : Nat} (h : Nat.toDigits 10 m = Nat.toDigits 10 n) : m = n := by
  rw [← @Nat.ofDigitChars_ten_toDigits m, h, Nat.ofDigitChars_ten_toDigits]

theorem minus_not_mem_toDigits (n : Nat) : '-' ∉ Nat.toDigits 10 n := by
  intro h
  exact absurd (Nat.isDigit_of_mem_toDigits (by decide) (by decide) h) (by decide)

theorem minus_mem_intToString (n : Int) : '-' ∈ intToString n ↔ n < 0 := by
  unfold intToString
  by_cases h : n < 0
  · rw [if_pos h]
    simp [h]
  · rw [if_neg h]
    simp [h, minus_not_mem_toDigits]

/-- **A number is read off its decimal form.** -/
theorem intToString_inj {m n : Int} : intToString m = intToString n ↔ m = n := by
  constructor
  · intro h
    have hsign : m < 0 ↔ n < 0 := by rw [← minus_mem_intToString, ← minus_mem_intToString, h]
    unfold intToString at h
    by_cases hm : m < 0
    · rw [if_pos hm, if_pos (hsign.1 hm), List.cons.injEq] at h
      have habs := toDigits_inj h.2
      have hn := hsign.1 hm
      omega
    · have hn : ¬ n < 0 := fun hn => hm (hsign.2 hn)
      rw [if_neg hm, if_neg hn] at h
      have habs := toDigits_inj h
      omega
  · intro h
    rw [h]

theorem answeredKey_inj {a b : Text} : answeredKey a = answeredKey b ↔ hashCode a = hashCode b := intToString_inj

/-! ## Writes -/

inductive StoreWrite where
  | setAnswered (q : MQuestion)
  | setAttr (a : Attr) (v : Int)
  deriving DecidableEq, Repr

def StoreWrite.apply (p : Prefs) : StoreWrite → Prefs
  | .setAnswered q => Riddles.setAnswered p q
  | .setAttr a v => p.setAttr a v

def written (ws : List StoreWrite) : Prefs := ws.foldl StoreWrite.apply Prefs.empty

/-- A riddle with this hash code is flagged among the writes. -/
def FlagsHash (ws : List StoreWrite) (hash : Int) : Prop := ∃ q, .setAnswered q ∈ ws ∧ hashCode q.text = hash

theorem isAnswered_apply (p : Prefs) (w : StoreWrite) (q : MQuestion) :
    isAnswered (w.apply p) q = true ↔ isAnswered p q = true ∨ FlagsHash [w] (hashCode q.text) := by
  cases w with
  | setAnswered q' =>
    have hkey : answeredKey q.text = answeredKey q'.text ↔ hashCode q'.text = hashCode q.text :=
      answeredKey_inj.trans eq_comm
    simp [StoreWrite.apply, isAnswered_setAnswered, FlagsHash, hkey, or_comm]
  | setAttr a v => simp [StoreWrite.apply, FlagsHash]

theorem flagsHash_cons (w : StoreWrite) (ws : List StoreWrite) (hash : Int) :
    FlagsHash (w :: ws) hash ↔ FlagsHash [w] hash ∨ FlagsHash ws hash := by
  simp only [FlagsHash, List.mem_cons, List.not_mem_nil, or_false, or_and_right, exists_or]

theorem isAnswered_foldl (q : MQuestion) (ws : List StoreWrite) : ∀ p : Prefs,
    isAnswered (ws.foldl StoreWrite.apply p) q = true ↔ isAnswered p q = true ∨ FlagsHash ws (hashCode q.text) := by
  induction ws with
  | nil =>
    intro p
    simp [FlagsHash]
  | cons w ws ih =>
    intro p
    rw [List.foldl_cons, ih, isAnswered_apply, flagsHash_cons w ws, or_assoc]

/-- **A riddle is flagged when some riddle with its hash code was.** -/
theorem isAnswered_written (ws : List StoreWrite) (q : MQuestion) :
    isAnswered (written ws) q = true ↔ FlagsHash ws (hashCode q.text) := by
  have hempty : isAnswered Prefs.empty q = false := rfl
  unfold written
  rw [isAnswered_foldl, hempty]
  simp

/-! ## The flags of a text -/

/-- A riddle with this text is flagged among the writes. -/
def FlagsText (ws : List StoreWrite) (text : Text) : Prop := ∃ q, .setAnswered q ∈ ws ∧ q.text = text

theorem FlagsText.flagsHash {ws : List StoreWrite} {text : Text} (h : FlagsText ws text) :
    FlagsHash ws (hashCode text) := by
  obtain ⟨q, hq, rfl⟩ := h
  exact ⟨q, hq, rfl⟩

/-- **The flag is the text's own**: a riddle is flagged exactly when one with its text was, and no flag that is set
among the writes changes an attribute. -/
structure FlagsExact (ws : List StoreWrite) (q : MQuestion) : Prop where
  flag : isAnswered (written ws) q = true ↔ FlagsText ws q.text
  attr : ∀ ws₁ q' ws₂, ws = ws₁ ++ .setAnswered q' :: ws₂ →
    ∀ a, (written (ws₁ ++ [.setAnswered q'])).attr a = (written ws₁).attr a

theorem attr_written_setAnswered (ws : List StoreWrite) (q : MQuestion) (a : Attr) :
    (written (ws ++ [.setAnswered q])).attr a = (written ws).attr a := by
  unfold written
  rw [List.foldl_append]
  exact attr_setAnswered _ q a

/-- **When the flags are exact.**  After any sequence of writes a riddle's flag is that of its text exactly when, if a
riddle with its hash code is flagged among them, one with its text is. -/
theorem flags_exact_iff (ws : List StoreWrite) (q : MQuestion) :
    FlagsExact ws q ↔
      ∀ q', .setAnswered q' ∈ ws → hashCode q'.text = hashCode q.text →
        ∃ q'', .setAnswered q'' ∈ ws ∧ q''.text = q.text := by
  constructor
  · intro h q' hq' hhash
    exact h.flag.1 ((isAnswered_written ws q).2 ⟨q', hq', hhash⟩)
  · intro h
    refine ⟨?_, fun ws₁ q' ws₂ _ a => attr_written_setAnswered ws₁ q' a⟩
    rw [isAnswered_written]
    constructor
    · rintro ⟨q', hq', hhash⟩
      exact h q' hq' hhash
    · exact FlagsText.flagsHash

/-- **Two texts, one flag**: "Aa" and "BB" have one hash code, so a riddle never seen is flagged with the other. -/
theorem flag_collision : ¬ FlagsExact [.setAnswered ⟨"Aa".toList, [], []⟩] ⟨"BB".toList, [], []⟩ := by
  intro h
  have hflag : isAnswered (written [.setAnswered ⟨"Aa".toList, [], []⟩]) ⟨"BB".toList, [], []⟩ = true :=
    (isAnswered_written _ _).2 ⟨_, List.mem_singleton_self _, by decide⟩
  obtain ⟨q, hq, htext⟩ := h.flag.1 hflag
  rw [List.mem_singleton] at hq
  cases hq
  exact absurd htext (by decide)

end Riddles
