import Mathlib.Data.List.DropRight
/-!
# TextReader — lines, trimmed pieces and decimal numbers

What a program does to a text before it looks at the words: it reads lines, which end in a line feed, a carriage return or
both; it cuts a line at the first separator; it takes the blanks off both ends; it reads a signed decimal number.  Nothing
here names a program.
-/
namespace Riddles
namespace TextReader

/-! ## Lines -/

/-- A character before the lines: it belongs to the first one. -/
def consLine (c : Char) : List (List Char) → List (List Char)
  | []      => [[c]]
  | l :: ls => (c :: l) :: ls

/-- The lines of a text; `skip` says that a carriage return came just before, so that a line feed is passed over. -/
def linesFrom : Bool → List Char → List (List Char)
  | _, [] => []
  | skip, c :: cs =>
    if c = '\n' then if skip then linesFrom false cs else [] :: linesFrom false cs
    else if c = '\r' then [] :: linesFrom true cs
    else consLine c (linesFrom false cs)

def lines (text : List Char) : List (List Char) := linesFrom false text

/-- A text that is on one line. -/
def OneLine (l : List Char) : Prop := ∀ c ∈ l, c ≠ '\n' ∧ c ≠ '\r'

instance (l : List Char) : Decidable (OneLine l) := List.decidableBAll (fun c => c ≠ '\n' ∧ c ≠ '\r') l

theorem OneLine.append {l m : List Char} (hl : OneLine l) (hm : OneLine m) : OneLine (l ++ m) := by
  intro c hc
  rcases List.mem_append.1 hc with hc | hc
  · exact hl c hc
  · exact hm c hc

theorem OneLine.of_subset {l m : List Char} (hm : OneLine m) (h : l ⊆ m) : OneLine l := fun c hc => hm c (h hc)

theorem linesFrom_append {l : List Char} (hl : OneLine l) (rest : List Char) :
    linesFrom false (l ++ '\n' :: rest) = l :: linesFrom false rest := by
  induction l with
  | nil => simp [linesFrom]
  | cons c l ih =>
    obtain ⟨hfeed, hreturn⟩ := hl c List.mem_cons_self
    have hrest : OneLine l := fun d hd => hl d (List.mem_cons_of_mem _ hd)
    rw [List.cons_append, linesFrom, if_neg hfeed, if_neg hreturn, ih hrest, consLine]

/-- **Lines that were written are read.** -/
theorem lines_flatMap {ls : List (List Char)} (h : ∀ l ∈ ls, OneLine l) : lines (ls.flatMap (· ++ ['\n'])) = ls := by
  induction ls with
  | nil => rfl
  | cons l ls ih =>
    rw [List.forall_mem_cons] at h
    rw [List.flatMap_cons, lines, List.append_assoc, List.singleton_append, linesFrom_append h.1]
    exact congrArg (l :: ·) (ih h.2)

theorem oneLine_consLine {c : Char} (hfeed : c ≠ '\n') (hreturn : c ≠ '\r') {ls : List (List Char)}
    (h : ∀ l ∈ ls, OneLine l) : ∀ l ∈ consLine c ls, OneLine l := by
  cases ls with
  | nil => simp [consLine, OneLine, hfeed, hreturn]
  | cons l ls =>
    rw [List.forall_mem_cons] at h
    rw [consLine, List.forall_mem_cons]
    exact ⟨List.forall_mem_cons.2 ⟨⟨hfeed, hreturn⟩, h.1⟩, h.2⟩

theorem oneLine_linesFrom (skip : Bool) (text : List Char) : ∀ l ∈ linesFrom skip text, OneLine l := by
  have hnil : OneLine [] := fun c hc => absurd hc List.not_mem_nil
  induction text generalizing skip with
  | nil => simp [linesFrom]
  | cons c cs ih =>
    rw [linesFrom]
    by_cases hfeed : c = '\n'
    · rw [if_pos hfeed]
      split
      · exact ih false
      · exact List.forall_mem_cons.2 ⟨hnil, ih false⟩
    · rw [if_neg hfeed]
      by_cases hreturn : c = '\r'
      · rw [if_pos hreturn]
        exact List.forall_mem_cons.2 ⟨hnil, ih true⟩
      · rw [if_neg hreturn]
        exact oneLine_consLine hfeed hreturn (ih false)

theorem oneLine_of_mem_lines {text l : List Char} (h : l ∈ lines text) : OneLine l := oneLine_linesFrom false text l h

/-! ## The first separator -/

/-- `split(sep, limit = 2)`: the text before the first separator, and the text after it if there is one. -/
def cut (sep : Char) (l : List Char) : List Char × Option (List Char) :=
  (l.takeWhile (· ≠ sep), if sep ∈ l then some ((l.dropWhile (· ≠ sep)).drop 1) else none)

theorem cut_of_not_mem {sep : Char} {l : List Char} (h : sep ∉ l) : cut sep l = (l, none) := by
  have htake : l.takeWhile (· ≠ sep) = l := by
    rw [List.takeWhile_eq_self_iff]
    intro c hc
    simpa using fun heq : c = sep => h (heq ▸ hc)
  rw [cut, if_neg h, htake]

theorem cut_append {sep : Char} {l : List Char} (h : sep ∉ l) (r : List Char) : cut sep (l ++ sep :: r) = (l, some r) := by
  have hl : ∀ c ∈ l, (decide (c ≠ sep)) = true := by
    intro c hc
    simpa using fun heq : c = sep => h (heq ▸ hc)
  rw [cut, if_pos (by simp), List.takeWhile_append_of_pos hl, List.dropWhile_append_of_pos hl]
  simp

theorem not_mem_cut {sep : Char} (l : List Char) : sep ∉ (cut sep l).1 := by
  intro h
  simpa using List.mem_takeWhile_imp h

theorem cut_subset {sep : Char} (l : List Char) : (cut sep l).1 ⊆ l := (List.takeWhile_prefix _).subset

/-! ## Blanks at the ends -/

def trim (blank : Char → Bool) (l : List Char) : List Char := (l.dropWhile blank).rdropWhile blank

theorem trim_subset (blank : Char → Bool) (l : List Char) : trim blank l ⊆ l :=
  ((List.rdropWhile_prefix _ _).sublist.trans (List.dropWhile_sublist _)).subset

theorem trim_of_not_blank {blank : Char → Bool} {l : List Char} (h : ∀ c ∈ l, blank c = false) : trim blank l = l := by
  have hdrop : l.dropWhile blank = l := by
    cases l with
    | nil => rfl
    | cons c l => rw [List.dropWhile_cons_of_neg (by simp [h c])]
  rw [trim, hdrop, List.rdropWhile_eq_self_iff]
  intro hne
  simp [h _ (List.getLast_mem hne)]

theorem trim_trim (blank : Char → Bool) (l : List Char) : trim blank (trim blank l) = trim blank l := by
  have hdrop : (trim blank l).dropWhile blank = trim blank l := by
    obtain ⟨rest, hrest⟩ := List.rdropWhile_prefix blank (l.dropWhile blank)
    have hhead := List.head?_dropWhile_not blank l
    cases htrim : trim blank l with
    | nil => rfl
    | cons c t =>
      rw [← trim, htrim] at hrest
      rw [← hrest] at hhead
      rw [List.dropWhile_cons_of_neg (by simpa using hhead)]
  rw [trim, hdrop]
  exact List.rdropWhile_idempotent _ _

/-! ## Decimal numbers -/

/-- The zeros of the scripts that have decimal digits of one UTF-16 unit. -/
def zeros : List Nat :=
  [0x30, 0x660, 0x6F0, 0x7C0, 0x966, 0x9E6, 0xA66, 0xAE6, 0xB66, 0xBE6, 0xC66, 0xCE6, 0xD66, 0xDE6, 0xE50, 0xED0, 0xF20, 0x1040,
    0x1090, 0x17E0, 0x1810, 0x1946, 0x19D0, 0x1A80, 0x1A90, 0x1B50, 0x1BB0, 0x1C40, 0x1C50, 0xA620, 0xA8D0, 0xA900, 0xA9D0,
    0xA9F0, 0xAA50, 0xABF0, 0xFF10]

/-- The digit of any script. -/
def digit (c : Char) : Option Nat :=
  (zeros.find? (fun z => z ≤ c.toNat ∧ c.toNat ≤ z + 9)).map (fun z => c.toNat - z)

def digits : List Char → Option (List Nat)
  | []     => some []
  | c :: l => (digit c).bind (fun d => (digits l).map (d :: ·))

def number (l : List Char) : Option Nat :=
  if l = [] then none else (digits l).map (fun ds => ds.foldl (fun n d => 10 * n + d) 0)

/-- A number with or without a sign, of 32 bits; `none` is a text that is no such number. -/
def toInt (l : List Char) : Option Int :=
  let signed : Option Int := match l with
    | '-' :: ds => (number ds).map (fun n : Nat => -(n : Int))
    | '+' :: ds => (number ds).map (fun n : Nat => (n : Int))
    | ds        => (number ds).map (fun n : Nat => (n : Int))
  signed.filter (fun n => -2147483648 ≤ n ∧ n ≤ 2147483647)

theorem digit_of_isDigit {c : Char} (h : c.isDigit = true) : digit c = some (c.toNat - '0'.toNat) := by
  have hrange : 0x30 ≤ c.toNat ∧ c.toNat ≤ 0x30 + 9 := Char.isDigit_iff_toNat.1 h
  have hfind : zeros.find? (fun z => z ≤ c.toNat ∧ c.toNat ≤ z + 9) = some 0x30 :=
    List.find?_cons_of_pos (p := fun z => decide (z ≤ c.toNat ∧ c.toNat ≤ z + 9)) (decide_eq_true hrange)
  rw [digit, hfind]
  rfl

theorem digits_of_isDigit : ∀ {l : List Char}, (∀ c ∈ l, c.isDigit = true) →
    digits l = some (l.map (fun c => c.toNat - '0'.toNat))
  | [], _ => rfl
  | c :: l, h => by
    obtain ⟨hc, hl⟩ := List.forall_mem_cons.1 h
    rw [digits, digit_of_isDigit hc, digits_of_isDigit hl]
    rfl

theorem number_toDigits (n : Nat) : number (Nat.toDigits 10 n) = some n := by
  have hdigits : ∀ c ∈ Nat.toDigits 10 n, c.isDigit := fun c hc => Nat.isDigit_of_mem_toDigits (by omega) (by omega) hc
  have hvalue := Nat.ofDigitChars_ten_toDigits (n := n)
  rw [Nat.ofDigitChars_eq_foldl] at hvalue
  rw [number, if_neg Nat.toDigits_ne_nil, digits_of_isDigit hdigits, Option.map_some, List.foldl_map, hvalue]

theorem filter_some {α : Type} (keep : α → Prop) [DecidablePred keep] (a : α) :
    (some a).filter (fun x => keep x) = if keep a then some a else none := by
  rw [Option.filter_some]
  simp only [decide_eq_true_eq]

/-- **A number that was written is read**, if it has 32 bits. -/
theorem toInt_digits (n : Nat) : toInt (Nat.toDigits 10 n) = if n ≤ 2147483647 then some (n : Int) else none := by
  have hsign : ∀ c ∈ Nat.toDigits 10 n, c ≠ '-' ∧ c ≠ '+' := by
    intro c hc
    have hdigit := Nat.isDigit_of_mem_toDigits (b := 10) (by decide) (by decide) hc
    constructor <;> rintro rfl <;> exact absurd hdigit (by decide)
  have hnumber := number_toDigits n
  unfold toInt
  split
  · rename_i heq
    exact absurd rfl (hsign '-' (heq ▸ List.mem_cons_self)).1
  · rename_i heq
    exact absurd rfl (hsign '+' (heq ▸ List.mem_cons_self)).2
  · rw [hnumber, Option.map_some]
    refine (filter_some (fun k : Int => -2147483648 ≤ k ∧ k ≤ 2147483647) n).trans ?_
    by_cases h : n ≤ 2147483647
    · rw [if_pos h, if_pos (by omega)]
    · rw [if_neg h, if_neg (by omega)]

theorem toInt_neg_digits (n : Nat) :
    toInt ('-' :: Nat.toDigits 10 n) = if n ≤ 2147483648 then some (-(n : Int)) else none := by
  unfold toInt
  simp only [number_toDigits, Option.map_some]
  refine (filter_some (fun k : Int => -2147483648 ≤ k ∧ k ≤ 2147483647) (-(n : Int))).trans ?_
  by_cases h : n ≤ 2147483648
  · rw [if_pos h, if_pos (by omega)]
  · rw [if_neg h, if_neg (by omega)]

/-- **A number that was written with its sign is read.** -/
theorem toInt_signed (k : Int) : toInt (if k < 0 then '-' :: Nat.toDigits 10 k.natAbs else Nat.toDigits 10 k.natAbs) =
    if -2147483648 ≤ k ∧ k ≤ 2147483647 then some k else none := by
  by_cases hneg : k < 0
  · rw [if_pos hneg, toInt_neg_digits]
    by_cases h : k.natAbs ≤ 2147483648
    · rw [if_pos h, if_pos (by omega)]
      congr
      omega
    · rw [if_neg h, if_neg (by omega)]
  · rw [if_neg hneg, toInt_digits]
    by_cases h : k.natAbs ≤ 2147483647
    · rw [if_pos h, if_pos (by omega)]
      congr
      omega
    · rw [if_neg h, if_neg (by omega)]

end TextReader
end Riddles
