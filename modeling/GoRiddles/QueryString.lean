import Mathlib.Data.List.Basic
/-!
# QueryString — reading a parameter off a URL

The reader of a URL's query: what follows the first '?' up to a '#', cut at '&' into pairs and each pair at its first '=',
a '+' read as a blank and the bytes of a run of escapes as UTF-8, where an ill-formed sequence becomes the replacement
character.  A '%' that no two hexadecimal digits follow stands for itself.  The main result says which texts the reader
leaves alone.  Nothing here names a component.
-/
namespace Riddles
namespace QueryString

/-! ## UTF-8 -/

/-- A decoder inside a sequence: how many bytes it still needs, the code point so far, and the range of the next byte. -/
structure Utf8 where
  needed : Nat
  code   : Nat
  lower  : Nat
  upper  : Nat
  deriving DecidableEq, Repr

namespace Utf8

def start : Utf8 := ⟨0, 0, 0x80, 0xBF⟩

def replacement : Char := Char.ofNat 0xFFFD

def lead (b : Nat) : List Char × Utf8 :=
  if b < 0x80 then ([Char.ofNat b], start)
  else if 0xC2 ≤ b ∧ b ≤ 0xDF then ([], ⟨1, b - 0xC0, 0x80, 0xBF⟩)
  else if 0xE0 ≤ b ∧ b ≤ 0xEF then
    ([], ⟨2, b - 0xE0, if b = 0xE0 then 0xA0 else 0x80, if b = 0xED then 0x9F else 0xBF⟩)
  else if 0xF0 ≤ b ∧ b ≤ 0xF4 then
    ([], ⟨3, b - 0xF0, if b = 0xF0 then 0x90 else 0x80, if b = 0xF4 then 0x8F else 0xBF⟩)
  else ([replacement], start)

/-- One more byte: what comes out, and the decoder after it. -/
def next (s : Utf8) (b : Nat) : List Char × Utf8 :=
  if s.needed = 0 then lead b
  else if b < s.lower ∨ s.upper < b then (replacement :: (lead b).1, (lead b).2)
  else if s.needed = 1 then ([Char.ofNat (s.code * 64 + (b - 0x80))], start)
  else ([], ⟨s.needed - 1, s.code * 64 + (b - 0x80), 0x80, 0xBF⟩)

def flush (s : Utf8) : List Char := if s.needed = 0 then [] else [replacement]

/-- The characters a decoder still owes. -/
def owed (s : Utf8) : Nat := if s.needed = 0 then 0 else 1

theorem length_flush (s : Utf8) : s.flush.length = s.owed := by
  unfold flush owed
  split <;> rfl

theorem length_lead (b : Nat) : (lead b).1.length + (lead b).2.owed = 1 := by
  unfold lead
  split
  · rfl
  · split
    · rfl
    · split
      · rfl
      · split <;> rfl

theorem owed_le (s : Utf8) : s.owed ≤ 1 := by
  unfold owed
  split <;> decide

/-- **A byte is worth one character at most.** -/
theorem length_next (s : Utf8) (b : Nat) : (s.next b).1.length + (s.next b).2.owed ≤ 1 + s.owed := by
  have hlead := length_lead b
  unfold next
  by_cases h0 : s.needed = 0
  · rw [if_pos h0]
    omega
  · have howed : s.owed = 1 := if_neg h0
    rw [if_neg h0, howed]
    split
    · simp only [List.length_cons]
      omega
    · split
      · exact Nat.le_succ 1
      · simp only [List.length_nil]
        have hle := owed_le ⟨s.needed - 1, s.code * 64 + (b - 0x80), 0x80, 0xBF⟩
        omega

end Utf8

/-! ## Escapes -/

def hexValue (c : Char) : Option Nat :=
  if '0' ≤ c ∧ c ≤ '9' then some (c.toNat - 48)
  else if 'A' ≤ c ∧ c ≤ 'F' then some (c.toNat - 55)
  else if 'a' ≤ c ∧ c ≤ 'f' then some (c.toNat - 87)
  else none

/-- The byte that '%' and these two characters stand for. -/
def escaped (a b : Char) : Option Nat := (hexValue a).bind (fun x => (hexValue b).map (fun y => 16 * x + y))

/-- A character that is not part of an escape. -/
def plus (c : Char) : Char := if c = '+' then ' ' else c

theorem plus_ne (c : Char) : plus c ≠ '+' := by
  unfold plus
  split
  · decide
  · assumption

/-- The decoded text, with the decoder inside a run of escapes. -/
def decode : Utf8 → List Char → List Char
  | s, [] => s.flush
  | s, '%' :: a :: b :: rest =>
    match escaped a b with
    | some byte => (s.next byte).1 ++ decode (s.next byte).2 rest
    | none      => s.flush ++ '%' :: decode .start (a :: b :: rest)
  | s, c :: rest => s.flush ++ plus c :: decode .start rest

/-- Somewhere in the text an escape stands. -/
def HasEscape (text : List Char) : Prop :=
  ∃ before a b after, text = before ++ '%' :: a :: b :: after ∧ (escaped a b).isSome

theorem hasEscape_cons {c : Char} {text : List Char} :
    HasEscape (c :: text) ↔ (∃ a b rest, c = '%' ∧ text = a :: b :: rest ∧ (escaped a b).isSome) ∨ HasEscape text := by
  constructor
  · rintro ⟨before, a, b, after, h, hsome⟩
    cases before with
    | nil =>
      rw [List.nil_append, List.cons.injEq] at h
      exact Or.inl ⟨a, b, after, h.1, h.2, hsome⟩
    | cons x before =>
      rw [List.cons_append, List.cons.injEq] at h
      exact Or.inr ⟨before, a, b, after, h.2, hsome⟩
  · rintro (⟨a, b, rest, rfl, rfl, hsome⟩ | ⟨before, a, b, after, rfl, hsome⟩)
    · exact ⟨[], a, b, rest, rfl, hsome⟩
    · exact ⟨c :: before, a, b, after, rfl, hsome⟩

theorem not_hasEscape_nil : ¬ HasEscape [] := by
  rintro ⟨before, a, b, after, h, -⟩
  simp at h

/-- What decodes to `out` behind a decoder: no longer than `text`, and two shorter with an escape in it. -/
def Fits (s : Utf8) (text out : List Char) : Prop :=
  out.length ≤ text.length + s.owed ∧ (HasEscape text → out.length + 2 ≤ text.length + s.owed)

/-- A character outside an escape ends the run before it. -/
theorem Fits.char {s : Utf8} {c : Char} {rest out : List Char} (d : Char) (h : Fits .start rest out)
    (hrest : HasEscape (c :: rest) → HasEscape rest) : Fits s (c :: rest) (s.flush ++ d :: out) := by
  have howed : Utf8.start.owed = 0 := rfl
  obtain ⟨hle, hlt⟩ := h
  unfold Fits
  simp only [List.length_append, List.length_cons, s.length_flush]
  refine ⟨by omega, fun hescape => ?_⟩
  have := hlt (hrest hescape)
  omega

/-- **An escape costs two characters.** -/
theorem length_decode (s : Utf8) (text : List Char) : Fits s text (decode s text) := by
  fun_induction decode s text with
  | case1 s =>
    rw [Fits, s.length_flush]
    exact ⟨by simp, fun h => absurd h not_hasEscape_nil⟩
  | case2 s a b rest byte hbyte ih =>
    have hnext := s.length_next byte
    unfold Fits at ih ⊢
    simp only [List.length_append, List.length_cons]
    omega
  | case3 s a b rest hnone ih =>
    have hrest : HasEscape ('%' :: a :: b :: rest) → HasEscape (a :: b :: rest) := by
      rw [hasEscape_cons]
      rintro (⟨a', b', rest', -, heq, hsome⟩ | h)
      · simp only [List.cons.injEq] at heq
        rw [← heq.1, ← heq.2.1, hnone] at hsome
        cases hsome
      · exact h
    exact ih.char '%' hrest
  | case4 s c rest hne ih =>
    have hrest : HasEscape (c :: rest) → HasEscape rest := by
      rw [hasEscape_cons]
      rintro (⟨a, b, rest', hc, heq, -⟩ | h)
      · exact absurd heq (hne a b rest' hc)
      · exact h
    exact ih.char (plus c) hrest

theorem decode_of_not_hasEscape (s : Utf8) (text : List Char) (h : ¬ HasEscape text) :
    decode s text = s.flush ++ text.map plus := by
  fun_induction decode s text with
  | case1 s => simp
  | case2 s a b rest byte hbyte ih =>
    exact absurd ⟨[], a, b, rest, rfl, by rw [hbyte]; rfl⟩ h
  | case3 s a b rest hnone ih =>
    rw [ih (fun hrest => h (hasEscape_cons.2 (Or.inr hrest)))]
    rfl
  | case4 s c rest hne ih =>
    rw [ih (fun hrest => h (hasEscape_cons.2 (Or.inr hrest)))]
    rfl

/-- **What decoding leaves alone**: texts without an escape and without a '+'. -/
theorem decode_eq_self_iff (text : List Char) : decode .start text = text ↔ '+' ∉ text ∧ ¬ HasEscape text := by
  have hflush : Utf8.start.flush = [] := rfl
  have howed : Utf8.start.owed = 0 := rfl
  constructor
  · intro h
    have hescape : ¬ HasEscape text := by
      intro hescape
      have hlength := (length_decode .start text).2 hescape
      rw [h] at hlength
      omega
    refine ⟨fun hplus => ?_, hescape⟩
    rw [decode_of_not_hasEscape _ _ hescape, hflush, List.nil_append] at h
    rw [← h, List.mem_map] at hplus
    obtain ⟨c, -, hc⟩ := hplus
    exact plus_ne c hc
  · rintro ⟨hplus, hescape⟩
    rw [decode_of_not_hasEscape _ _ hescape, hflush, List.nil_append]
    have hmap : text.map plus = text.map id := by
      apply List.map_congr_left
      intro c hc
      have hne : c ≠ '+' := by
        rintro rfl
        exact hplus hc
      exact if_neg hne
    rw [hmap, List.map_id]

/-! ## Pairs -/

def split (sep : Char) : List Char → List (List Char)
  | []     => [[]]
  | c :: l =>
    if c = sep then [] :: split sep l
    else
      match split sep l with
      | []            => [[c]]
      | part :: parts => (c :: part) :: parts

theorem split_eq (sep : Char) (l : List Char) : ∃ parts, split sep l = l.takeWhile (· ≠ sep) :: parts := by
  induction l with
  | nil => exact ⟨[], rfl⟩
  | cons c l ih =>
    obtain ⟨parts, hparts⟩ := ih
    rw [split]
    by_cases hc : c = sep
    · rw [if_pos hc]
      exact ⟨split sep l, by simp [hc]⟩
    · rw [if_neg hc, hparts]
      exact ⟨parts, by simp [hc]⟩

def name (pair : List Char) : List Char := decode .start (pair.takeWhile (· ≠ '='))

def value (pair : List Char) : List Char := decode .start ((pair.dropWhile (· ≠ '=')).drop 1)

/-- What stands between the first '?' and a '#'. -/
def query (url : List Char) : List Char := ((url.takeWhile (· ≠ '#')).dropWhile (· ≠ '?')).drop 1

/-- The value of the first pair with this name. -/
def parameter (url key : List Char) : Option (List Char) :=
  ((split '&' (query url)).find? (fun pair => name pair = key)).map value

/-- **A text that the reader leaves alone**: no separator, no '+' and no escape. -/
structure Plain (text : List Char) : Prop where
  hash   : '#' ∉ text
  amp    : '&' ∉ text
  plus   : '+' ∉ text
  escape : ¬ HasEscape text

theorem takeWhile_ne {sep : Char} {l : List Char} (h : sep ∉ l) (r : List Char) :
    (l ++ r).takeWhile (· ≠ sep) = l ++ r.takeWhile (· ≠ sep) := by
  apply List.takeWhile_append_of_pos
  intro c hc
  have hne : c ≠ sep := by
    rintro rfl
    exact h hc
  simpa using hne

theorem dropWhile_ne {sep : Char} {l : List Char} (h : sep ∉ l) (r : List Char) :
    (l ++ sep :: r).dropWhile (· ≠ sep) = sep :: r := by
  rw [List.dropWhile_append_of_pos]
  · simp
  · intro c hc
    have hne : c ≠ sep := by
      rintro rfl
      exact h hc
    simpa using hne

/-- **The first pair of a query**: its value is the text up to a separator, decoded. -/
theorem parameter_first {base key : List Char} (text : List Char) (hbase : '#' ∉ base) (hquery : '?' ∉ base)
    (hkey : Plain key) (hname : '=' ∉ key) :
    parameter (base ++ '?' :: key ++ '=' :: text) key =
      some (decode .start ((text.takeWhile (· ≠ '#')).takeWhile (· ≠ '&'))) := by
  have hq : query (base ++ '?' :: key ++ '=' :: text) = key ++ '=' :: text.takeWhile (· ≠ '#') := by
    unfold query
    rw [List.append_assoc, takeWhile_ne hbase, List.cons_append, List.takeWhile_cons_of_pos (by decide),
      takeWhile_ne hkey.hash, List.takeWhile_cons_of_pos (by decide), dropWhile_ne hquery]
    rfl
  obtain ⟨parts, hparts⟩ := split_eq '&' (key ++ '=' :: text.takeWhile (· ≠ '#'))
  have hfirst : name (key ++ '=' :: (text.takeWhile (· ≠ '#')).takeWhile (· ≠ '&')) = key := by
    unfold name
    rw [takeWhile_ne hname, List.takeWhile_cons_of_neg (by decide), List.append_nil]
    exact (decode_eq_self_iff key).2 ⟨hkey.plus, hkey.escape⟩
  unfold parameter
  rw [hq, hparts, takeWhile_ne hkey.amp, List.takeWhile_cons_of_pos (by decide), List.find?_cons_of_pos (by simpa using hfirst),
    Option.map_some, value, dropWhile_ne hname]
  rfl

/-- **The first parameter is the text that was put there exactly when the text is plain.** -/
theorem parameter_eq_self_iff (base : List Char) {key : List Char} (text : List Char) (hbase : '#' ∉ base) (hquery : '?' ∉ base)
    (hkey : Plain key) (hname : '=' ∉ key) :
    parameter (base ++ '?' :: key ++ '=' :: text) key = some text ↔ Plain text := by
  rw [parameter_first text hbase hquery hkey hname, Option.some_inj]
  constructor
  · intro h
    -- decoding makes no text longer, so nothing was cut off
    have hlength := (length_decode .start ((text.takeWhile (· ≠ '#')).takeWhile (· ≠ '&'))).1
    have howed : Utf8.start.owed = 0 := rfl
    have hcut : (text.takeWhile (· ≠ '#')).takeWhile (· ≠ '&') = text := by
      have hsub : ((text.takeWhile (· ≠ '#')).takeWhile (· ≠ '&')).Sublist text :=
        (List.takeWhile_sublist _).trans (List.takeWhile_sublist _)
      apply hsub.eq_of_length_le
      rw [h] at hlength
      omega
    rw [hcut] at h
    obtain ⟨hplus, hescape⟩ := (decode_eq_self_iff text).1 h
    have hseps : ∀ c ∈ text, c ≠ '#' ∧ c ≠ '&' := by
      intro c hc
      rw [← hcut] at hc
      have hamp := List.all_eq_true.1 List.all_takeWhile c hc
      have hhash := List.all_eq_true.1 List.all_takeWhile c ((List.takeWhile_sublist _).subset hc)
      exact ⟨by simpa using hhash, by simpa using hamp⟩
    exact ⟨fun hc => (hseps _ hc).1 rfl, fun hc => (hseps _ hc).2 rfl, hplus, hescape⟩
  · intro h
    have hhash : text.takeWhile (· ≠ '#') = text := by
      have := takeWhile_ne h.hash []
      simpa using this
    have hamp : text.takeWhile (· ≠ '&') = text := by
      have := takeWhile_ne h.amp []
      simpa using this
    rw [hhash, hamp]
    exact (decode_eq_self_iff text).2 ⟨h.plus, h.escape⟩

end QueryString
end Riddles
