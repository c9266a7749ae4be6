import Mathlib.Data.List.Basic
/-!
# Tokenizer — tokens with their delimiters, and characters behind an escape

A text is cut at its delimiters, and the delimiters are tokens of their own; a token that is no delimiter is as long as it
can be.  A machine that reads such tokens one after the other, and to which a long token is the same as its characters, may
as well read the characters (`foldl_tokens`).  Nothing here names a program.
-/
namespace Riddles
namespace Tokenizer

variable {α σ : Type} {delim : α → Bool}

/-- The token is a delimiter. -/
def cuts (delim : α → Bool) : List α → Bool
  | []     => false
  | c :: _ => delim c

/-- A character before the tokens: it belongs to the first one, unless that is a delimiter. -/
def glue (delim : α → Bool) (c : α) : List (List α) → List (List α)
  | []      => [[c]]
  | w :: ws => if cuts delim w then [c] :: w :: ws else (c :: w) :: ws

/-- The tokens of a text, delimiters included. -/
def tokens (delim : α → Bool) : List α → List (List α)
  | []      => []
  | c :: cs => if delim c then [c] :: tokens delim cs else glue delim c (tokens delim cs)

/-- A token that holds no delimiter. -/
def Plain (delim : α → Bool) (w : List α) : Prop := w ≠ [] ∧ ∀ c ∈ w, delim c = false

theorem plain_singleton {c : α} (hc : delim c = false) : Plain delim [c] := by
  simp [Plain, hc]

theorem Plain.cons {c : α} {w : List α} (h : Plain delim w) (hc : delim c = false) : Plain delim (c :: w) :=
  ⟨List.cons_ne_nil c w, List.forall_mem_cons.2 ⟨hc, h.2⟩⟩

theorem Plain.ne_singleton {w : List α} (h : Plain delim w) {c : α} (hc : delim c = true) : w ≠ [c] := by
  rintro rfl
  rw [h.2 c List.mem_cons_self] at hc
  cases hc

/-- A delimiter, or a token that holds none. -/
def Token (delim : α → Bool) (w : List α) : Prop := (∃ c, delim c = true ∧ w = [c]) ∨ Plain delim w

theorem Token.plain {w : List α} (h : Token delim w) (hcut : ¬ cuts delim w = true) : Plain delim w := by
  rcases h with ⟨c, hc, rfl⟩ | h
  · exact absurd hc hcut
  · exact h

theorem token_glue {c : α} (hc : delim c = false) {ws : List (List α)} (hws : ∀ w ∈ ws, Token delim w) :
    ∀ w ∈ glue delim c ws, Token delim w := by
  have hsingle : Token delim [c] := .inr (plain_singleton hc)
  cases ws with
  | nil => simpa [glue] using hsingle
  | cons v ws =>
    rw [glue]
    by_cases hcut : cuts delim v = true
    · rw [if_pos hcut]
      exact List.forall_mem_cons.2 ⟨hsingle, hws⟩
    · rw [if_neg hcut]
      obtain ⟨hv, hrest⟩ := List.forall_mem_cons.1 hws
      exact List.forall_mem_cons.2 ⟨.inr ((hv.plain hcut).cons hc), hrest⟩

theorem token_of_mem : ∀ (l : List α), ∀ w ∈ tokens delim l, Token delim w
  | [], w, hw => absurd hw List.not_mem_nil
  | c :: cs, w, hw => by
    have ih := token_of_mem cs
    rw [tokens] at hw
    cases hc : delim c with
    | true =>
      rw [if_pos hc] at hw
      exact List.forall_mem_cons.2 ⟨.inl ⟨c, hc, rfl⟩, ih⟩ w hw
    | false =>
      rw [if_neg (by simp [hc])] at hw
      exact token_glue hc ih w hw

/-- **Tokens or characters**: a machine that reads a long token like its first character and then the others makes the same
of both. -/
theorem foldl_tokens {f : σ → List α → σ}
    (hf : ∀ s c w, delim c = false → Plain delim w → f s (c :: w) = f (f s [c]) w) :
    ∀ (l : List α) (s : σ), (tokens delim l).foldl f s = l.foldl (fun s c => f s [c]) s
  | [], s => rfl
  | c :: cs, s => by
    have ih := foldl_tokens hf cs (f s [c])
    rw [tokens, List.foldl_cons, ← ih]
    cases hc : delim c with
    | true => rw [if_pos rfl, List.foldl_cons]
    | false =>
      rw [if_neg (by simp)]
      have htoken := @token_of_mem _ delim cs
      generalize tokens delim cs = ts at htoken ⊢
      cases ts with
      | nil => rfl
      | cons w ws =>
        rw [glue]
        by_cases hcut : cuts delim w = true
        · rw [if_pos hcut, List.foldl_cons]
        · have hplain := (htoken w List.mem_cons_self).plain hcut
          rw [if_neg hcut, List.foldl_cons, List.foldl_cons, hf s c w hc hplain]

/-- The text with an escape before each special character. -/
def escape (slash : α) (special : α → Bool) (l : List α) : List α :=
  l.flatMap (fun c => if special c then [slash, c] else [c])

end Tokenizer
end Riddles
