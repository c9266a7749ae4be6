import GoRiddles.Tokenizer
import GoRiddles.Usr
/-!
# Commandline — command lines and their words

`Commandline.kt`.  `translateCommandline` reads the tokens of a line with a small machine; the lines it accepts are those of
a grammar (`Symbol`): spaces, plain and escaped characters, and quoted pieces.  Every line is a line of the grammar and at
most one thing left open at its end (`Rest`), which decides the outcome.  `toString` writes lines that are read back, save
for the empty words.
-/
namespace Riddles
namespace Commandline

inductive Mode where
  | normal
  | inQuote
  | inDoubleQuote
  deriving DecidableEq, Repr

/-- The local variables of `translateCommandline`. -/
structure Scan where
  state                  : Mode
  result                 : List Text
  current                : Text
  lastTokenHasBeenQuoted : Bool
  lastTokenIsSlash       : Bool
  deriving DecidableEq, Repr

/-- The delimiters, which are also the characters that `toString` escapes. -/
def special (c : Char) : Bool := c = '\\' || c = '"' || c = '\'' || c = ' '

/-- The body of the loop. -/
def scan (s : Scan) (nextTok : Text) : Scan :=
  match s.state with
  | .inQuote =>
    if nextTok = ['\''] then { s with lastTokenHasBeenQuoted := true, state := .normal }
    else { s with current := s.current ++ nextTok }
  | .inDoubleQuote =>
    if nextTok = ['"'] then
      if s.lastTokenIsSlash then { s with current := s.current ++ nextTok, lastTokenIsSlash := false }
      else { s with lastTokenHasBeenQuoted := true, state := .normal }
    else if nextTok = ['\\'] then
      if s.lastTokenIsSlash then { s with current := s.current ++ nextTok, lastTokenIsSlash := false }
      else { s with lastTokenIsSlash := true }
    else
      { s with
        current := (if s.lastTokenIsSlash then s.current ++ ['\\'] else s.current) ++ nextTok
        lastTokenIsSlash := false }
  | .normal =>
    if s.lastTokenIsSlash then
      { s with current := s.current ++ nextTok, lastTokenIsSlash := false, lastTokenHasBeenQuoted := false }
    else if nextTok = ['\\'] then { s with lastTokenIsSlash := true, lastTokenHasBeenQuoted := false }
    else if nextTok = ['\''] then { s with state := .inQuote, lastTokenHasBeenQuoted := false }
    else if nextTok = ['"'] then { s with state := .inDoubleQuote, lastTokenHasBeenQuoted := false }
    else if nextTok = [' '] then
      if s.lastTokenHasBeenQuoted ∨ s.current ≠ [] then
        { s with result := s.result ++ [s.current], current := [], lastTokenHasBeenQuoted := false }
      else { s with lastTokenHasBeenQuoted := false }
    else { s with current := s.current ++ nextTok, lastTokenHasBeenQuoted := false }

/-- What stands after the loop. -/
def finish (toProcess : Text) (s : Scan) : Except Thrown (List Text) :=
  if s.state = .inQuote ∨ s.state = .inDoubleQuote then
    .error (.illegalArgument ("unbalanced quotes in ".toList ++ toProcess))
  else if s.lastTokenIsSlash then
    .error (.illegalArgument ("escape character following nothing in ".toList ++ toProcess))
  else .ok (if s.lastTokenHasBeenQuoted ∨ s.current ≠ [] then s.result ++ [s.current] else s.result)

def translateCommandline : Option Text → Except Thrown (List Text)
  | none           => .ok []
  | some toProcess =>
    if toProcess = [] then .ok []
    else finish toProcess ((Tokenizer.tokens special toProcess).foldl scan ⟨.normal, [], [], false, false⟩)

def appendArg (result arg : Text) : Text :=
  (if result = [] then result else result ++ [' ']) ++ Tokenizer.escape '\\' special arg

def toString : Option (List Text) → Text
  | none      => []
  | some args => args.foldl appendArg []

/-! ## Tokens and characters -/

/-- A token without delimiters. -/
def addPlain (s : Scan) (w : Text) : Scan :=
  match s.state with
  | .inQuote => { s with current := s.current ++ w }
  | .inDoubleQuote =>
    { s with
      current := (if s.lastTokenIsSlash then s.current ++ ['\\'] else s.current) ++ w
      lastTokenIsSlash := false }
  | .normal => { s with current := s.current ++ w, lastTokenIsSlash := false, lastTokenHasBeenQuoted := false }

theorem scan_of_plain (s : Scan) {w : Text} (hw : Tokenizer.Plain special w) : scan s w = addPlain s w := by
  have h₁ : w ≠ ['\\'] := hw.ne_singleton rfl
  have h₂ : w ≠ ['\''] := hw.ne_singleton rfl
  have h₃ : w ≠ ['"'] := hw.ne_singleton rfl
  have h₄ : w ≠ [' '] := hw.ne_singleton rfl
  unfold scan addPlain
  cases s.state with
  | inQuote => rw [if_neg h₂]
  | inDoubleQuote => rw [if_neg h₃, if_neg h₁]
  | normal =>
    cases s.lastTokenIsSlash with
    | true => rfl
    | false => simp only [h₁, h₂, h₃, h₄, if_false, Bool.false_eq_true]

theorem addPlain_addPlain (s : Scan) (v w : Text) : addPlain (addPlain s v) w = addPlain s (v ++ w) := by
  unfold addPlain
  cases s.state <;> simp

/-- **The machine may as well read characters.** -/
theorem foldl_scan (text : Text) (s : Scan) :
    (Tokenizer.tokens special text).foldl scan s = text.foldl (fun s c => scan s [c]) s := by
  refine Tokenizer.foldl_tokens (fun s c w hc hw => ?_) text s
  rw [scan_of_plain s (hw.cons hc), scan_of_plain s (Tokenizer.plain_singleton hc), scan_of_plain _ hw, addPlain_addPlain,
    List.singleton_append]

/-! ## The grammar -/

/-- What stands between double quotes: a character, or a backslash and the one after it. -/
inductive Item where
  | plain (c : Char) (h : c ≠ '\\' ∧ c ≠ '"')
  | slash (c : Char)

namespace Item

def render : Item → Text
  | plain c _ => [c]
  | slash c   => ['\\', c]

/-- Only a quote or another backslash is escaped by a backslash. -/
def value : Item → Text
  | plain c _ => [c]
  | slash c   => if c = '"' ∨ c = '\\' then [c] else ['\\', c]

end Item

/-- A part of a word. -/
inductive Piece where
  | plain (c : Char) (h : special c = false)
  | escaped (c : Char)
  | single (s : Text) (h : '\'' ∉ s)
  | double (items : List Item)

namespace Piece

def render : Piece → Text
  | plain c _    => [c]
  | escaped c    => ['\\', c]
  | single s _   => '\'' :: s ++ ['\'']
  | double items => '"' :: items.flatMap Item.render ++ ['"']

def value : Piece → Text
  | plain c _    => [c]
  | escaped c    => [c]
  | single s _   => s
  | double items => items.flatMap Item.value

def quotes : Piece → Bool
  | plain _ _ | escaped _ => false
  | single _ _ | double _ => true

end Piece

inductive Symbol where
  | space
  | piece (p : Piece)

def Symbol.render : Symbol → Text
  | space   => [' ']
  | piece p => p.render

/-- A line of the grammar, written out. -/
def render (line : List Symbol) : Text := line.flatMap Symbol.render

/-- The words of a line, after the beginning of one: pieces that no space keeps apart. -/
def wordsFrom : Option Text → List Symbol → List Text
  | word, []              => word.toList
  | word, .space :: line   => word.toList ++ wordsFrom none line
  | word, .piece p :: line => wordsFrom (some (word.getD [] ++ p.value)) line

def words (line : List Symbol) : List Text := wordsFrom none line

/-- What is left open at the end of a line. -/
inductive Rest where
  | nothing
  | slash
  | single (s : Text) (h : '\'' ∉ s)
  | double (items : List Item) (last : Bool)

namespace Rest

def render : Rest → Text
  | nothing            => []
  | slash              => ['\\']
  | single s _         => '\'' :: s
  | double items last  => '"' :: items.flatMap Item.render ++ (if last then ['\\'] else [])

def outcome (line : List Symbol) (toProcess : Text) : Rest → Except Thrown (List Text)
  | nothing                => .ok (words line)
  | slash                  => .error (.illegalArgument ("escape character following nothing in ".toList ++ toProcess))
  | single _ _ | double _ _ => .error (.illegalArgument ("unbalanced quotes in ".toList ++ toProcess))

end Rest

/-! ## Reading a line -/

/-- The machine between two pieces. -/
def ready (result : List Text) (current : Text) (quoted : Bool) : Scan := ⟨.normal, result, current, quoted, false⟩

def read (s : Scan) (text : Text) : Scan := text.foldl (fun s c => scan s [c]) s

theorem read_append (s : Scan) (v w : Text) : read s (v ++ w) = read (read s v) w := List.foldl_append

theorem read_cons (s : Scan) (c : Char) (w : Text) : read s (c :: w) = read (scan s [c]) w := rfl

/-- The machine in a quote. -/
theorem read_single (result : List Text) {s : Text} (h : '\'' ∉ s) : ∀ (current : Text) (quoted : Bool),
    read ⟨.inQuote, result, current, quoted, false⟩ s = ⟨.inQuote, result, current ++ s, quoted, false⟩ := by
  induction s with
  | nil => intro current quoted; simp [read]
  | cons c s ih =>
    intro current quoted
    obtain ⟨hc, hs⟩ := not_or.1 (mt List.mem_cons.2 h)
    have hstep : scan ⟨.inQuote, result, current, quoted, false⟩ [c] = ⟨.inQuote, result, current ++ [c], quoted, false⟩ := by
      simp [scan, Ne.symm hc]
    rw [read_cons, hstep, ih hs, List.append_assoc, List.singleton_append]

theorem read_item (result : List Text) (current : Text) (quoted : Bool) (item : Item) :
    read ⟨.inDoubleQuote, result, current, quoted, false⟩ item.render =
      ⟨.inDoubleQuote, result, current ++ item.value, quoted, false⟩ := by
  cases item with
  | plain c h => simp [Item.render, Item.value, read, scan, h.1, h.2]
  | slash c =>
    by_cases hquote : c = '"'
    · simp [Item.render, Item.value, read, scan, hquote]
    · by_cases hslash : c = '\\'
      · simp [Item.render, Item.value, read, scan, hslash]
      · simp [Item.render, Item.value, read, scan, hquote, hslash]

theorem read_items (result : List Text) (quoted : Bool) (items : List Item) : ∀ current : Text,
    read ⟨.inDoubleQuote, result, current, quoted, false⟩ (items.flatMap Item.render) =
      ⟨.inDoubleQuote, result, current ++ items.flatMap Item.value, quoted, false⟩ := by
  induction items with
  | nil => intro current; simp [read]
  | cons item items ih =>
    intro current
    rw [List.flatMap_cons, List.flatMap_cons, read_append, read_item, ih, List.append_assoc]

theorem read_piece (result : List Text) (current : Text) (quoted : Bool) (p : Piece) :
    read (ready result current quoted) p.render = ready result (current ++ p.value) p.quotes := by
  cases p with
  | plain c h =>
    rw [Piece.render, read_cons, scan_of_plain _ (Tokenizer.plain_singleton h)]
    rfl
  | escaped c => simp [Piece.render, Piece.value, Piece.quotes, read, scan, ready]
  | single s h =>
    have hopen : scan (ready result current quoted) ['\''] = ⟨.inQuote, result, current, false, false⟩ := rfl
    rw [Piece.render, List.cons_append, read_cons, hopen, read_append, read_single result h]
    rfl
  | double items =>
    have hopen : scan (ready result current quoted) ['"'] = ⟨.inDoubleQuote, result, current, false, false⟩ := rfl
    rw [Piece.render, List.cons_append, read_cons, hopen, read_append, read_items]
    rfl

/-- The word that is being read, if there is one. -/
def pending (current : Text) (quoted : Bool) : Option Text := if quoted ∨ current ≠ [] then some current else none

theorem getD_pending (current : Text) (quoted : Bool) : (pending current quoted).getD [] = current := by
  unfold pending
  split
  · rfl
  · rename_i h
    rw [Option.getD_none]
    exact (not_not.1 (not_or.1 h).2).symm

/-- A piece is a word, or part of one, even if it is an empty quote. -/
theorem pending_piece (current : Text) (p : Piece) : pending (current ++ p.value) p.quotes = some (current ++ p.value) := by
  unfold pending
  cases p <;> simp [Piece.value, Piece.quotes]

theorem read_space (result : List Text) (current : Text) (quoted : Bool) :
    read (ready result current quoted) [' '] = ready (result ++ (pending current quoted).toList) [] false := by
  unfold pending
  by_cases h : quoted = true ∨ current ≠ []
  · simp only [read, ready, scan, List.foldl_cons, List.foldl_nil, if_pos h]
    rfl
  · simp only [read, ready, scan, List.foldl_cons, List.foldl_nil, if_neg h]
    have hnil : current = [] := not_not.1 (not_or.1 h).2
    simp [hnil]

/-- **Reading a line** leaves its words in the result, the last of them still in the buffer. -/
theorem read_line (line : List Symbol) : ∀ (result : List Text) (current : Text) (quoted : Bool),
    ∃ result' current' quoted', read (ready result current quoted) (render line) = ready result' current' quoted' ∧
      result' ++ (pending current' quoted').toList = result ++ wordsFrom (pending current quoted) line := by
  induction line with
  | nil => exact fun result current quoted => ⟨result, current, quoted, rfl, by rw [wordsFrom]⟩
  | cons symbol line ih =>
    intro result current quoted
    have hsplit : render (symbol :: line) = symbol.render ++ render line := rfl
    rw [hsplit, read_append]
    cases symbol with
    | space =>
      obtain ⟨result', current', quoted', hread, hwords⟩ := ih (result ++ (pending current quoted).toList) [] false
      refine ⟨result', current', quoted', ?_, ?_⟩
      · rw [Symbol.render, read_space, hread]
      · rw [hwords, wordsFrom, List.append_assoc]
        rfl
    | piece p =>
      obtain ⟨result', current', quoted', hread, hwords⟩ := ih result (current ++ p.value) p.quotes
      refine ⟨result', current', quoted', ?_, ?_⟩
      · rw [Symbol.render, read_piece, hread]
      · rw [hwords, wordsFrom, getD_pending, pending_piece]

theorem finish_read (toProcess : Text) (line : List Symbol) (rest : Rest) :
    finish toProcess (read (ready [] [] false) (render line ++ rest.render)) = rest.outcome line toProcess := by
  obtain ⟨result, current, quoted, hread, hwords⟩ := read_line line [] [] false
  rw [read_append, hread]
  cases rest with
  | nothing =>
    have hok : finish toProcess (ready result current quoted) = .ok (result ++ (pending current quoted).toList) := by
      show Except.ok (if quoted = true ∨ current ≠ [] then result ++ [current] else result) = _
      unfold pending
      by_cases h : quoted = true ∨ current ≠ []
      · rw [if_pos h, if_pos h, Option.toList_some]
      · rw [if_neg h, if_neg h, Option.toList_none, List.append_nil]
    rw [Rest.render, read, List.foldl_nil, hok, hwords]
    rfl
  | slash => rfl
  | single s h =>
    have hopen : scan (ready result current quoted) ['\''] = ⟨.inQuote, result, current, false, false⟩ := rfl
    rw [Rest.render, read_cons, hopen, read_single result h]
    rfl
  | double items last =>
    have hopen : scan (ready result current quoted) ['"'] = ⟨.inDoubleQuote, result, current, false, false⟩ := rfl
    rw [Rest.render, List.cons_append, read_cons, hopen, read_append, read_items]
    cases last <;> rfl

theorem translateCommandline_eq (text : Text) :
    translateCommandline (some text) = finish text (read (ready [] [] false) text) := by
  unfold translateCommandline
  dsimp only
  rw [foldl_scan]
  split
  · rename_i hnil
    subst hnil
    rfl
  · rfl

/-! ## The characters of the words -/

/-- The buffer and the result hold characters of `P`. -/
structure Holds (P : Char → Prop) (s : Scan) : Prop where
  result  : ∀ word ∈ s.result, ∀ c ∈ word, P c
  current : ∀ c ∈ s.current, P c

variable {P : Char → Prop} {s : Scan}

theorem Holds.append (h : Holds P s) {w : Text} (hw : ∀ c ∈ w, P c) : ∀ c ∈ s.current ++ w, P c :=
  List.forall_mem_append.2 ⟨h.current, hw⟩

theorem Holds.flush (h : Holds P s) : ∀ word ∈ s.result ++ [s.current], ∀ c ∈ word, P c :=
  List.forall_mem_append.2 ⟨h.result, by simpa using h.current⟩

theorem holds_scan (hslash : P '\\') (h : Holds P s) {w : Text} (hw : ∀ c ∈ w, P c) : Holds P (scan s w) := by
  have hadd := h.append hw
  have hescaped : ∀ c ∈ (if s.lastTokenIsSlash then s.current ++ ['\\'] else s.current) ++ w, P c := by
    refine List.forall_mem_append.2 ⟨?_, hw⟩
    split
    · exact h.append (by simpa using hslash)
    · exact h.current
  unfold scan
  split
  · split
    · exact ⟨h.result, h.current⟩
    · exact ⟨h.result, hadd⟩
  · split
    · split
      · exact ⟨h.result, hadd⟩
      · exact ⟨h.result, h.current⟩
    · split
      · split
        · exact ⟨h.result, hadd⟩
        · exact ⟨h.result, h.current⟩
      · exact ⟨h.result, hescaped⟩
  · split
    · exact ⟨h.result, hadd⟩
    · split
      · exact ⟨h.result, h.current⟩
      · split
        · exact ⟨h.result, h.current⟩
        · split
          · exact ⟨h.result, h.current⟩
          · split
            · split
              · exact ⟨h.flush, by simp⟩
              · exact ⟨h.result, h.current⟩
            · exact ⟨h.result, hadd⟩

theorem holds_read (hslash : P '\\') {text : Text} (htext : ∀ c ∈ text, P c) :
    ∀ {s : Scan}, Holds P s → Holds P (read s text) := by
  induction text with
  | nil => exact fun h => h
  | cons c text ih =>
    intro s h
    obtain ⟨hc, hrest⟩ := List.forall_mem_cons.1 htext
    exact ih hrest (holds_scan hslash h (by simpa using hc))

/-- **The words are made of the line's characters.** -/
theorem mem_of_translateCommandline (hslash : P '\\') {text : Text} (htext : ∀ c ∈ text, P c) {args : List Text}
    (hok : translateCommandline (some text) = .ok args) : ∀ arg ∈ args, ∀ c ∈ arg, P c := by
  have hstart : Holds P (ready [] [] false) := ⟨by simp [ready], by simp [ready]⟩
  have hread := holds_read hslash htext hstart
  rw [translateCommandline_eq, finish] at hok
  split at hok
  · cases hok
  · split at hok
    · cases hok
    · cases hok
      split
      · exact hread.flush
      · exact hread.result

/-! ## Every text is a line and what it leaves open -/

theorem split_single (text : Text) : (∃ s rest, '\'' ∉ s ∧ text = s ++ '\'' :: rest) ∨ '\'' ∉ text := by
  by_cases h : '\'' ∈ text
  · obtain ⟨s, rest, htext, hs⟩ := List.eq_append_cons_of_mem h
    exact .inl ⟨s, rest, hs, htext⟩
  · exact .inr h

theorem split_double : ∀ text : Text,
    (∃ (items : List Item) (rest : Text), text = items.flatMap Item.render ++ '"' :: rest) ∨
      ∃ (items : List Item) (last : Bool), text = items.flatMap Item.render ++ (if last then ['\\'] else [])
  | [] => .inr ⟨[], false, rfl⟩
  | c :: text => by
    by_cases hquote : c = '"'
    · exact .inl ⟨[], text, by simp [hquote]⟩
    by_cases hslash : c = '\\'
    · cases text with
      | nil => exact .inr ⟨[], true, by simp [hslash]⟩
      | cons d text =>
        rcases split_double text with ⟨items, rest, h⟩ | ⟨items, last, h⟩
        · exact .inl ⟨.slash d :: items, rest, by rw [h, hslash]; rfl⟩
        · exact .inr ⟨.slash d :: items, last, by rw [h, hslash]; rfl⟩
    · rcases split_double text with ⟨items, rest, h⟩ | ⟨items, last, h⟩
      · exact .inl ⟨.plain c ⟨hslash, hquote⟩ :: items, rest, by rw [h]; rfl⟩
      · exact .inr ⟨.plain c ⟨hslash, hquote⟩ :: items, last, by rw [h]; rfl⟩

/-- A symbol before a text that is split already. -/
theorem split_cons {text : Text} (symbol : Symbol) (h : ∃ line rest, text = render line ++ Rest.render rest) :
    ∃ line rest, symbol.render ++ text = render line ++ Rest.render rest := by
  obtain ⟨line, rest, rfl⟩ := h
  exact ⟨symbol :: line, rest, by rw [← List.append_assoc]; rfl⟩

theorem split_text : ∀ text : Text, ∃ line rest, text = render line ++ Rest.render rest
  | [] => ⟨[], .nothing, rfl⟩
  | c :: text => by
    -- the first character says what the text begins with
    by_cases hspecial : special c = false
    · exact split_cons (.piece (.plain c hspecial)) (split_text text)
    by_cases hspace : c = ' '
    · exact hspace ▸ split_cons .space (split_text text)
    by_cases hslash : c = '\\'
    · subst hslash
      cases text with
      | nil => exact ⟨[], .slash, rfl⟩
      | cons d text => exact split_cons (.piece (.escaped d)) (split_text text)
    by_cases hquote : c = '\''
    · subst hquote
      rcases split_single text with ⟨s, rest, hs, htext⟩ | hs
      · have hlength := congrArg List.length htext
        have hrest := split_cons (.piece (.single s hs)) (split_text rest)
        simpa [Symbol.render, Piece.render, htext] using hrest
      · exact ⟨[], .single text hs, rfl⟩
    · have hdouble : c = '"' := by simpa [special, hspace, hslash, hquote] using hspecial
      subst hdouble
      rcases split_double text with ⟨items, rest, htext⟩ | ⟨items, last, rfl⟩
      · have hlength := congrArg List.length htext
        have hrest := split_cons (.piece (.double items)) (split_text rest)
        simpa [Symbol.render, Piece.render, htext] using hrest
      · exact ⟨[], .double items last, rfl⟩
termination_by text => text.length
decreasing_by all_goals simp only [List.length_cons, List.length_append] at *; omega

/-- **The language of command lines.**  A text is accepted just when it is a line of the grammar, and then the words are the
line's; it is refused for a backslash, or for a quote, that a line leaves open at its end, and for nothing else. -/
theorem translateCommandline_iff (text : Text) :
    (∀ args, translateCommandline (some text) = .ok args ↔ ∃ line, render line = text ∧ words line = args) ∧
      ∀ e, translateCommandline (some text) = .error e ↔
        ∃ line rest, render line ++ Rest.render rest = text ∧ rest.outcome line text = .error e := by
  obtain ⟨line, rest, hsplit⟩ := split_text text
  have houtcome : ∀ line rest, render line ++ Rest.render rest = text →
      translateCommandline (some text) = rest.outcome line text := by
    rintro line rest rfl
    rw [translateCommandline_eq, finish_read]
  constructor
  · intro args
    constructor
    · intro hok
      rw [houtcome line rest hsplit.symm] at hok
      cases rest with
      | nothing =>
        rw [Rest.render, List.append_nil] at hsplit
        exact ⟨line, hsplit.symm, by simpa [Rest.outcome] using hok⟩
      | slash | single s h | double items last => cases hok
    · rintro ⟨line', rfl, rfl⟩
      rw [houtcome line' .nothing (List.append_nil _)]
      rfl
  · intro e
    constructor
    · intro herror
      rw [houtcome line rest hsplit.symm] at herror
      exact ⟨line, rest, hsplit.symm, herror⟩
    · rintro ⟨line', rest', h, herror⟩
      rw [houtcome line' rest' h, herror]

/-! ## Writing a line -/

/-- The pieces of an argument as `toString` writes them. -/
def pieces (arg : Text) : List Symbol :=
  arg.map (fun c => if h : special c = false then .piece (.plain c h) else .piece (.escaped c))

theorem render_pieces (arg : Text) : render (pieces arg) = Tokenizer.escape '\\' special arg := by
  induction arg with
  | nil => rfl
  | cons c arg ih =>
    have hcons : render (pieces (c :: arg)) = (if special c then ['\\', c] else [c]) ++ render (pieces arg) := by
      cases h : special c <;> simp [pieces, render, h, Symbol.render, Piece.render]
    rw [hcons, ih]
    rfl

theorem wordsFrom_pieces (line : List Symbol) (arg : Text) : ∀ word : Option Text,
    wordsFrom word (pieces arg ++ line) =
      wordsFrom (if arg = [] then word else some (word.getD [] ++ arg)) line := by
  induction arg with
  | nil => exact fun word => rfl
  | cons c arg ih =>
    intro word
    have hcons : wordsFrom word (pieces (c :: arg) ++ line) =
        wordsFrom (some (word.getD [] ++ [c])) (pieces arg ++ line) := by
      cases h : special c <;> simp [pieces, h, wordsFrom, Piece.value]
    rw [hcons, ih, if_neg (List.cons_ne_nil c arg)]
    by_cases harg : arg = []
    · rw [if_pos harg, harg]
    · rw [if_neg harg, Option.getD_some, List.append_assoc, List.singleton_append]

/-- The line that `toString` writes, behind something or at the beginning. -/
def lineOf : Bool → List Text → List Symbol
  | _, []                => []
  | behind, arg :: args => (if behind then [.space] else []) ++ pieces arg ++ lineOf (behind || decide (arg ≠ [])) args

theorem appendArg_eq (result arg : Text) :
    appendArg result arg = result ++ render ((if result ≠ [] then [.space] else []) ++ pieces arg) := by
  by_cases h : result = []
  · simp [appendArg, h, ← render_pieces]
  · simp [appendArg, h, ← render_pieces, render, Symbol.render]

theorem appendArg_ne_nil (result arg : Text) : appendArg result arg ≠ [] ↔ result ≠ [] ∨ arg ≠ [] := by
  by_cases h : result = []
  · cases arg with
    | nil => simp [appendArg, h, Tokenizer.escape]
    | cons c arg => cases hc : special c <;> simp [appendArg, h, Tokenizer.escape, hc]
  · simp [appendArg, h]

theorem foldl_appendArg (args : List Text) : ∀ result : Text,
    args.foldl appendArg result = result ++ render (lineOf (decide (result ≠ [])) args) := by
  induction args with
  | nil => intro result; simp [lineOf, render]
  | cons arg args ih =>
    intro result
    have hbehind : decide (appendArg result arg ≠ []) = (decide (result ≠ []) || decide (arg ≠ [])) := by
      rw [← Bool.decide_or, decide_eq_decide]
      exact appendArg_ne_nil result arg
    rw [List.foldl_cons, ih, hbehind, appendArg_eq, lineOf]
    simp [render]

theorem wordsFrom_lineOf (args : List Text) :
    (∀ word : Option Text, wordsFrom word (lineOf true args) = word.toList ++ args.filter (· ≠ [])) ∧
      wordsFrom none (lineOf false args) = args.filter (· ≠ []) := by
  induction args with
  | nil => exact ⟨fun word => by simp [lineOf, wordsFrom], rfl⟩
  | cons arg args ih =>
    obtain ⟨hbehind, hfirst⟩ := ih
    constructor
    · intro word
      have hspace : wordsFrom word (lineOf true (arg :: args)) =
          word.toList ++ wordsFrom none (pieces arg ++ lineOf true args) := by
        simp [lineOf, wordsFrom]
      rw [hspace, wordsFrom_pieces, hbehind]
      by_cases h : arg = [] <;> simp [h]
    · by_cases h : arg = []
      · simpa [lineOf, pieces, h] using hfirst
      · have hline : lineOf false (arg :: args) = pieces arg ++ lineOf true args := by simp [lineOf, h]
        rw [hline, wordsFrom_pieces, hbehind]
        simp [h]

/-- **What `toString` writes is read back**, save for the empty arguments. -/
theorem translateCommandline_toString (args : List Text) :
    translateCommandline (some (toString (some args))) = .ok (args.filter (· ≠ [])) := by
  have hline : toString (some args) = render (lineOf false args) := by
    rw [toString, foldl_appendArg]
    rfl
  rw [hline, translateCommandline_eq, ← List.append_nil (render _)]
  exact (finish_read _ (lineOf false args) .nothing).trans (congrArg Except.ok (wordsFrom_lineOf args).2)

end Commandline
end Riddles
