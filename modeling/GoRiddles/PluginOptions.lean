import GoRiddles.LinkedMap
import GoRiddles.Tokenizer
import GoRiddles.Usr
/-!
# PluginOptions — the options of a plugin as text

`PluginOptions.kt`.  The options are a hash map, so its entries come in some order (`Iteration`), and the text depends on it;
whatever the order, the text is read back as the same map.  One entry is not written in a way that could be read: the empty
key without a value.  A backslash takes the token after it, and as the reader puts a semicolon behind the text there always
is one.
-/
namespace Riddles

/-- `Char.isISOControl`. -/
def isISOControl (c : Char) : Bool := decide (c.toNat ≤ 0x1F) || decide (0x7F ≤ c.toNat ∧ c.toNat ≤ 0x9F)

structure PluginOptions where
  id      : Text
  options : LinkedMap Text (Option Text)

namespace PluginOptions

/-- `PluginOptions()`. -/
def new : PluginOptions := ⟨[], .empty⟩

/-- The delimiters, which are also the characters that `append` escapes. -/
def special (c : Char) : Bool := c = '\\' || c = '=' || c = ';'

/-- The object and the local variables of the constructor. -/
structure Parse where
  opts    : PluginOptions
  parseId : Bool
  current : Text
  key     : Option Text

/-- The `";"` branch. -/
def Parse.cut (s : Parse) : Parse :=
  match s.key with
  | some key =>
    { opts    := { s.opts with options := s.opts.options.put key (some s.current) }
      parseId := false
      current := []
      key     := none }
  | none =>
    if s.current ≠ [] then
      if s.parseId then { opts := { s.opts with id := s.current }, parseId := false, current := [], key := none }
      else { s with opts := { s.opts with options := s.opts.options.put s.current none }, current := [] }
    else { s with parseId := false }

/-- The branches of the loop other than `"\\"`. -/
def Parse.token (s : Parse) (nextToken : Text) : Parse :=
  if nextToken = ['='] then
    match s.key with
    | none => { s with key := some s.current, current := [] }
    | some _ => { s with current := s.current ++ nextToken }
  else if nextToken = [';'] then s.cut
  else { s with current := s.current ++ nextToken }

/-- The loop. -/
def parseTokens : Parse → List Text → Except Thrown Parse
  | s, [] => .ok s
  | s, nextToken :: rest =>
    if nextToken = ['\\'] then
      match rest with
      | [] => .error .noSuchElement
      | next :: rest => parseTokens { s with current := s.current ++ next } rest
    else parseTokens (s.token nextToken) rest

/-- The private constructor. -/
def parse (options : Text) (parseId : Bool) : Except Thrown PluginOptions :=
  if options = [] then .ok new
  else if options.any isISOControl then .error (.illegalState "No control characters allowed.".toList)
  else (parseTokens ⟨new, parseId, [], none⟩ (Tokenizer.tokens special (options ++ [';']))).map Parse.opts

/-- `PluginOptions(options)`. -/
def ofLine (options : Text) : Except Thrown PluginOptions := parse options true

/-- `PluginOptions(id, options)`. -/
def ofOptions (id options : Text) : Except Thrown PluginOptions :=
  (parse options false).map (fun o => { o with id := id })

def append (result str : Text) : Text := result ++ Tokenizer.escape '\\' special str

def appendEntry (result : Text) (entry : Text × Option Text) : Text :=
  match entry.2 with
  | none => append (if result = [] then result else result ++ [';']) entry.1
  | some value => append (append (if result = [] then result else result ++ [';']) entry.1 ++ ['=']) value

/-- `toString`, with the entries as they come. -/
def toText (o : PluginOptions) (trimId : Bool) : Text :=
  if trimId then o.options.entries.foldl appendEntry []
  else if o.id = [] then []
  else o.options.entries.foldl appendEntry (append [] o.id)

/-- The order in which a hash map goes through its entries, by the order in which they were put. -/
structure Iteration where
  order : List (Text × Option Text) → List (Text × Option Text)
  perm  : ∀ entries, (order entries).Perm entries

/-- The options with their entries as the hash map goes through them. -/
def through (hash : Iteration) (o : PluginOptions) : PluginOptions :=
  { o with
    options := ⟨hash.order o.options.entries, ((hash.perm o.options.entries).map Prod.fst).nodup_iff.2 o.options.nodup⟩ }

def toString (hash : Iteration) (o : PluginOptions) (trimId : Bool) : Text := (o.through hash).toText trimId

/-- Going through the entries changes no option. -/
theorem get_through (hash : Iteration) (o : PluginOptions) (key : Text) :
    (o.through hash).options.get key = o.options.get key := by
  apply Option.ext
  intro value
  rw [LinkedMap.get_eq_some, LinkedMap.get_eq_some]
  exact (hash.perm o.options.entries).mem_iff

/-! ## The loop on characters -/

/-- The loop with the backslash as part of its state. -/
def scan (s : Parse × Bool) (nextToken : Text) : Parse × Bool :=
  if s.2 then ({ s.1 with current := s.1.current ++ nextToken }, false)
  else if nextToken = ['\\'] then (s.1, true)
  else (s.1.token nextToken, false)

theorem parseTokens_eq : ∀ (tokens : List Text) (s : Parse), parseTokens s tokens =
    if (tokens.foldl scan (s, false)).2 then .error .noSuchElement else .ok (tokens.foldl scan (s, false)).1
  | [], s => rfl
  | [nextToken], s => by
    unfold parseTokens
    by_cases hslash : nextToken = ['\\']
    · simp [scan, hslash]
    · simp [scan, hslash, parseTokens]
  | nextToken :: next :: rest, s => by
    unfold parseTokens
    by_cases hslash : nextToken = ['\\']
    · have hscan : scan (s, false) nextToken = (s, true) := by simp [scan, hslash]
      have hnext : scan (s, true) next = ({ s with current := s.current ++ next }, false) := rfl
      rw [if_pos hslash, List.foldl_cons, hscan, List.foldl_cons, hnext]
      exact parseTokens_eq rest _
    · have hscan : scan (s, false) nextToken = (s.token nextToken, false) := by simp [scan, hslash]
      rw [if_neg hslash, List.foldl_cons, hscan]
      exact parseTokens_eq (next :: rest) _

theorem scan_of_plain (s : Parse × Bool) {w : Text} (hw : Tokenizer.Plain special w) :
    scan s w = ({ s.1 with current := s.1.current ++ w }, false) := by
  have h₁ : w ≠ ['\\'] := hw.ne_singleton rfl
  have h₂ : w ≠ ['='] := hw.ne_singleton rfl
  have h₃ : w ≠ [';'] := hw.ne_singleton rfl
  unfold scan Parse.token
  rw [if_neg h₁, if_neg h₂, if_neg h₃]
  split <;> rfl

def read (s : Parse × Bool) (text : Text) : Parse × Bool := text.foldl (fun s c => scan s [c]) s

theorem read_append (s : Parse × Bool) (v w : Text) : read s (v ++ w) = read (read s v) w := List.foldl_append

theorem foldl_scan (text : Text) (s : Parse × Bool) : (Tokenizer.tokens special text).foldl scan s = read s text := by
  refine Tokenizer.foldl_tokens (fun s c w hc hw => ?_) text s
  rw [scan_of_plain s (hw.cons hc), scan_of_plain s (Tokenizer.plain_singleton hc), scan_of_plain _ hw]
  simp

/-- The semicolon behind the text is there for a backslash at its end. -/
theorem read_semicolon (s : Parse × Bool) : (read s [';']).2 = false := by
  obtain ⟨s, slash⟩ := s
  cases slash <;> rfl

/-- **The loop does not run out of tokens.** -/
theorem parse_eq (options : Text) (parseId : Bool) (hne : options ≠ []) (hclean : options.any isISOControl = false) :
    parse options parseId = .ok (read (⟨new, parseId, [], none⟩, false) (options ++ [';'])).1.opts := by
  unfold parse
  have hslash : (read (⟨new, parseId, [], none⟩, false) (options ++ [';'])).2 = false := by
    rw [read_append]
    exact read_semicolon _
  rw [if_neg hne, if_neg (by simp [hclean]), parseTokens_eq, foldl_scan, if_neg (by simp [hslash])]
  rfl

/-! ## Reading what was written -/

theorem read_escape (str : Text) : ∀ s : Parse,
    read (s, false) (Tokenizer.escape '\\' special str) = ({ s with current := s.current ++ str }, false) := by
  induction str with
  | nil => intro s; simp [Tokenizer.escape, read]
  | cons c str ih =>
    intro s
    have hcons : Tokenizer.escape '\\' special (c :: str) =
        (if special c then ['\\', c] else [c]) ++ Tokenizer.escape '\\' special str := rfl
    have hchar : read (s, false) (if special c then ['\\', c] else [c]) =
        ({ s with current := s.current ++ [c] }, false) := by
      cases hc : special c with
      | true => rfl
      | false =>
        rw [if_neg (by simp)]
        exact scan_of_plain (s, false) (Tokenizer.plain_singleton hc)
    rw [hcons, read_append, hchar, ih]
    simp

/-- The loop between two options. -/
def between (o : PluginOptions) : Parse := ⟨o, false, [], none⟩

def entryText (entry : Text × Option Text) : Text :=
  Tokenizer.escape '\\' special entry.1 ++
    match entry.2 with
    | none => []
    | some value => '=' :: Tokenizer.escape '\\' special value

theorem appendEntry_eq (result : Text) (entry : Text × Option Text) :
    appendEntry result entry = (if result = [] then [] else result ++ [';']) ++ entryText entry := by
  have hnil : (if result = [] then result else result ++ [';']) = if result = [] then [] else result ++ [';'] := by
    split
    · rename_i h
      exact h
    · rfl
  obtain ⟨key, value⟩ := entry
  cases value <;> simp [appendEntry, append, entryText, hnil]

/-- What an option that was written does to the options that are read. -/
def apply (o : PluginOptions) (entry : Text × Option Text) : PluginOptions :=
  if entry = ([], none) then o else { o with options := o.options.put entry.1 entry.2 }

theorem read_entry (o : PluginOptions) (entry : Text × Option Text) :
    read (between o, false) (entryText entry ++ [';']) = (between (o.apply entry), false) := by
  obtain ⟨key, value⟩ := entry
  unfold entryText
  rw [List.append_assoc, read_append, read_escape]
  cases value with
  | none =>
    by_cases hkey : key = []
    · simp [hkey, apply, between, read, scan, Parse.token, Parse.cut]
    · simp [hkey, apply, between, read, scan, Parse.token, Parse.cut]
  | some value =>
    have hequals : read ({ between o with current := (between o).current ++ key }, false) ['='] =
        (⟨o, false, [], some key⟩, false) := rfl
    rw [List.cons_append, ← List.singleton_append, read_append, hequals, read_append, read_escape]
    simp [apply, between, read, scan, Parse.token, Parse.cut]

/-- After the text, and a semicolon if there is a text, the loop is between options with these ones. -/
def Reads (start : Parse) (result : Text) (o : PluginOptions) : Prop :=
  if result = [] then start = between o else read (start, false) (result ++ [';']) = (between o, false)

theorem entryText_eq_nil {entry : Text × Option Text} (h : entryText entry = []) : entry = ([], none) := by
  obtain ⟨key, value⟩ := entry
  cases key with
  | nil =>
    cases value with
    | none => rfl
    | some value => simp [entryText] at h
  | cons c key => cases hc : special c <;> simp [entryText, Tokenizer.escape, hc] at h

theorem reads_entry {start : Parse} {before : Text} {o : PluginOptions} (h : read (start, false) before = (between o, false))
    (entry : Text × Option Text) : Reads start (before ++ entryText entry) (o.apply entry) := by
  unfold Reads
  split
  · -- nothing was written so far, and nothing is written now
    rename_i hnil
    obtain ⟨rfl, hentry⟩ := List.append_eq_nil_iff.1 hnil
    rw [apply, if_pos (entryText_eq_nil hentry)]
    exact congrArg Prod.fst h
  · rw [List.append_assoc, read_append, h, read_entry]

theorem reads_appendEntry {start : Parse} {result : Text} {o : PluginOptions} (h : Reads start result o)
    (entry : Text × Option Text) : Reads start (appendEntry result entry) (o.apply entry) := by
  rw [appendEntry_eq]
  refine reads_entry ?_ entry
  unfold Reads at h
  by_cases hnil : result = []
  · rw [if_pos hnil] at h ⊢
    rw [h]
    rfl
  · rw [if_neg hnil] at h ⊢
    exact h

theorem reads_entries {start : Parse} (entries : List (Text × Option Text)) : ∀ {result : Text} {o : PluginOptions},
    Reads start result o → Reads start (entries.foldl appendEntry result) (entries.foldl apply o) := by
  induction entries with
  | nil => exact fun h => h
  | cons entry entries ih => exact fun h => ih (reads_appendEntry h entry)

theorem apply_entries (entries : List (Text × Option Text)) : ∀ o : PluginOptions,
    entries.foldl apply o = { o with options := o.options.putAll (entries.filter (fun entry => entry ≠ ([], none))) } := by
  induction entries with
  | nil => exact fun o => rfl
  | cons entry entries ih =>
    intro o
    rw [List.foldl_cons, ih]
    by_cases h : entry = ([], none)
    · simp [apply, h]
    · simp [apply, h, LinkedMap.putAll]

/-- **The options that can be read back**: all but the empty key without a value. -/
def written (o : PluginOptions) (key : Text) : Option (Option Text) :=
  if key = [] ∧ o.options.get key = some none then none else o.options.get key

theorem get_written (o : PluginOptions) (id : Text) (key : Text) :
    (o.options.entries.foldl apply ⟨id, .empty⟩).options.get key = o.written key := by
  have hsub : (o.options.entries.filter (fun entry => entry ≠ ([], none))).Sublist o.options.entries := List.filter_sublist
  have hnodup := o.options.nodup.sublist (hsub.map Prod.fst)
  rw [apply_entries, LinkedMap.get_putAll _ _ hnodup, LinkedMap.get_empty, Option.or_none]
  apply Option.ext
  intro value
  have hfiltered : ((LinkedMap.mk _ hnodup).get key = some value ↔ _) := LinkedMap.get_eq_some
  unfold LinkedMap.get at hfiltered
  rw [hfiltered, written, List.mem_filter, decide_eq_true_iff, Ne, Prod.mk.injEq, ← LinkedMap.get_eq_some]
  by_cases hempty : key = [] ∧ o.options.get key = some none
  · rw [if_pos hempty, hempty.2]
    simp [hempty.1, eq_comm]
  · rw [if_neg hempty]
    constructor
    · exact fun h => h.1
    · rintro h
      refine ⟨h, fun hkey => hempty ⟨hkey.1, by rw [h, hkey.2]⟩⟩

/-! ## Control characters -/

/-- A text without control characters. -/
def Clear (text : Text) : Prop := ∀ c ∈ text, isISOControl c = false

instance (text : Text) : Decidable (Clear text) := List.decidableBAll (fun c => isISOControl c = false) text

theorem clear_nil : Clear [] := fun _ h => absurd h List.not_mem_nil

theorem clear_append {v w : Text} : Clear (v ++ w) ↔ Clear v ∧ Clear w := List.forall_mem_append

theorem clear_escape (text : Text) : Clear (Tokenizer.escape '\\' special text) ↔ Clear text := by
  constructor
  · intro h c hc
    refine h c (List.mem_flatMap.2 ⟨c, hc, ?_⟩)
    split <;> simp
  · intro h c hc
    obtain ⟨d, hd, hcd⟩ := List.mem_flatMap.1 hc
    split at hcd
    · rcases List.mem_cons.1 hcd with rfl | hcd
      · rfl
      · rw [List.mem_singleton.1 hcd]
        exact h d hd
    · rw [List.mem_singleton.1 hcd]
      exact h d hd

/-- An entry without control characters. -/
def ClearEntry (entry : Text × Option Text) : Prop := Clear entry.1 ∧ ∀ value, entry.2 = some value → Clear value

/-- Options without control characters. -/
structure Clean (o : PluginOptions) : Prop where
  id      : Clear o.id
  entries : ∀ entry ∈ o.options.entries, ClearEntry entry

theorem clear_appendEntry (result : Text) (entry : Text × Option Text) :
    Clear (appendEntry result entry) ↔ Clear result ∧ ClearEntry entry := by
  have hsemicolon : Clear [';'] := by simp [Clear, isISOControl]
  have hequals : Clear ['='] := by simp [Clear, isISOControl]
  have hbefore : Clear (if result = [] then [] else result ++ [';']) ↔ Clear result := by
    split
    · rename_i hnil
      rw [hnil]
    · rw [clear_append, and_iff_left hsemicolon]
  rw [appendEntry_eq, entryText, clear_append, clear_append, hbefore, clear_escape]
  cases hv : entry.2 with
  | none => simp [ClearEntry, hv, clear_nil]
  | some value =>
    have hvalue : Clear ('=' :: Tokenizer.escape '\\' special value) ↔ Clear value := by
      rw [← List.singleton_append, clear_append, and_iff_right hequals, clear_escape]
    simp [ClearEntry, hv, hvalue]

theorem clear_entries (entries : List (Text × Option Text)) : ∀ result : Text,
    Clear (entries.foldl appendEntry result) ↔ Clear result ∧ ∀ entry ∈ entries, ClearEntry entry := by
  induction entries with
  | nil => simp
  | cons entry entries ih =>
    intro result
    rw [List.foldl_cons, ih, clear_appendEntry, List.forall_mem_cons, and_assoc]

theorem any_isISOControl {text : Text} : text.any isISOControl = false ↔ Clear text := by
  simp [Clear, List.any_eq_false]

theorem parse_of_reads {text : Text} {parseId : Bool} {o : PluginOptions} (hclear : Clear text)
    (h : Reads ⟨new, parseId, [], none⟩ text o) : parse text parseId = .ok o := by
  unfold Reads at h
  by_cases hnil : text = []
  · rw [if_pos hnil] at h
    rw [parse, if_pos hnil]
    exact congrArg (fun s => Except.ok (Parse.opts s)) h
  · rw [if_neg hnil] at h
    rw [parse_eq text parseId hnil (any_isISOControl.2 hclear), h]
    rfl

theorem reads_nothing (o : PluginOptions) : Reads (between o) [] o := by
  simp [Reads]

theorem escape_ne_nil {text : Text} (h : text ≠ []) : Tokenizer.escape '\\' special text ≠ [] := by
  cases text with
  | nil => exact absurd rfl h
  | cons c text => cases hc : special c <;> simp [Tokenizer.escape, hc]

theorem reads_id {id : Text} (h : id ≠ []) :
    Reads ⟨new, true, [], none⟩ (Tokenizer.escape '\\' special id) ⟨id, .empty⟩ := by
  unfold Reads
  rw [if_neg (escape_ne_nil h), read_append, read_escape]
  simp [read, scan, Parse.token, Parse.cut, h, between, new]

theorem ofOptions_toText {o : PluginOptions} (h : Clean o) :
    ∃ p, ofOptions o.id (o.toText true) = .ok p ∧ p.id = o.id ∧ ∀ key, p.options.get key = o.written key := by
  have hreads : Reads ⟨new, false, [], none⟩ (o.toText true) (o.options.entries.foldl apply ⟨[], .empty⟩) :=
    reads_entries o.options.entries (reads_nothing new)
  have hclear : Clear (o.toText true) := (clear_entries o.options.entries []).2 ⟨clear_nil, h.entries⟩
  refine ⟨{ o.options.entries.foldl apply ⟨[], .empty⟩ with id := o.id }, ?_, rfl, get_written o []⟩
  rw [ofOptions, parse_of_reads hclear hreads]
  rfl

theorem toText_line {o : PluginOptions} (hid : o.id ≠ []) :
    o.toText false = o.options.entries.foldl appendEntry (Tokenizer.escape '\\' special o.id) := by
  simp [toText, hid, append]

theorem clear_toText_line {o : PluginOptions} (hid : o.id ≠ []) : Clear (o.toText false) ↔ Clean o := by
  rw [toText_line hid, clear_entries, clear_escape]
  exact ⟨fun h => ⟨h.1, h.2⟩, fun h => ⟨h.id, h.entries⟩⟩

theorem ofLine_toText {o : PluginOptions} (h : Clean o) (hid : o.id ≠ []) :
    ∃ p, ofLine (o.toText false) = .ok p ∧ p.id = o.id ∧ ∀ key, p.options.get key = o.written key := by
  have hreads := reads_entries o.options.entries (reads_id hid)
  rw [← toText_line hid] at hreads
  refine ⟨_, parse_of_reads ((clear_toText_line hid).2 h) hreads, ?_, get_written o o.id⟩
  rw [apply_entries]

theorem ofLine_of_control {text : Text} (h : ¬ Clear text) :
    ofLine text = .error (.illegalState "No control characters allowed.".toList) := by
  have hcontrol : text.any isISOControl = true := by
    rw [← any_isISOControl] at h
    exact eq_true_of_ne_false h
  have hne : text ≠ [] := by
    rintro rfl
    cases hcontrol
  rw [ofLine, parse, if_neg hne, if_pos hcontrol]

theorem clean_through (hash : Iteration) {o : PluginOptions} : Clean (o.through hash) ↔ Clean o := by
  have hmem : ∀ entry, entry ∈ (o.through hash).options.entries ↔ entry ∈ o.options.entries :=
    fun _ => (hash.perm o.options.entries).mem_iff
  constructor
  · exact fun h => ⟨h.id, fun entry hentry => h.entries entry ((hmem entry).2 hentry)⟩
  · exact fun h => ⟨h.id, fun entry hentry => h.entries entry ((hmem entry).1 hentry)⟩

theorem written_through (hash : Iteration) (o : PluginOptions) (key : Text) :
    (o.through hash).written key = o.written key := by
  rw [written, get_through, written]

/-- **Options that are written are read back**, in whatever order the hash map goes through them, with the id on the line, if
there is one, or apart from it; the empty key without a value is lost.  Only a control character keeps a line from being
read. -/
theorem toString_read_back (hash : Iteration) (o : PluginOptions) :
    (Clean o → ∃ p, ofOptions o.id (o.toString hash true) = .ok p ∧ p.id = o.id ∧ ∀ key, p.options.get key = o.written key) ∧
      (o.id ≠ [] → Clean o →
        ∃ p, ofLine (o.toString hash false) = .ok p ∧ p.id = o.id ∧ ∀ key, p.options.get key = o.written key) ∧
      (o.id ≠ [] → ¬ Clean o →
        ofLine (o.toString hash false) = .error (.illegalState "No control characters allowed.".toList)) := by
  simp only [← written_through hash o, ← clean_through hash (o := o)]
  refine ⟨ofOptions_toText, fun hid h => ofLine_toText h hid, fun hid h => ofLine_of_control ?_⟩
  rw [toString, clear_toText_line (o := o.through hash) hid]
  exact h

/-! ## Any text -/

/-- What the loop keeps, on a text without control characters. -/
structure Good (s : Parse) : Prop where
  opts    : Clean s.opts
  current : Clear s.current
  key     : ∀ key, s.key = some key → Clear key
  /-- An option without a value has a key. -/
  named   : s.opts.options.get [] ≠ some none

theorem Clean.put {o : PluginOptions} (h : Clean o) {key : Text} {value : Option Text} (hkey : Clear key)
    (hvalue : ∀ v, value = some v → Clear v) : Clean { o with options := o.options.put key value } := by
  refine ⟨h.id, fun entry hentry => ?_⟩
  rcases LinkedMap.mem_put hentry with rfl | hold
  · exact ⟨hkey, hvalue⟩
  · exact h.entries entry hold

theorem Good.append {s : Parse} (h : Good s) {token : Text} (htoken : Clear token) :
    Good { s with current := s.current ++ token } :=
  ⟨h.opts, clear_append.2 ⟨h.current, htoken⟩, h.key, h.named⟩

theorem Good.cut {s : Parse} (h : Good s) : Good s.cut := by
  unfold Parse.cut
  split
  · rename_i key hkey
    refine ⟨h.opts.put (h.key key hkey) (fun v hv => Option.some.inj hv ▸ h.current), clear_nil, fun _ hk => ?_, ?_⟩
    · cases hk
    · rw [LinkedMap.get_put]
      split
      · simp
      · exact h.named
  · split
    · rename_i hnone hne
      split
      · exact ⟨⟨h.current, h.opts.entries⟩, clear_nil, fun _ hk => (by cases hk), h.named⟩
      · refine ⟨h.opts.put h.current (fun v hv => ?_), clear_nil, h.key, ?_⟩
        · cases hv
        · rw [LinkedMap.get_put, if_neg (Ne.symm hne)]
          exact h.named
    · exact ⟨h.opts, h.current, h.key, h.named⟩

theorem Good.token {s : Parse} (h : Good s) {token : Text} (htoken : Clear token) : Good (s.token token) := by
  unfold Parse.token
  split
  · split
    · refine ⟨h.opts, clear_nil, fun key hk => ?_, h.named⟩
      exact Option.some.inj hk ▸ h.current
    · exact h.append htoken
  · split
    · exact h.cut
    · exact h.append htoken

theorem good_scan {s : Parse × Bool} (h : Good s.1) {c : Char} (hc : isISOControl c = false) : Good (scan s [c]).1 := by
  have hclear : Clear [c] := by simpa [Clear] using hc
  unfold scan
  split
  · exact h.append hclear
  · split
    · exact h
    · exact h.token hclear

theorem good_read {text : Text} (htext : Clear text) : ∀ {s : Parse × Bool}, Good s.1 → Good (read s text).1 := by
  induction text with
  | nil => exact fun h => h
  | cons c text ih =>
    intro s h
    obtain ⟨hc, hrest⟩ := List.forall_mem_cons.1 htext
    exact ih hrest (good_scan h hc)

theorem good_parse {text : Text} (h : Clear text) (parseId : Bool) :
    ∃ o, parse text parseId = .ok o ∧ Clean o ∧ o.options.get [] ≠ some none := by
  have hnew : Clean new := ⟨clear_nil, fun entry hentry => absurd hentry List.not_mem_nil⟩
  by_cases hnil : text = []
  · exact ⟨new, by rw [parse, if_pos hnil], hnew, by simp [new]⟩
  · have hstart : Good ⟨new, parseId, [], none⟩ := ⟨hnew, clear_nil, fun _ hk => (by cases hk), by simp [new]⟩
    have hsemicolon : Clear [';'] := by simp [Clear, isISOControl]
    have hgood : Good (read (⟨new, parseId, [], none⟩, false) (text ++ [';'])).1 :=
      good_read (clear_append.2 ⟨h, hsemicolon⟩) hstart
    exact ⟨_, parse_eq text parseId hnil (any_isISOControl.2 h), hgood.opts, hgood.named⟩

/-- **Options apart from their id are read as they were gone through.** -/
theorem ofOptions_toString_through (hash : Iteration) {o : PluginOptions} (h : Clean o)
    (hnamed : o.options.get [] ≠ some none) : ofOptions o.id (o.toString hash true) = .ok (o.through hash) := by
  have hreads : Reads ⟨new, false, [], none⟩ (o.toString hash true)
      ((o.through hash).options.entries.foldl apply ⟨[], .empty⟩) :=
    reads_entries (o.through hash).options.entries (reads_nothing new)
  have hclear : Clear (o.toString hash true) :=
    (clear_entries (o.through hash).options.entries []).2 ⟨clear_nil, ((clean_through hash).2 h).entries⟩
  have hkeep : (o.through hash).options.entries.filter (fun entry => entry ≠ ([], none)) =
      (o.through hash).options.entries := by
    rw [List.filter_eq_self]
    intro entry hentry
    rw [decide_eq_true_iff]
    rintro rfl
    rw [← get_through hash] at hnamed
    exact hnamed (LinkedMap.get_eq_some.2 hentry)
  have hentries : LinkedMap.empty.putAll (o.through hash).options.entries = (o.through hash).options :=
    LinkedMap.ext (LinkedMap.entries_putAll (o.through hash).options.entries .empty (o.through hash).options.nodup)
  rw [ofOptions, parse_of_reads hclear hreads, apply_entries, hkeep, hentries]
  rfl

/-- Writing and reading again changes no option, in whatever order the hash map goes through them. -/
structure Settled (o : PluginOptions) : Prop where
  apart  : ∀ hash : Iteration,
    ∃ p, ofOptions o.id (o.toString hash true) = .ok p ∧ p.id = o.id ∧ ∀ key, p.options.get key = o.options.get key
  inLine : ∀ hash : Iteration, o.id ≠ [] →
    ∃ p, ofLine (o.toString hash false) = .ok p ∧ p.id = o.id ∧ ∀ key, p.options.get key = o.options.get key

theorem settled_of_clean {o : PluginOptions} (h : Clean o) (hnamed : o.options.get [] ≠ some none) : Settled o := by
  have hwritten : ∀ (hash : Iteration) (key : Text), (o.through hash).written key = o.options.get key := by
    intro hash key
    rw [written_through, written, if_neg]
    rintro ⟨rfl, hget⟩
    exact hnamed hget
  constructor
  · intro hash
    obtain ⟨p, hp, hid, hget⟩ := ofOptions_toText ((clean_through hash).2 h)
    exact ⟨p, hp, hid, fun key => (hget key).trans (hwritten hash key)⟩
  · intro hash hne
    obtain ⟨p, hp, hid, hget⟩ := ofLine_toText ((clean_through hash).2 h) hne
    exact ⟨p, hp, hid, fun key => (hget key).trans (hwritten hash key)⟩

/-- **Every text is read, or refused for a control character**; there is no other exception.  What is read is written in a form
that is read as the same options. -/
theorem ofLine_settles (text : Text) :
    (Clear text → ∃ o, ofLine text = .ok o ∧ Settled o) ∧
      (¬ Clear text → ofLine text = .error (.illegalState "No control characters allowed.".toList)) := by
  refine ⟨fun h => ?_, ofLine_of_control⟩
  obtain ⟨o, hparse, hclean, hnamed⟩ := good_parse h true
  exact ⟨o, hparse, settled_of_clean hclean hnamed⟩

end PluginOptions
end Riddles
