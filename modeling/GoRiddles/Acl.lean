import GoRiddles.SearchUrl
import GoRiddles.SortedList
import GoRiddles.Subnet
/-!
# Acl — access control lists as texts

`Acl.kt`.  A list is read line by line: blocks in brackets change the mode or the list that the lines after them go to, a
comment may import another list, and any other line is a subnet or else a hostname.  What was read is written in one form,
and that text is read as the same list, with whatever mode the reader begins (`fromReader_toString`).
-/
namespace Riddles

/-- What ends a reader: `error(…)`, or an `IOException`, which a malformed URL is too. -/
inductive AclFailure where
  | illegalState (message : Text)
  | ioException
  deriving DecidableEq

/-- The platform's addresses and URLs.  `URLSorter` compares host, port, file and protocol, and takes two URLs for the same if
`URL.equals` says so. -/
structure AclPlatform (U : Type) extends Subnet.AddressText where
  url       : Text → Option U
  urlText   : U → Text
  urlSorter : Sorter U

/-- The line terminators that `.` of the platform's regular expressions does not match. -/
def isTerminator (c : Char) : Bool := c.toNat ∈ [0x0A, 0x0B, 0x0C, 0x0D, 0x85, 0x2028, 0x2029]

def Unbroken (t : Text) : Prop := ∀ c ∈ t, isTerminator c = false

structure AclPlatform.Lawful {U : Type} (P : AclPlatform U) : Prop where
  address     : P.toAddressText.Lawful
  url_urlText : ∀ {t u}, P.url t = some u → P.url (P.urlText u) = some u
  ne_nil      : ∀ {t u}, P.url t = some u → P.urlText u ≠ []
  unbroken    : ∀ {t u}, P.url t = some u → Unbroken t → Unbroken (P.urlText u)

structure Acl (U : Type) where
  bypassHostnames : List Text
  proxyHostnames  : List Text
  subnets         : List Subnet
  urls            : List U
  bypass          : Bool
  deriving DecidableEq

namespace Acl

variable {U : Type}

/-- `String.compareTo`, on UTF-16 units. -/
def compareUnits : List Nat → List Nat → Ordering
  | [], []           => .eq
  | [], _ :: _       => .lt
  | _ :: _, []       => .gt
  | u :: us, v :: vs => (compare u v).then (compareUnits us vs)

theorem compareUnits_self : ∀ us : List Nat, compareUnits us us = .eq
  | []      => rfl
  | u :: us => by simp [compareUnits, compareUnits_self us]

/-- `StringSorter`. -/
def stringSorter : Sorter Text :=
  .ofOrder (fun a b => compareUnits (a.flatMap utf16) (b.flatMap utf16)) (fun _ => compareUnits_self _)

/-- `SubnetSorter`. -/
def subnetSorter : Sorter Subnet := .ofOrder Subnet.compareTo Subnet.compareTo_self

/-! ## Reading -/

/-- `\s` of the platform's regular expressions. -/
def isSpace (c : Char) : Bool :=
  (0x2000 ≤ c.toNat ∧ c.toNat ≤ 0x200A) ∨
    c.toNat ∈ [0x09, 0x0A, 0x0C, 0x0D, 0x20, 0xA0, 0x1680, 0x2028, 0x2029, 0x202F, 0x205F, 0x3000]

def importUrl : Text := "IMPORT_URL".toList

/-- `networkAclParser`: the last `>` must be the last character that is no space, so that there is one way to match. -/
def networkAclParser (comment : Text) : Option Text :=
  if importUrl.isPrefixOf comment then
    match (comment.drop importUrl.length).dropWhile isSpace with
    | '<' :: rest =>
      if (rest.rdropWhile isSpace).getLast? = some '>' ∧ (rest.rdropWhile isSpace).dropLast ≠ [] ∧
          (rest.rdropWhile isSpace).dropLast.all (fun c => !isTerminator c) then
        some (rest.rdropWhile isSpace).dropLast
      else none
    | _ => none
  else none

/-- The lists that `hostnames` and `subnets` stand for. -/
inductive Target where
  | bypassList
  | proxyList
  deriving DecidableEq

/-- The object and the local variables of `parse`; `target` is `none` while both variables are null. -/
structure Reading (U : Type) where
  acl           : Acl U
  bypass        : Bool
  bypassSubnets : List Subnet
  proxySubnets  : List Subnet
  target        : Option Target

def addHost (a : Acl U) (t : Target) (h : Text) : Acl U :=
  match t with
  | .bypassList => { a with bypassHostnames := SortedList.add stringSorter a.bypassHostnames h }
  | .proxyList  => { a with proxyHostnames := SortedList.add stringSorter a.proxyHostnames h }

def addUrl (P : AclPlatform U) (a : Acl U) (u : U) : Acl U :=
  { a with urls := SortedList.add P.urlSorter a.urls u }

namespace Reading

def addSubnet (r : Reading U) (t : Target) (s : Subnet) : Reading U :=
  match t with
  | .bypassList => { r with bypassSubnets := r.bypassSubnets ++ [s] }
  | .proxyList  => { r with proxySubnets := r.proxySubnets ++ [s] }

/-- The `when` over the blocks. -/
def block (r : Reading U) (input : Text) : Except AclFailure (Reading U) :=
  if input = "[outbound_block_list]".toList then .ok { r with target := none }
  else if input = "[black_list]".toList ∨ input = "[bypass_list]".toList then .ok { r with target := some .bypassList }
  else if input = "[white_list]".toList ∨ input = "[proxy_list]".toList then .ok { r with target := some .proxyList }
  else if input = "[reject_all]".toList ∨ input = "[bypass_all]".toList then .ok { r with bypass := true }
  else if input = "[accept_all]".toList ∨ input = "[proxy_all]".toList then .ok { r with bypass := false }
  else .error (.illegalState ("Unrecognized block: ".toList ++ input))

/-- A line without its comment. -/
def input (P : AclPlatform U) (r : Reading U) (input : Text) : Except AclFailure (Reading U) :=
  if input.head? = some '[' then r.block input
  else
    match r.target with
    | none => .ok r
    | some t =>
      if input = [] then .ok r
      else
        match Subnet.fromString P.toAddressText input with
        | none   => .ok { r with acl := r.acl.addHost t input }
        | some s => .ok (r.addSubnet t s)

/-- What a comment does before the line is looked at. -/
def comment (P : AclPlatform U) (r : Reading U) (comment : Text) : Except AclFailure (Reading U) :=
  match networkAclParser comment with
  | none => .ok r
  | some url =>
    match P.url url with
    | none   => .error .ioException
    | some u => .ok { r with acl := r.acl.addUrl P u }

def line (P : AclPlatform U) (r : Reading U) (line : Text) : Except AclFailure (Reading U) :=
  match r.comment P ((TextReader.cut '#' line).2.getD []) with
  | .error e => .error e
  | .ok r    => r.input P (TextReader.trim isWhitespace (TextReader.cut '#' line).1)

def lines (P : AclPlatform U) : Reading U → List Text → Except AclFailure (Reading U)
  | r, []      => .ok r
  | r, l :: ls =>
    match r.line P l with
    | .error e => .error e
    | .ok r    => lines P r ls

def start (defaultBypass : Bool) : Reading U :=
  ⟨⟨[], [], [], [], false⟩, defaultBypass, [], [], some (if defaultBypass then .proxyList else .bypassList)⟩

/-- The end of `fromReader`. -/
def finish (r : Reading U) : Acl U :=
  { r.acl with
    bypass  := r.bypass
    subnets := SortedList.addAll subnetSorter r.acl.subnets (if r.bypass then r.proxySubnets else r.bypassSubnets) }

end Reading

def fromReader (P : AclPlatform U) (reader : Text) (defaultBypass : Bool) : Except AclFailure (Acl U) :=
  ((Reading.start defaultBypass).lines P (TextReader.lines reader)).map Reading.finish

/-! ## Writing -/

def joinLines (l : List Text) : Text := ['\n'].intercalate l

def bypassList (P : AclPlatform U) (a : Acl U) : List Text :=
  if a.bypass then a.bypassHostnames else a.subnets.map (Subnet.toString P.toAddressText) ++ a.bypassHostnames

def proxyList (P : AclPlatform U) (a : Acl U) : List Text :=
  if a.bypass then a.subnets.map (Subnet.toString P.toAddressText) ++ a.proxyHostnames else a.proxyHostnames

def importLine (P : AclPlatform U) (u : U) : Text := "#IMPORT_URL <".toList ++ P.urlText u ++ ">".toList

def toString (P : AclPlatform U) (a : Acl U) : Text :=
  (if a.bypass then "[bypass_all]\n".toList else "[proxy_all]\n".toList) ++
    (if a.bypassList P ≠ [] then "[bypass_list]\n".toList ++ joinLines (a.bypassList P) ++ ['\n'] else []) ++
      (if a.proxyList P ≠ [] then "[proxy_list]\n".toList ++ joinLines (a.proxyList P) ++ ['\n'] else []) ++
        a.urls.flatMap (fun u => importLine P u ++ ['\n'])

/-! ## What was read can be written -/

def hosts (a : Acl U) : Target → List Text
  | .bypassList => a.bypassHostnames
  | .proxyList  => a.proxyHostnames

/-- A line that is a hostname. -/
structure Rule (P : AclPlatform U) (h : Text) : Prop where
  ne_nil  : h ≠ []
  trimmed : TextReader.trim isWhitespace h = h
  comment : '#' ∉ h
  oneLine : TextReader.OneLine h
  block   : h.head? ≠ some '['
  subnet  : Subnet.fromString P.toAddressText h = none

def Readable (P : AclPlatform U) (s : Subnet) : Prop := ∃ t, P.parseNumericAddress t = some s.address

def Importable (P : AclPlatform U) (u : U) : Prop := ∃ t, P.url t = some u ∧ Unbroken t

/-- Lists of items that are apart and that a text can hold. -/
structure Legible (P : AclPlatform U) (a : Acl U) : Prop where
  hosts         : ∀ t, ∀ h ∈ a.hosts t, Rule P h
  hosts_apart   : ∀ t, SortedList.Apart stringSorter (a.hosts t)
  subnets       : ∀ s ∈ a.subnets, Readable P s
  subnets_apart : SortedList.Apart subnetSorter a.subnets
  urls          : ∀ u ∈ a.urls, Importable P u
  urls_apart    : SortedList.Apart P.urlSorter a.urls

section
variable {P : AclPlatform U} {a : Acl U}

theorem Legible.addHost (h : Legible P a) (t : Target) {host : Text} (hrule : Rule P host) :
    Legible P (a.addHost t host) := by
  cases t with
  | bypassList =>
    refine { h with hosts := ?_, hosts_apart := ?_ }
    · rintro (_ | _) g hg
      · exact (SortedList.mem_add hg).elim (fun heq => heq ▸ hrule) (h.hosts .bypassList g)
      · exact h.hosts .proxyList g hg
    · rintro (_ | _)
      · exact SortedList.apart_add (h.hosts_apart .bypassList)
      · exact h.hosts_apart .proxyList
  | proxyList =>
    refine { h with hosts := ?_, hosts_apart := ?_ }
    · rintro (_ | _) g hg
      · exact h.hosts .bypassList g hg
      · exact (SortedList.mem_add hg).elim (fun heq => heq ▸ hrule) (h.hosts .proxyList g)
    · rintro (_ | _)
      · exact h.hosts_apart .bypassList
      · exact SortedList.apart_add (h.hosts_apart .proxyList)

theorem hosts_addUrl (u : U) : (a.addUrl P u).hosts = a.hosts := by
  funext t
  cases t <;> rfl

theorem Legible.addUrl (h : Legible P a) {u : U} (hu : Importable P u) : Legible P (a.addUrl P u) := by
  refine { h with hosts := ?_, hosts_apart := ?_, urls := ?_, urls_apart := SortedList.apart_add h.urls_apart }
  · rw [hosts_addUrl]
    exact h.hosts
  · rw [hosts_addUrl]
    exact h.hosts_apart
  · intro v hv
    exact (SortedList.mem_add hv).elim (fun heq => heq ▸ hu) (h.urls v)

/-- A comment that imports names a URL on one line. -/
theorem unbroken_of_networkAclParser {comment url : Text} (h : networkAclParser comment = some url) : Unbroken url := by
  unfold networkAclParser at h
  split at h
  · split at h
    · split at h
      · rename_i hurl
        cases h
        intro c hc
        simpa using List.all_eq_true.1 hurl.2.2 c hc
      · cases h
    · cases h
  · cases h

namespace Reading

variable {r r' : Reading U}

structure Good (P : AclPlatform U) (r : Reading U) : Prop where
  acl           : Legible P r.acl
  bypassSubnets : ∀ s ∈ r.bypassSubnets, Readable P s
  proxySubnets  : ∀ s ∈ r.proxySubnets, Readable P s

theorem Good.addSubnet (h : Good P r) (t : Target) {s : Subnet} (hs : Readable P s) : Good P (r.addSubnet t s) := by
  have hadd : ∀ {ss : List Subnet}, (∀ x ∈ ss, Readable P x) → ∀ x ∈ ss ++ [s], Readable P x := by
    intro ss hss x hx
    exact (List.mem_append.1 hx).elim (hss x) (fun heq => List.mem_singleton.1 heq ▸ hs)
  cases t with
  | bypassList => exact { h with bypassSubnets := hadd h.bypassSubnets }
  | proxyList => exact { h with proxySubnets := hadd h.proxySubnets }

theorem good_block {input : Text} (h : r.block input = .ok r') (hr : Good P r) : Good P r' := by
  unfold block at h
  repeat' split at h
  all_goals cases h
  all_goals exact ⟨hr.acl, hr.bypassSubnets, hr.proxySubnets⟩

theorem good_comment {comment : Text} (h : r.comment P comment = .ok r') (hr : Good P r) : Good P r' := by
  unfold Reading.comment at h
  split at h
  · cases h
    exact hr
  · rename_i url hurl
    split at h
    · cases h
    · rename_i u hu
      cases h
      exact ⟨hr.acl.addUrl ⟨url, hu, unbroken_of_networkAclParser hurl⟩, hr.bypassSubnets, hr.proxySubnets⟩

theorem good_input {l : Text} (hcomment : '#' ∉ l) (hline : TextReader.OneLine l)
    (h : r.input P (TextReader.trim isWhitespace l) = .ok r') (hr : Good P r) : Good P r' := by
  have hsub := TextReader.trim_subset isWhitespace l
  unfold Reading.input at h
  split at h
  · exact good_block h hr
  · rename_i hblock
    split at h
    · cases h
      exact hr
    · rename_i t ht
      split at h
      · cases h
        exact hr
      · rename_i hne
        split at h
        · rename_i hsubnet
          cases h
          have hrule : Rule P (TextReader.trim isWhitespace l) :=
            ⟨hne, TextReader.trim_trim _ l, fun hmem => hcomment (hsub hmem), hline.of_subset hsub, hblock, hsubnet⟩
          exact ⟨hr.acl.addHost t hrule, hr.bypassSubnets, hr.proxySubnets⟩
        · rename_i s hs
          cases h
          exact hr.addSubnet t ⟨_, Subnet.address_of_fromString hs⟩

theorem good_line {l : Text} (hl : TextReader.OneLine l) (h : r.line P l = .ok r') (hr : Good P r) :
    Good P r' := by
  unfold line at h
  split at h
  · cases h
  · rename_i r₁ hcomment
    exact good_input (TextReader.not_mem_cut l) (hl.of_subset (TextReader.cut_subset l)) h (good_comment hcomment hr)

theorem good_lines : ∀ {ls : List Text} {r : Reading U}, (∀ l ∈ ls, TextReader.OneLine l) →
    r.lines P ls = .ok r' → Good P r → Good P r'
  | [], r, _, h, hr => by
    cases h
    exact hr
  | l :: ls, r, hls, h, hr => by
    rw [lines] at h
    split at h
    · cases h
    · rename_i r₁ hline
      exact good_lines (fun m hm => hls m (List.mem_cons_of_mem _ hm)) h (good_line (hls l List.mem_cons_self) hline hr)

theorem hosts_finish (r : Reading U) : r.finish.hosts = r.acl.hosts := by
  funext t
  cases t <;> rfl

theorem Good.finish (h : Good P r) : Legible P r.finish := by
  have hsubnets : ∀ s ∈ if r.bypass then r.proxySubnets else r.bypassSubnets, Readable P s := by
    split
    · exact h.proxySubnets
    · exact h.bypassSubnets
  constructor
  case hosts =>
    rw [hosts_finish]
    exact h.acl.hosts
  case hosts_apart =>
    rw [hosts_finish]
    exact h.acl.hosts_apart
  case subnets => exact fun s hs => (SortedList.mem_addAll hs).elim (h.acl.subnets s) (hsubnets s)
  case subnets_apart => exact SortedList.apart_addAll h.acl.subnets_apart
  case urls => exact h.acl.urls
  case urls_apart => exact h.acl.urls_apart

theorem good_start (defaultBypass : Bool) : Good P (start defaultBypass) := by
  have hhosts : ∀ t, (start defaultBypass : Reading U).acl.hosts t = [] := by
    intro t
    cases t <;> rfl
  have hacl : Legible P (start defaultBypass).acl :=
    ⟨by simp [hhosts], by simp [hhosts], by simp [start], by simp [start], by simp [start], by simp [start]⟩
  exact ⟨hacl, by simp [start], by simp [start]⟩

end Reading

/-- **Whatever is read is legible.** -/
theorem legible_fromReader {reader : Text} {defaultBypass : Bool}
    (h : fromReader P reader defaultBypass = .ok a) : Legible P a := by
  unfold fromReader at h
  cases hlines : (Reading.start defaultBypass).lines P (TextReader.lines reader) with
  | error e =>
    rw [hlines] at h
    cases h
  | ok r =>
    rw [hlines] at h
    cases h
    exact (Reading.good_lines (fun l hl => TextReader.oneLine_of_mem_lines hl) hlines (Reading.good_start _)).finish

/-! ## What was written is read -/

def mode (bypass : Bool) : Text := if bypass then "[bypass_all]".toList else "[proxy_all]".toList

def header : Target → Text
  | .bypassList => "[bypass_list]".toList
  | .proxyList  => "[proxy_list]".toList

def underHeader (t : Target) (l : List Text) : List Text := if l = [] then [] else header t :: l

/-- The lines of `toString`. -/
def written (P : AclPlatform U) (a : Acl U) : List Text :=
  mode a.bypass :: (underHeader .bypassList (a.bypassList P) ++
    (underHeader .proxyList (a.proxyList P) ++ a.urls.map (importLine P)))

theorem joinLines_append {l : List Text} (h : l ≠ []) : joinLines l ++ ['\n'] = l.flatMap (· ++ ['\n']) := by
  induction l with
  | nil => exact absurd rfl h
  | cons x l ih =>
    cases l with
    | nil => simp [joinLines]
    | cons y l =>
      rw [List.flatMap_cons, ← ih (List.cons_ne_nil y l)]
      simp [joinLines, List.intercalate_cons_cons]

theorem flatMap_underHeader (t : Target) (l : List Text) : (underHeader t l).flatMap (· ++ ['\n']) =
    if l ≠ [] then header t ++ '\n' :: (joinLines l ++ ['\n']) else [] := by
  unfold underHeader
  by_cases h : l = []
  · rw [if_pos h, if_neg (by simpa using h), List.flatMap_nil]
  · rw [if_neg h, if_pos h, joinLines_append h, List.flatMap_cons, List.append_assoc, List.singleton_append]

theorem toString_eq (P : AclPlatform U) (a : Acl U) : toString P a = (written P a).flatMap (· ++ ['\n']) := by
  have hmode : (if a.bypass then "[bypass_all]\n".toList else "[proxy_all]\n".toList) = mode a.bypass ++ ['\n'] := by
    cases a.bypass <;> rfl
  have hbypass : "[bypass_list]\n".toList = header .bypassList ++ ['\n'] := rfl
  have hproxy : "[proxy_list]\n".toList = header .proxyList ++ ['\n'] := rfl
  rw [toString, written, List.flatMap_cons, List.flatMap_append, List.flatMap_append, flatMap_underHeader,
    flatMap_underHeader, List.flatMap_map, hmode, hbypass, hproxy]
  simp only [List.append_assoc, List.cons_append, List.nil_append]

theorem networkAclParser_written {url : Text} (hne : url ≠ []) (h : Unbroken url) :
    networkAclParser ("IMPORT_URL <".toList ++ url ++ ">".toList) = some url := by
  have hcomment : "IMPORT_URL <".toList ++ url ++ ">".toList = importUrl ++ ' ' :: '<' :: (url ++ ['>']) := rfl
  have hall : url.all (fun c => !isTerminator c) = true := List.all_eq_true.2 (fun c hc => by simp [h c hc])
  have hprefix : importUrl.isPrefixOf (importUrl ++ ' ' :: '<' :: (url ++ ['>'])) = true :=
    List.isPrefixOf_iff_prefix.2 (List.prefix_append _ _)
  have hlast : (url ++ ['>']).rdropWhile isSpace = url ++ ['>'] := by
    rw [List.rdropWhile_concat, if_neg (by decide)]
  rw [hcomment, networkAclParser, if_pos hprefix, List.drop_left, List.dropWhile_cons_of_pos (by decide),
    List.dropWhile_cons_of_neg (by decide)]
  simp only [hlast, List.getLast?_concat, List.dropLast_concat]
  rw [if_pos ⟨trivial, hne, hall⟩]

/-- A text that stays as it is when comment and blanks are taken off. -/
structure PlainText (l : Text) : Prop where
  comment : '#' ∉ l
  trimmed : TextReader.trim isWhitespace l = l

theorem Rule.plainText {h : Text} (hr : Rule P h) : PlainText h := ⟨hr.comment, hr.trimmed⟩

theorem plain_of_subnetChar {c : Char} (h : c.isDigit ∨ c ∈ "abcdef:./".toList) :
    isWhitespace c = false ∧ c ≠ '#' ∧ c ≠ '[' ∧ c ≠ '\n' ∧ c ≠ '\r' := by
  rcases h with h | h
  · have hrange : 48 ≤ c.toNat ∧ c.toNat ≤ 57 := Char.isDigit_iff_toNat.1 h
    refine ⟨?_, ?_, ?_, ?_, ?_⟩
    · simp only [isWhitespace, decide_eq_false_iff_not, List.mem_cons, List.not_mem_nil, or_false]
      omega
    all_goals
      rintro rfl
      simp at hrange
  · have hall : "abcdef:./".toList.all (fun c => !isWhitespace c && c ≠ '#' && c ≠ '[' && c ≠ '\n' && c ≠ '\r') = true := by
      decide
    simpa [and_assoc] using List.all_eq_true.1 hall c h

namespace Reading

def addHosts (a : Acl U) (t : Target) (hs : List Text) : Acl U :=
  match t with
  | .bypassList => { a with bypassHostnames := SortedList.addAll stringSorter a.bypassHostnames hs }
  | .proxyList  => { a with proxyHostnames := SortedList.addAll stringSorter a.proxyHostnames hs }

def addSubnets (r : Reading U) (t : Target) (ss : List Subnet) : Reading U :=
  match t with
  | .bypassList => { r with bypassSubnets := r.bypassSubnets ++ ss }
  | .proxyList  => { r with proxySubnets := r.proxySubnets ++ ss }

theorem target_addSubnet (r : Reading U) (t : Target) (s : Subnet) : (r.addSubnet t s).target = r.target := by cases t <;> rfl

theorem target_addSubnets (r : Reading U) (t : Target) (ss : List Subnet) :
    (r.addSubnets t ss).target = r.target := by cases t <;> rfl

variable {r r' : Reading U}

theorem lines_append {l m : List Text} (h : r.lines P l = .ok r') : r.lines P (l ++ m) = r'.lines P m := by
  induction l generalizing r with
  | nil =>
    cases h
    rfl
  | cons x l ih =>
    rw [lines] at h
    rw [List.cons_append, lines]
    split at h
    · cases h
    · rename_i r₁ hline
      exact ih h

theorem line_of_plainText {l : Text} (h : PlainText l) : r.line P l = r.input P l := by
  unfold line
  rw [TextReader.cut_of_not_mem h.comment]
  simp only [Option.getD_none, h.trimmed]
  rfl

theorem line_host {t : Target} (ht : r.target = some t) {h : Text} (hr : Rule P h) :
    r.line P h = .ok { r with acl := r.acl.addHost t h } := by
  rw [line_of_plainText hr.plainText, input, if_neg hr.block, ht]
  simp only [if_neg hr.ne_nil, hr.subnet]

theorem line_subnet (hP : P.Lawful) {t : Target} (ht : r.target = some t) {s : Subnet} (hs : Readable P s) :
    r.line P (s.toString P.toAddressText) = .ok (r.addSubnet t s) := by
  obtain ⟨text, htext⟩ := hs
  have hchar : ∀ c ∈ s.toString P.toAddressText, _ := fun c hc => plain_of_subnetChar (Subnet.mem_toString hP.address hc)
  have hplain : PlainText (s.toString P.toAddressText) :=
    ⟨fun hmem => (hchar '#' hmem).2.1 rfl, TextReader.trim_of_not_blank (fun c hc => (hchar c hc).1)⟩
  have hblock : (s.toString P.toAddressText).head? ≠ some '[' := by
    intro hhead
    exact (hchar '[' (List.mem_of_mem_head? hhead)).2.2.1 rfl
  rw [line_of_plainText hplain, input, if_neg hblock, ht]
  simp only [if_neg (Subnet.toString_ne_nil hP.address), Subnet.fromString_toString hP.address htext]

theorem line_mode (bypass : Bool) : r.line P (mode bypass) = .ok { r with bypass := bypass } := by
  cases bypass
  · rw [line_of_plainText ⟨by decide, by decide⟩]
    rfl
  · rw [line_of_plainText ⟨by decide, by decide⟩]
    rfl

theorem line_header (t : Target) : r.line P (header t) = .ok { r with target := some t } := by
  cases t
  · rw [line_of_plainText ⟨by decide, by decide⟩]
    rfl
  · rw [line_of_plainText ⟨by decide, by decide⟩]
    rfl

theorem line_importLine (hP : P.Lawful) {u : U} (hu : Importable P u) :
    r.line P (importLine P u) = .ok { r with acl := r.acl.addUrl P u } := by
  obtain ⟨t, ht, hunbroken⟩ := hu
  have hcut : TextReader.cut '#' (importLine P u) = ([], some ("IMPORT_URL <".toList ++ P.urlText u ++ ">".toList)) :=
    TextReader.cut_append List.not_mem_nil _
  unfold line
  rw [hcut]
  simp only [Option.getD_some, Reading.comment, networkAclParser_written (hP.ne_nil ht) (hP.unbroken ht hunbroken),
    hP.url_urlText ht]
  rw [TextReader.trim, List.dropWhile_nil, List.rdropWhile_nil, input, if_neg (by decide)]
  simp only [if_true]
  split <;> rfl

theorem lines_hosts {t : Target} : ∀ {hs : List Text} {r : Reading U}, r.target = some t → (∀ h ∈ hs, Rule P h) →
    r.lines P hs = .ok { r with acl := addHosts r.acl t hs }
  | [], r, _, _ => by cases t <;> rfl
  | h :: hs, r, ht, hrules => by
    rw [List.forall_mem_cons] at hrules
    rw [lines, line_host ht hrules.1]
    simp only
    rw [lines_hosts (by exact ht) hrules.2]
    cases t <;> rfl

theorem lines_subnets (hP : P.Lawful) {t : Target} : ∀ {ss : List Subnet} {r : Reading U}, r.target = some t →
    (∀ s ∈ ss, Readable P s) → r.lines P (ss.map (Subnet.toString P.toAddressText)) = .ok (r.addSubnets t ss)
  | [], r, _, _ => by cases t <;> simp [lines, addSubnets]
  | s :: ss, r, ht, hss => by
    rw [List.forall_mem_cons] at hss
    rw [List.map_cons, lines, line_subnet hP ht hss.1]
    simp only
    rw [lines_subnets hP ((target_addSubnet r t s).trans ht) hss.2]
    cases t <;> simp [addSubnets, addSubnet]

theorem lines_importLines (hP : P.Lawful) : ∀ {us : List U} {r : Reading U}, (∀ u ∈ us, Importable P u) →
    r.lines P (us.map (importLine P)) =
      .ok { r with acl := { r.acl with urls := SortedList.addAll P.urlSorter r.acl.urls us } }
  | [], r, _ => rfl
  | u :: us, r, hus => by
    rw [List.forall_mem_cons] at hus
    rw [List.map_cons, lines, line_importLine hP hus.1]
    simp only
    rw [lines_importLines hP hus.2]
    rfl

/-- A list under its header; without items there is no header, and the target stays. -/
theorem lines_underHeader (hP : P.Lawful) (t : Target) {ss : List Subnet} {hs : List Text} (hss : ∀ s ∈ ss, Readable P s)
    (hhs : ∀ h ∈ hs, Rule P h) : ∃ target, r.lines P (underHeader t (ss.map (Subnet.toString P.toAddressText) ++ hs)) =
      .ok { r.addSubnets t ss with acl := addHosts r.acl t hs, target := target } := by
  by_cases hempty : ss.map (Subnet.toString P.toAddressText) ++ hs = []
  · rw [underHeader, if_pos hempty]
    obtain ⟨hss, rfl⟩ := List.append_eq_nil_iff.1 hempty
    rw [List.map_eq_nil_iff] at hss
    subst hss
    refine ⟨r.target, ?_⟩
    cases t <;> simp [lines, addSubnets, addHosts, SortedList.addAll]
  · rw [underHeader, if_neg hempty, lines, line_header]
    simp only
    refine ⟨some t, ?_⟩
    rw [lines_append (lines_subnets hP rfl hss), lines_hosts (target_addSubnets _ t ss) hhs]
    cases t <;> rfl

end Reading

theorem bypassList_eq (a : Acl U) :
    a.bypassList P = (if a.bypass then [] else a.subnets).map (Subnet.toString P.toAddressText) ++ a.hosts .bypassList := by
  unfold bypassList
  cases a.bypass <;> rfl

theorem proxyList_eq (a : Acl U) :
    a.proxyList P = (if a.bypass then a.subnets else []).map (Subnet.toString P.toAddressText) ++ a.hosts .proxyList := by
  unfold proxyList
  cases a.bypass <;> rfl

theorem oneLine_mode (bypass : Bool) : TextReader.OneLine (mode bypass) := by
  cases bypass <;> decide

theorem oneLine_header (t : Target) : TextReader.OneLine (header t) := by
  cases t <;> decide

theorem oneLine_importLine (hP : P.Lawful) {u : U} (hu : Importable P u) : TextReader.OneLine (importLine P u) := by
  obtain ⟨t, ht, hunbroken⟩ := hu
  have hstart : TextReader.OneLine "#IMPORT_URL <".toList := by decide
  have hstop : TextReader.OneLine ">".toList := by decide
  refine (hstart.append (fun c hc => ?_)).append hstop
  have hc := hP.unbroken ht hunbroken c hc
  constructor <;> rintro rfl <;> cases hc

theorem oneLine_written (hP : P.Lawful) (h : Legible P a) : ∀ l ∈ written P a, TextReader.OneLine l := by
  have hunder : ∀ t ls, (∀ l ∈ ls, TextReader.OneLine l) → ∀ l ∈ underHeader t ls, TextReader.OneLine l := by
    intro t ls hls
    unfold underHeader
    split
    · simp
    · exact List.forall_mem_cons.2 ⟨oneLine_header t, hls⟩
  have hlist : ∀ t (ss : List Subnet), ∀ l ∈ ss.map (Subnet.toString P.toAddressText) ++ a.hosts t, TextReader.OneLine l := by
    intro t ss l hl
    rcases List.mem_append.1 hl with hl | hl
    · obtain ⟨s, -, rfl⟩ := List.mem_map.1 hl
      exact fun c hc => (plain_of_subnetChar (Subnet.mem_toString hP.address hc)).2.2.2
    · exact (h.hosts t l hl).oneLine
  intro l hl
  simp only [written, bypassList_eq, proxyList_eq, List.mem_cons, List.mem_append (s := underHeader _ _)] at hl
  rcases hl with rfl | hl | hl | hl
  · exact oneLine_mode a.bypass
  · exact hunder _ _ (hlist _ _) l hl
  · exact hunder _ _ (hlist _ _) l hl
  · obtain ⟨u, hu, rfl⟩ := List.mem_map.1 hl
    exact oneLine_importLine hP (h.urls u hu)

/-- The list that is read from the text of `a`. -/
def rebuilt (P : AclPlatform U) (a : Acl U) : Acl U where
  bypassHostnames := SortedList.addAll stringSorter [] a.bypassHostnames
  proxyHostnames  := SortedList.addAll stringSorter [] a.proxyHostnames
  subnets         := SortedList.addAll subnetSorter [] a.subnets
  urls            := SortedList.addAll P.urlSorter [] a.urls
  bypass          := a.bypass

theorem fromReader_written (hP : P.Lawful) (h : Legible P a) (defaultBypass : Bool) :
    fromReader P (toString P a) defaultBypass = .ok (rebuilt P a) := by
  have hbypass : ∀ s ∈ if a.bypass then [] else a.subnets, Readable P s := by
    split
    · simp
    · exact h.subnets
  have hproxy : ∀ s ∈ if a.bypass then a.subnets else [], Readable P s := by
    split
    · exact h.subnets
    · simp
  rw [fromReader, toString_eq, TextReader.lines_flatMap (oneLine_written hP h), written, bypassList_eq, proxyList_eq,
    Reading.lines, Reading.line_mode]
  simp only
  obtain ⟨target₁, hlines₁⟩ := Reading.lines_underHeader hP .bypassList hbypass (h.hosts .bypassList)
  rw [Reading.lines_append hlines₁]
  obtain ⟨target₂, hlines₂⟩ := Reading.lines_underHeader hP .proxyList hproxy (h.hosts .proxyList)
  rw [Reading.lines_append hlines₂, Reading.lines_importLines hP h.urls]
  cases hmode : a.bypass <;>
    simp [Except.map, Reading.finish, Reading.start, Reading.addSubnets, Reading.addHosts, rebuilt, hosts, hmode]

/-- The same list, whatever the order of the items. -/
structure Same (a b : Acl U) : Prop where
  bypass  : b.bypass = a.bypass
  hosts   : ∀ t, (b.hosts t).Perm (a.hosts t)
  subnets : b.subnets.Perm a.subnets
  urls    : b.urls.Perm a.urls

theorem same_rebuilt (h : Legible P a) : Same a (rebuilt P a) where
  bypass  := rfl
  hosts t := by
    cases t
    · exact SortedList.addAll_perm (h.hosts_apart .bypassList)
    · exact SortedList.addAll_perm (h.hosts_apart .proxyList)
  subnets := SortedList.addAll_perm h.subnets_apart
  urls    := SortedList.addAll_perm h.urls_apart

end

/-- **What was read, written and read again is the same list.**  For every text that is read at all, and whatever the modes
in which the two readers begin. -/
theorem fromReader_toString {P : AclPlatform U} (hP : P.Lawful) (reader : Text) (defaultBypass : Bool)
    {a : Acl U} (h : fromReader P reader defaultBypass = .ok a) (defaultBypass' : Bool) :
    ∃ b, fromReader P (toString P a) defaultBypass' = .ok b ∧ Same a b :=
  ⟨_, fromReader_written hP (legible_fromReader h) defaultBypass', same_rebuilt (legible_fromReader h)⟩

/-- A platform that knows one address, and for which a URL is a text with the one protocol it knows. -/
def oneAddress : AclPlatform Text where
  parseNumericAddress t := if t = "10.0.0.0".toList then some ⟨[10, 0, 0, 0], .inl rfl⟩ else none
  hostAddress _ := "10.0.0.0".toList
  url t := if "https://".toList.isPrefixOf t then some t else none
  urlText := id
  urlSorter := stringSorter

theorem lawful_oneAddress : oneAddress.Lawful where
  address :=
    { parse_host := fun {t a} h => by
        simp only [oneAddress, Option.ite_none_right_eq_some] at h ⊢
        exact ⟨trivial, h.2⟩
      host_ne_nil := fun _ => List.cons_ne_nil _ _
      host_chars := fun _ c hc => by
        have hall : "10.0.0.0".toList.all (fun c => c.isDigit || c ∈ "abcdef:.".toList) = true := by decide
        simpa using List.all_eq_true.1 hall c hc }
  url_urlText h := by
    simp only [oneAddress, Option.ite_none_right_eq_some] at h ⊢
    cases h.2
    exact h
  ne_nil h := by
    simp only [oneAddress, Option.ite_none_right_eq_some] at h
    cases h.2
    rintro rfl
    cases h.1
  unbroken h hunbroken := by
    simp only [oneAddress, Option.ite_none_right_eq_some] at h
    cases h.2
    exact hunbroken

/-- Three rules and an import. -/
def sample : Text := "*.lan\n10.0.0.0/8 # private\r\n[proxy_list]\nx.org\n#IMPORT_URL <https://x.org/acl>".toList

theorem fromReader_toString_sample :
    let a : Acl Text := ⟨["*.lan".toList], ["x.org".toList], [⟨⟨[10, 0, 0, 0], .inl rfl⟩, 8, by decide⟩],
      ["https://x.org/acl".toList], false⟩
    fromReader oneAddress sample false = .ok a ∧
      ∃ b, fromReader oneAddress (toString oneAddress a) true = .ok b ∧ Same a b := by
  intro a
  have ha : fromReader oneAddress sample false = .ok a := by decide +kernel
  exact ⟨ha, fromReader_toString lawful_oneAddress sample false ha true⟩

end Acl
end Riddles
