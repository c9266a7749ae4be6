import GoRiddles.Commandline
import GoRiddles.PluginOptions
import Mathlib.Data.List.Forall2
/-!
# PluginConfiguration — the plugins of a profile as lines

`PluginConfiguration.kt`.  A profile keeps the options of several plugins in one text, a plugin a line, the selected one
first.  A line that begins with `kcptun ` is in an older form and is read as a command line.  That is what keeps some
configurations from being read back: an id may itself begin so, and is not written in a way that says it is no command.
-/
namespace Riddles

theorem exists_of_forall₂ {α β : Type} {R : α → β → Prop} {as : List α} {bs : List β} (h : List.Forall₂ R as bs) {a : α}
    (ha : a ∈ as) : ∃ b ∈ bs, R a b := by
  induction h with
  | nil => exact absurd ha List.not_mem_nil
  | cons hab _ ih =>
    rcases List.mem_cons.1 ha with rfl | ha
    · exact ⟨_, List.mem_cons_self, hab⟩
    · obtain ⟨b, hb, hR⟩ := ih ha
      exact ⟨b, List.mem_cons_of_mem _ hb, hR⟩

structure PluginConfiguration where
  pluginsOptions : LinkedMap Text PluginOptions
  selected       : Text

namespace PluginConfiguration

def kcptun : Text := "kcptun".toList

/-- `line.startsWith("kcptun ")`. -/
def legacy (line : Text) : Bool := "kcptun ".toList.isPrefixOf line

/-- The loop over the words of an old line; the exceptions are caught, and leave what was read so far. -/
def legacyOptions : LinkedMap Text (Option Text) → List Text → LinkedMap Text (Option Text)
  | opt, []             => opt
  | opt, option :: rest =>
    if option = "--nocomp".toList then legacyOptions (opt.put "nocomp".toList none) rest
    else if "--".toList.isPrefixOf option then
      match rest with
      | []            => opt
      | value :: rest => legacyOptions (opt.put (option.drop 2) (some value)) rest
    else opt

def legacyLine (line : Text) : PluginOptions :=
  ⟨kcptun, match Commandline.translateCommandline (some line) with
    | .error _ => .empty
    | .ok args => legacyOptions .empty (args.drop 1)⟩

def readLine (line : Text) : Except Thrown PluginOptions :=
  if legacy line then .ok (legacyLine line) else PluginOptions.ofLine line

def readLines : List Text → Except Thrown (List PluginOptions)
  | []            => .ok []
  | line :: lines =>
    match readLine line with
    | .error e => .error e
    | .ok p    =>
      match readLines lines with
      | .error e => .error e
      | .ok ps   => .ok (p :: ps)

/-- The private constructor: `associateBy` keeps the last of two with one id. -/
def ofPlugins (plugins : List PluginOptions) : PluginConfiguration :=
  ⟨LinkedMap.empty.putAll ((plugins.filter (fun p => p.id ≠ [])).map (fun p => (p.id, p))),
    match plugins with
    | []     => []
    | p :: _ => p.id⟩

/-- `PluginConfiguration(plugin)`. -/
def ofText (plugin : Text) : Except Thrown PluginConfiguration :=
  (readLines (plugin.splitOn '\n')).map ofPlugins

def getOptions (c : PluginConfiguration) (id : Text) (defaultConfig : Text) : Except Thrown PluginOptions :=
  if id = [] then .ok .new
  else
    match c.pluginsOptions.get id with
    | some o => .ok o
    | none   => PluginOptions.ofOptions id defaultConfig

/-- The options in the order of the lines. -/
def ordered (c : PluginConfiguration) : List PluginOptions :=
  (c.pluginsOptions.entries.filter (fun e => e.1 = c.selected)).map Prod.snd ++
    (c.pluginsOptions.entries.filter (fun e => e.1 ≠ c.selected)).map Prod.snd

def joined (hash : PluginOptions.Iteration) (plugins : List PluginOptions) : Text :=
  ['\n'].intercalate (plugins.map (fun o => o.toString hash false))

def toString (hash : PluginOptions.Iteration) (c : PluginConfiguration) (defaultConfig : Text) : Except Thrown Text :=
  if c.pluginsOptions.has c.selected then .ok (joined hash c.ordered)
  else (c.getOptions c.selected defaultConfig).map (fun o => joined hash (o :: c.ordered))

/-! ## Lines that are read back -/

/-- The same options, as maps. -/
structure Same (o p : PluginOptions) : Prop where
  id      : p.id = o.id
  options : ∀ key, p.options.get key = o.options.get key

theorem foldl_appendEntry (entries : List (Text × Option Text)) : ∀ {result : Text}, result ≠ [] →
    ∃ rest, entries.foldl PluginOptions.appendEntry result = result ++ rest ∧ (rest = [] ∨ ∃ more, rest = ';' :: more) := by
  induction entries with
  | nil => exact fun _ => ⟨[], by simp⟩
  | cons entry entries ih =>
    intro result hne
    have hentry : PluginOptions.appendEntry result entry = result ++ ';' :: PluginOptions.entryText entry := by
      simp [PluginOptions.appendEntry_eq, hne]
    have hne' : PluginOptions.appendEntry result entry ≠ [] := by simp [hentry]
    obtain ⟨rest, hrest, -⟩ := ih hne'
    refine ⟨';' :: PluginOptions.entryText entry ++ rest, ?_, .inr ⟨_, rfl⟩⟩
    rw [List.foldl_cons, hrest, hentry, List.append_assoc]

theorem isPrefixOf_escape {w : Text} (hw : ∀ c ∈ w, PluginOptions.special c = false) : ∀ (id : Text) {rest : Text},
    (rest = [] ∨ ∃ more, rest = ';' :: more) →
      w.isPrefixOf (Tokenizer.escape '\\' PluginOptions.special id ++ rest) = w.isPrefixOf id := by
  induction w with
  | nil => intros; simp
  | cons c w ih =>
    obtain ⟨hc, hw⟩ := List.forall_mem_cons.1 hw
    have hsemicolon : c ≠ ';' := by
      rintro rfl
      cases hc
    have hslash : c ≠ '\\' := by
      rintro rfl
      cases hc
    intro id rest hrest
    cases id with
    | nil => rcases hrest with rfl | ⟨more, rfl⟩ <;> simp [Tokenizer.escape, List.isPrefixOf, hsemicolon]
    | cons d id =>
      cases hd : PluginOptions.special d with
      | true =>
        have hcd : c ≠ d := by
          rintro rfl
          rw [hc] at hd
          cases hd
        simp [Tokenizer.escape, List.isPrefixOf, hd, beq_eq_false_iff_ne.2 hslash, beq_eq_false_iff_ne.2 hcd]
      | false =>
        have hcons : Tokenizer.escape '\\' PluginOptions.special (d :: id) ++ rest =
            d :: (Tokenizer.escape '\\' PluginOptions.special id ++ rest) := by
          simp [Tokenizer.escape, hd]
        rw [hcons, List.isPrefixOf_cons_cons, List.isPrefixOf_cons_cons, ih hw id hrest]

/-- **A line is taken for an old one just when the id looks like one.** -/
theorem legacy_toText {o : PluginOptions} (hid : o.id ≠ []) : legacy (o.toText false) = legacy o.id := by
  obtain ⟨rest, hrest, hsemicolon⟩ := foldl_appendEntry o.options.entries (PluginOptions.escape_ne_nil hid)
  have hplain : ∀ c ∈ "kcptun ".toList, PluginOptions.special c = false := by simp [PluginOptions.special]
  rw [PluginOptions.toText_line hid, hrest, legacy, isPrefixOf_escape hplain o.id hsemicolon, legacy]

/-- What becomes of a plugin whose line is read again. -/
def Again (o p : PluginOptions) : Prop := if legacy o.id then p.id = kcptun else Same o p

/-- The empty line of a configuration with nothing selected, or the line of a plugin. -/
def Line (o : PluginOptions) : Prop := o = .new ∨ o.id ≠ [] ∧ o.Clean ∧ o.options.get [] ≠ some none

section Written

variable (hash : PluginOptions.Iteration)

theorem readLine_toString {o : PluginOptions} (h : Line o) : ∃ p, readLine (o.toString hash false) = .ok p ∧ Again o p := by
  rcases h with rfl | ⟨hid, hclean, hnamed⟩
  · exact ⟨.new, rfl, rfl, fun _ => rfl⟩
  · have hline : legacy (o.toString hash false) = legacy o.id := legacy_toText (o := o.through hash) hid
    unfold readLine Again
    rw [hline]
    by_cases hlegacy : legacy o.id = true
    · simp only [hlegacy, if_true]
      exact ⟨_, rfl, rfl⟩
    · simp only [hlegacy, if_false, Bool.false_eq_true]
      obtain ⟨p, hp, hsame, hget⟩ := (PluginOptions.settled_of_clean hclean hnamed).inLine hash hid
      exact ⟨p, hp, hsame, hget⟩

theorem readLines_toString : ∀ {plugins : List PluginOptions}, (∀ o ∈ plugins, Line o) →
    ∃ ps, readLines (plugins.map (fun o => o.toString hash false)) = .ok ps ∧ List.Forall₂ Again plugins ps
  | [], _ => ⟨[], rfl, .nil⟩
  | o :: plugins, h => by
    obtain ⟨ho, hrest⟩ := List.forall_mem_cons.1 h
    obtain ⟨p, hp, hagain⟩ := readLine_toString hash ho
    obtain ⟨ps, hps, hall⟩ := readLines_toString hrest
    exact ⟨p :: ps, by simp [readLines, hp, hps], .cons hagain hall⟩

theorem newline_notMem {o : PluginOptions} (h : Line o) : '\n' ∉ o.toString hash false := by
  rcases h with rfl | ⟨hid, hclean, -⟩
  · exact List.not_mem_nil
  · intro hmem
    have hclear := (PluginOptions.clear_toText_line (o := o.through hash) hid).2 ((PluginOptions.clean_through hash).2 hclean)
    have hcontrol := hclear '\n' hmem
    cases hcontrol

theorem ofText_joined {plugins : List PluginOptions} (hne : plugins ≠ []) (h : ∀ o ∈ plugins, Line o) :
    ∃ ps, ofText (joined hash plugins) = .ok (ofPlugins ps) ∧ List.Forall₂ Again plugins ps := by
  obtain ⟨ps, hps, hall⟩ := readLines_toString hash h
  refine ⟨ps, ?_, hall⟩
  have hlines : (joined hash plugins).splitOn '\n' = plugins.map (fun o => o.toString hash false) := by
    refine List.splitOn_intercalate '\n' (fun line hline => ?_) (by simpa using hne)
    obtain ⟨o, ho, rfl⟩ := List.mem_map.1 hline
    exact newline_notMem hash (h o ho)
  rw [ofText, hlines, hps]
  rfl

end Written

/-! ## Configurations -/

/-- A configuration whose lines can be written. -/
structure Sound (c : PluginConfiguration) : Prop where
  keyed    : ∀ e ∈ c.pluginsOptions.entries, e.2.id = e.1 ∧ Line e.2 ∧ e.1 ≠ []
  selected : c.selected = [] ∨ c.pluginsOptions.has c.selected = true

/-- The lines of a configuration. -/
def plugins (c : PluginConfiguration) : List PluginOptions :=
  if c.pluginsOptions.has c.selected then c.ordered else .new :: c.ordered

theorem toString_eq (hash : PluginOptions.Iteration) {c : PluginConfiguration} (h : Sound c) (defaultConfig : Text) :
    c.toString hash defaultConfig = .ok (joined hash c.plugins) := by
  unfold toString plugins
  split
  · rfl
  · rename_i hnot
    rw [getOptions, if_pos (h.selected.resolve_right hnot)]
    rfl

theorem mem_ordered {c : PluginConfiguration} {o : PluginOptions} :
    o ∈ c.ordered ↔ ∃ e ∈ c.pluginsOptions.entries, e.2 = o := by
  unfold ordered
  rw [List.mem_append, List.mem_map, List.mem_map]
  constructor
  · rintro (⟨e, he, rfl⟩ | ⟨e, he, rfl⟩)
    · exact ⟨e, List.mem_of_mem_filter he, rfl⟩
    · exact ⟨e, List.mem_of_mem_filter he, rfl⟩
  · rintro ⟨e, he, rfl⟩
    by_cases hsel : e.1 = c.selected
    · exact .inl ⟨e, List.mem_filter.2 ⟨he, by simp [hsel]⟩, rfl⟩
    · exact .inr ⟨e, List.mem_filter.2 ⟨he, by simp [hsel]⟩, rfl⟩

theorem mem_plugins {c : PluginConfiguration} {o : PluginOptions} (h : o ∈ c.plugins) : o = .new ∨ o ∈ c.ordered := by
  unfold plugins at h
  split at h
  · exact .inr h
  · exact List.mem_cons.1 h

theorem mem_plugins_of_ordered {c : PluginConfiguration} {o : PluginOptions} (h : o ∈ c.ordered) : o ∈ c.plugins := by
  unfold plugins
  split
  · exact h
  · exact List.mem_cons_of_mem _ h

theorem Sound.line {c : PluginConfiguration} (h : Sound c) : ∀ o ∈ c.plugins, Line o := by
  intro o ho
  rcases mem_plugins ho with rfl | ho
  · exact .inl rfl
  · obtain ⟨e, he, rfl⟩ := mem_ordered.1 ho
    exact (h.keyed e he).2.1

/-- **Each plugin has its line**, and there are no two of one id. -/
theorem Sound.get_eq_some {c : PluginConfiguration} (h : Sound c) {id : Text} {o : PluginOptions} :
    c.pluginsOptions.get id = some o ↔ o ∈ c.plugins ∧ o.id = id ∧ id ≠ [] := by
  rw [LinkedMap.get_eq_some]
  constructor
  · intro he
    obtain ⟨hid, -, hne⟩ := h.keyed _ he
    exact ⟨mem_plugins_of_ordered (mem_ordered.2 ⟨_, he, rfl⟩), hid, hne⟩
  · rintro ⟨ho, rfl, hne⟩
    rcases mem_plugins ho with rfl | ho
    · exact absurd rfl hne
    · obtain ⟨e, he, rfl⟩ := mem_ordered.1 ho
      rw [(h.keyed e he).1]
      exact he

theorem Sound.nodup_ids {c : PluginConfiguration} (h : Sound c) :
    ((c.plugins.map PluginOptions.id).filter (· ≠ [])).Nodup := by
  have hfilter : (c.plugins.map PluginOptions.id).filter (· ≠ []) = (c.ordered.map PluginOptions.id).filter (· ≠ []) := by
    unfold plugins
    split
    · rfl
    · rw [List.map_cons, List.filter_cons_of_neg (by simp [PluginOptions.new])]
  have hids : (c.ordered.map PluginOptions.id).Perm (c.pluginsOptions.entries.map Prod.fst) := by
    have hkeys : c.pluginsOptions.entries.map (PluginOptions.id ∘ Prod.snd) = c.pluginsOptions.entries.map Prod.fst :=
      List.map_congr_left (fun e he => (h.keyed e he).1)
    rw [← hkeys, ordered, ← List.map_append, List.map_map]
    refine List.Perm.map _ ?_
    have hsplit := List.filter_append_perm (fun e : Text × PluginOptions => decide (e.1 = c.selected))
      c.pluginsOptions.entries
    simpa using hsplit
  rw [hfilter]
  exact (hids.nodup_iff.2 c.pluginsOptions.nodup).filter _

theorem get_ofPlugins {ps : List PluginOptions} (hnodup : ((ps.map PluginOptions.id).filter (· ≠ [])).Nodup) {id : Text}
    {p : PluginOptions} : (ofPlugins ps).pluginsOptions.get id = some p ↔ p ∈ ps ∧ p.id = id ∧ id ≠ [] := by
  have hkeys : (((ps.filter (fun p => p.id ≠ [])).map (fun p => (p.id, p))).map Prod.fst).Nodup := by
    rw [List.filter_map] at hnodup
    rw [List.map_map]
    exact hnodup
  have hget : ((LinkedMap.mk _ hkeys).get id = some p ↔ _) := LinkedMap.get_eq_some
  unfold ofPlugins
  rw [LinkedMap.get_putAll _ _ hkeys, LinkedMap.get_empty, Option.or_none]
  unfold LinkedMap.get at hget
  rw [hget]
  simp only [List.mem_map, List.mem_filter, decide_eq_true_eq, Prod.mk.injEq]
  constructor
  · rintro ⟨q, ⟨hq, hne⟩, rfl, rfl⟩
    exact ⟨hq, rfl, hne⟩
  · rintro ⟨hp, rfl, hne⟩
    exact ⟨p, ⟨hp, hne⟩, rfl, rfl⟩

theorem exists_of_get_ofPlugins {ps : List PluginOptions} {id : Text} (h : (ofPlugins ps).pluginsOptions.get id ≠ none) :
    ∃ p ∈ ps, p.id = id := by
  obtain ⟨e, he, hid⟩ := ((LinkedMap.get_putAll_ne_none _).1 h).resolve_right (by simp)
  obtain ⟨p, hp, rfl⟩ := List.mem_map.1 he
  exact ⟨p, List.mem_of_mem_filter hp, hid⟩

/-- The same configuration: the same plugin is selected, and the same plugins have the same options. -/
structure SameConfiguration (c d : PluginConfiguration) : Prop where
  selected : d.selected = c.selected
  options  : ∀ id, Option.Rel Same (c.pluginsOptions.get id) (d.pluginsOptions.get id)

/-- No id looks like an old line. -/
def Portable (c : PluginConfiguration) : Prop := ∀ id, c.pluginsOptions.has id = true → legacy id = false

theorem forall₂_same {c : PluginConfiguration} (h : Sound c) (hportable : Portable c) {ps : List PluginOptions}
    (hagain : List.Forall₂ Again c.plugins ps) : List.Forall₂ Same c.plugins ps := by
  have hnot : ∀ o ∈ c.plugins, legacy o.id = false := by
    intro o ho
    rcases mem_plugins ho with rfl | ho
    · rfl
    · obtain ⟨e, he, rfl⟩ := mem_ordered.1 ho
      rw [(h.keyed e he).1]
      refine hportable e.1 (LinkedMap.has_iff.2 ?_)
      rw [LinkedMap.get_eq_some.2 he]
      simp
  have hboth := (List.forall₂_and_left c.plugins ps).2 ⟨hnot, hagain⟩
  exact hboth.imp (fun o p hop => by simpa [Again, hop.1] using hop.2)

theorem ids_eq {os ps : List PluginOptions} (h : List.Forall₂ Same os ps) :
    ps.map PluginOptions.id = os.map PluginOptions.id := by
  induction h with
  | nil => rfl
  | cons hsame _ ih => rw [List.map_cons, List.map_cons, hsame.id, ih]

theorem Sound.plugins_head {c : PluginConfiguration} (h : Sound c) : ∃ o rest, c.plugins = o :: rest ∧ o.id = c.selected := by
  unfold plugins
  by_cases hhas : c.pluginsOptions.has c.selected = true
  · obtain ⟨o, ho⟩ := Option.ne_none_iff_exists'.1 (LinkedMap.has_iff.1 hhas)
    have hmem : (c.selected, o) ∈ c.pluginsOptions.entries.filter (fun e => e.1 = c.selected) :=
      List.mem_filter.2 ⟨LinkedMap.get_eq_some.1 ho, by simp⟩
    rw [if_pos hhas, ordered]
    cases hfilter : c.pluginsOptions.entries.filter (fun e => e.1 = c.selected) with
    | nil =>
      rw [hfilter] at hmem
      exact absurd hmem List.not_mem_nil
    | cons e rest =>
      have he : e ∈ c.pluginsOptions.entries.filter (fun e => e.1 = c.selected) := hfilter ▸ List.mem_cons_self
      obtain ⟨hentry, hsel⟩ := List.mem_filter.1 he
      exact ⟨e.2, _, rfl, (h.keyed e hentry).1.trans (of_decide_eq_true hsel)⟩
  · rw [if_neg hhas]
    exact ⟨.new, _, rfl, (h.selected.resolve_right hhas).symm⟩

theorem sameConfiguration_of_same {c : PluginConfiguration} (h : Sound c) {ps : List PluginOptions}
    (hsame : List.Forall₂ Same c.plugins ps) : SameConfiguration c (ofPlugins ps) := by
  have hnodup : ((ps.map PluginOptions.id).filter (· ≠ [])).Nodup := ids_eq hsame ▸ h.nodup_ids
  constructor
  · obtain ⟨o, rest, hplugins, hid⟩ := h.plugins_head
    rw [hplugins] at hsame
    cases hsame with
    | cons hop _ => exact hop.id.trans hid
  · intro id
    cases hget : c.pluginsOptions.get id with
    | some o =>
      obtain ⟨ho, rfl, hne⟩ := h.get_eq_some.1 hget
      obtain ⟨p, hp, hop⟩ := exists_of_forall₂ hsame ho
      rw [(get_ofPlugins hnodup).2 ⟨hp, hop.id, hne⟩]
      exact .some hop
    | none =>
      cases hget' : (ofPlugins ps).pluginsOptions.get id with
      | none => exact .none
      | some p =>
        obtain ⟨hp, rfl, hne⟩ := (get_ofPlugins hnodup).1 hget'
        obtain ⟨o, ho, hop⟩ := exists_of_forall₂ hsame.flip hp
        rw [h.get_eq_some.2 ⟨ho, hop.id.symm, hne⟩] at hget
        cases hget

theorem get_of_legacy {os ps : List PluginOptions} (hagain : List.Forall₂ Again os ps) {id : Text} (hid : legacy id = true) :
    (ofPlugins ps).pluginsOptions.get id = none := by
  by_contra hsome
  obtain ⟨p, hp, rfl⟩ := exists_of_get_ofPlugins hsome
  obtain ⟨o, -, hop⟩ := exists_of_forall₂ hagain.flip hp
  by_cases hlegacy : legacy o.id = true
  · have hkcptun : p.id = kcptun := by simpa [Again, hlegacy] using hop
    rw [hkcptun] at hid
    cases hid
  · have hsame : Same o p := by simpa [Again, hlegacy] using hop
    exact hlegacy (hsame.id ▸ hid)

theorem Sound.readsBack {c : PluginConfiguration} (h : Sound c) (hash : PluginOptions.Iteration) (defaultConfig : Text) :
    ∃ text d, c.toString hash defaultConfig = .ok text ∧ ofText text = .ok d ∧ (SameConfiguration c d ↔ Portable c) := by
  obtain ⟨o, rest, hplugins, -⟩ := h.plugins_head
  obtain ⟨ps, hps, hagain⟩ := ofText_joined hash (by simp [hplugins]) h.line
  refine ⟨joined hash c.plugins, ofPlugins ps, toString_eq hash h defaultConfig, hps, ?_, ?_⟩
  · intro hsame id hhas
    by_contra hlegacy
    obtain ⟨o, ho⟩ := Option.ne_none_iff_exists'.1 (LinkedMap.has_iff.1 hhas)
    have hrel := hsame.options id
    rw [ho, get_of_legacy hagain (by simpa using hlegacy)] at hrel
    cases hrel
  · exact fun hportable => sameConfiguration_of_same h (forall₂_same h hportable hagain)

/-! ## Texts -/

/-- No control characters but the ones between the lines. -/
def ClearLines (plugin : Text) : Prop := ∀ c ∈ plugin, c = '\n' ∨ isISOControl c = false

instance (plugin : Text) : Decidable (ClearLines plugin) :=
  List.decidableBAll (fun c => c = '\n' ∨ isISOControl c = false) plugin

theorem mem_of_mem_line : ∀ (plugin : Text), ∀ line ∈ plugin.splitOn '\n', ∀ c ∈ line, c ∈ plugin ∧ c ≠ '\n'
  | [], line, hline, c, hc => by
    rw [List.splitOn_nil, List.mem_singleton] at hline
    rw [hline] at hc
    exact absurd hc List.not_mem_nil
  | d :: plugin, line, hline, c, hc => by
    have ih := mem_of_mem_line plugin
    rw [List.splitOn_cons_eq_if_modifyHead] at hline
    by_cases hd : d = '\n'
    · rw [if_pos (by simpa using hd)] at hline
      rcases List.mem_cons.1 hline with rfl | hline
      · exact absurd hc List.not_mem_nil
      · exact ⟨List.mem_cons_of_mem d (ih line hline c hc).1, (ih line hline c hc).2⟩
    · rw [if_neg (by simpa using hd)] at hline
      cases hlines : plugin.splitOn '\n' with
      | nil => exact absurd hlines (List.splitOn_ne_nil _ _)
      | cons first rest =>
        rw [hlines] at hline ih
        rcases List.mem_cons.1 hline with rfl | hline
        · rcases List.mem_cons.1 hc with rfl | hc
          · exact ⟨List.mem_cons_self, hd⟩
          · obtain ⟨hmem, hne⟩ := ih first List.mem_cons_self c hc
            exact ⟨List.mem_cons_of_mem d hmem, hne⟩
        · obtain ⟨hmem, hne⟩ := ih line (List.mem_cons_of_mem _ hline) c hc
          exact ⟨List.mem_cons_of_mem d hmem, hne⟩

theorem clear_line {plugin : Text} (h : ClearLines plugin) : ∀ line ∈ plugin.splitOn '\n', PluginOptions.Clear line := by
  intro line hline c hc
  obtain ⟨hmem, hne⟩ := mem_of_mem_line plugin line hline c hc
  exact (h c hmem).resolve_left hne

/-- The options of an old line that was read so far. -/
structure LegacyOk (opt : LinkedMap Text (Option Text)) : Prop where
  entries : ∀ entry ∈ opt.entries, PluginOptions.ClearEntry entry
  named   : opt.get [] ≠ some none

theorem LegacyOk.put {opt : LinkedMap Text (Option Text)} (h : LegacyOk opt) {key : Text} {value : Option Text}
    (hentry : PluginOptions.ClearEntry (key, value)) (hnamed : (key, value) ≠ ([], none)) : LegacyOk (opt.put key value) := by
  constructor
  · intro entry hmem
    rcases LinkedMap.mem_put hmem with rfl | hold
    · exact hentry
    · exact h.entries entry hold
  · rw [LinkedMap.get_put]
    split
    · rename_i hkey
      intro hvalue
      exact hnamed (by rw [← hkey, Option.some.inj hvalue])
    · exact h.named

theorem legacyOptions_ok : ∀ (words : List Text) {opt : LinkedMap Text (Option Text)},
    (∀ word ∈ words, PluginOptions.Clear word) → LegacyOk opt → LegacyOk (legacyOptions opt words)
  | [], _, _, hopt => hopt
  | option :: rest, opt, hwords, hopt => by
    obtain ⟨hoption, hrest⟩ := List.forall_mem_cons.1 hwords
    unfold legacyOptions
    split
    · have hentry : PluginOptions.ClearEntry ("nocomp".toList, none) := ⟨by decide, fun _ hv => (by cases hv)⟩
      exact legacyOptions_ok rest hrest (hopt.put hentry (by decide))
    · split
      · cases rest with
        | nil => exact hopt
        | cons value rest =>
          obtain ⟨hvalue, hrest⟩ := List.forall_mem_cons.1 hrest
          have hkey : PluginOptions.Clear (option.drop 2) := fun c hc => hoption c (List.mem_of_mem_drop hc)
          have hentry : PluginOptions.ClearEntry (option.drop 2, some value) :=
            ⟨hkey, fun v hv => Option.some.inj hv ▸ hvalue⟩
          exact legacyOptions_ok rest hrest (hopt.put hentry (by simp))
      · exact hopt

theorem legacyLine_line {line : Text} (h : PluginOptions.Clear line) : Line (legacyLine line) := by
  have hok : LegacyOk (legacyLine line).options := by
    have hempty : LegacyOk .empty := ⟨fun _ hmem => absurd hmem List.not_mem_nil, by simp⟩
    unfold legacyLine
    split
    · exact hempty
    · rename_i args hargs
      have hwords := Commandline.mem_of_translateCommandline (P := fun c => isISOControl c = false) rfl h hargs
      exact legacyOptions_ok _ (fun word hword => hwords word (List.mem_of_mem_drop hword)) hempty
  have hid : PluginOptions.Clear kcptun := by decide
  exact .inr ⟨List.cons_ne_nil _ _, ⟨hid, hok.entries⟩, hok.named⟩

theorem readLine_ok {line : Text} (h : PluginOptions.Clear line) : ∃ p, readLine line = .ok p ∧ (p.id ≠ [] → Line p) := by
  unfold readLine
  split
  · exact ⟨_, rfl, fun _ => legacyLine_line h⟩
  · obtain ⟨o, ho, hclean, hnamed⟩ := PluginOptions.good_parse h true
    exact ⟨o, ho, fun hid => .inr ⟨hid, hclean, hnamed⟩⟩

theorem readLines_ok : ∀ {lines : List Text}, (∀ line ∈ lines, PluginOptions.Clear line) →
    ∃ ps, readLines lines = .ok ps ∧ ∀ p ∈ ps, p.id ≠ [] → Line p
  | [], _ => ⟨[], rfl, fun _ h => absurd h List.not_mem_nil⟩
  | line :: lines, h => by
    obtain ⟨hline, hrest⟩ := List.forall_mem_cons.1 h
    obtain ⟨p, hp, hpline⟩ := readLine_ok hline
    obtain ⟨ps, hps, hpslines⟩ := readLines_ok hrest
    exact ⟨p :: ps, by simp [readLines, hp, hps], List.forall_mem_cons.2 ⟨hpline, hpslines⟩⟩

theorem sound_ofPlugins {ps : List PluginOptions} (h : ∀ p ∈ ps, p.id ≠ [] → Line p) : Sound (ofPlugins ps) := by
  constructor
  · intro e he
    rcases LinkedMap.mem_putAll _ he with he | he
    · obtain ⟨p, hp, rfl⟩ := List.mem_map.1 he
      obtain ⟨hmem, hid⟩ := List.mem_filter.1 hp
      have hne : p.id ≠ [] := of_decide_eq_true hid
      exact ⟨rfl, h p hmem hne, hne⟩
    · exact absurd he List.not_mem_nil
  · cases ps with
    | nil => exact .inl rfl
    | cons p ps =>
      by_cases hid : p.id = []
      · exact .inl hid
      · refine .inr (LinkedMap.has_iff.2 ((LinkedMap.get_putAll_ne_none _).2 (.inl ⟨(p.id, p), ?_, rfl⟩)))
        exact List.mem_map.2 ⟨p, List.mem_filter.2 ⟨List.mem_cons_self, by simpa using hid⟩, rfl⟩

theorem ofText_sound {plugin : Text} (h : ClearLines plugin) : ∃ c, ofText plugin = .ok c ∧ Sound c := by
  obtain ⟨ps, hps, hlines⟩ := readLines_ok (clear_line h)
  refine ⟨ofPlugins ps, ?_, sound_ofPlugins hlines⟩
  rw [ofText, hps]
  rfl

/-- **Which configurations are read back.**  A text without control characters inside its lines is always read; what was read
is written again, in whatever order the hash maps go through their entries, and the new text is read as the same configuration
just when no id begins like an old line. -/
theorem read_back_iff (plugin : Text) (h : ClearLines plugin) (defaultConfig : Text) :
    ∃ c, ofText plugin = .ok c ∧ ∀ hash : PluginOptions.Iteration, ∃ text d,
      c.toString hash defaultConfig = .ok text ∧ ofText text = .ok d ∧ (SameConfiguration c d ↔ Portable c) := by
  obtain ⟨c, hc, hsound⟩ := ofText_sound h
  exact ⟨c, hc, fun hash => hsound.readsBack hash defaultConfig⟩

/-- A plugin called `kcptun x`, with its blank escaped. -/
def escapedBlank : Text := "kcptun\\ x;mode=fast".toList

/-- It is written without the backslash, and lost. -/
theorem read_back_iff_escapedBlank :
    ∃ c, ofText escapedBlank = .ok c ∧ ∀ hash : PluginOptions.Iteration, ∃ text d,
      c.toString hash [] = .ok text ∧ ofText text = .ok d ∧ ¬ SameConfiguration c d := by
  obtain ⟨c, hc, hwritten⟩ := read_back_iff escapedBlank (by decide) []
  have hhas : (ofText escapedBlank).toOption.map (fun c => c.pluginsOptions.has "kcptun x".toList) = some true := by
    decide +kernel
  rw [hc] at hhas
  refine ⟨c, hc, fun hash => ?_⟩
  obtain ⟨text, d, htext, hd, hiff⟩ := hwritten hash
  refine ⟨text, d, htext, hd, fun hsame => ?_⟩
  have hlegacy := hiff.1 hsame "kcptun x".toList (Option.some.inj hhas)
  exact absurd hlegacy (by decide)

end PluginConfiguration
end Riddles
