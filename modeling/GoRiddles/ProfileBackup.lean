import GoRiddles.ProfileImport
/-!
# ProfileBackup — an export that replaces the table

`serializeToJson` and then `createProfilesFromJson` with `replace`: the active profiles are written, read, and created anew in
the table that is cleared before the first of them.  They come back in their order, with their traffic, and with a fallback
that is the server they had.
-/
namespace Riddles

namespace Importer

variable {σ : Type} {c : Importer σ}

/-- The profiles that `create` returns for a list. -/
def created (c : Importer σ) : σ → List Profile → List Profile × σ
  | s, []      => ([], s)
  | s, p :: ps => ((c.create s p).1 :: (created c (c.create s p).2 ps).1, (created c (c.create s p).2 ps).2)

theorem createAll_fst : ∀ (ps : List Profile) (s : σ) (m : LinkedMap Profile Profile),
    (c.createAll s m ps).1 = (c.created s ps).2
  | [], _, _ => rfl
  | p :: ps, s, m => by
    rw [createAll, created]
    split <;> exact createAll_fst ps _ _

/-- One turn of the loop: the fallback of `p` moves to the profile that was created for `p`. -/
theorem createAll_cons {p : Profile} {s : σ} {m : LinkedMap Profile Profile} (hne : (c.create s p).1 ≠ p)
    (hnew : m.get (c.create s p).1 = none) (ps : List Profile) :
    ∃ m₁ : LinkedMap Profile Profile, c.createAll s m (p :: ps) = c.createAll (c.create s p).2 m₁ ps ∧
      ∀ x, m₁.get x = if x = (c.create s p).1 then m.get p else if x = p then none else m.get x := by
  cases hm : m.get p with
  | none =>
    refine ⟨m.remove p, by rw [createAll, hm], fun x => ?_⟩
    rw [LinkedMap.get_remove]
    by_cases hx : x = (c.create s p).1
    · rw [if_pos hx, hx, if_neg hne, hnew]
    · rw [if_neg hx]
  | some fallback =>
    refine ⟨(m.remove p).put (c.create s p).1 fallback, by rw [createAll, hm], fun x => ?_⟩
    rw [LinkedMap.get_put, LinkedMap.get_remove]

/-- **Each fallback moves to the profile that was created for its own**, if no two profiles were read alike. -/
theorem createAll_get : ∀ {ps : List Profile} {s : σ} {m : LinkedMap Profile Profile}, ps.Nodup → (c.created s ps).1.Nodup →
    (∀ p ∈ ps, p.id = 0) → (∀ q ∈ (c.created s ps).1, q.id ≠ 0 ∧ m.get q = none) →
      List.Forall₂ (fun p q => (c.createAll s m ps).2.get q = m.get p) ps (c.created s ps).1 ∧
        ∀ x, x ∉ (c.created s ps).1 → (c.createAll s m ps).2.get x = if x ∈ ps then none else m.get x
  | [], s, m, _, _, _, _ => ⟨.nil, fun x _ => by simp [createAll]⟩
  | p :: ps, s, m, hps, hqs, hold, hnew => by
    rw [created] at hqs hnew
    obtain ⟨hp, hps⟩ := List.nodup_cons.1 hps
    obtain ⟨hq, hqs⟩ := List.nodup_cons.1 hqs
    obtain ⟨hpid, hold⟩ := List.forall_mem_cons.1 hold
    obtain ⟨⟨hqid, hqm⟩, hnew⟩ := List.forall_mem_cons.1 hnew
    have hne : (c.create s p).1 ≠ p := fun h => hqid ((congrArg Profile.id h).trans hpid)
    obtain ⟨m₁, hloop, hget⟩ := c.createAll_cons hne hqm ps
    have hfresh : ∀ q ∈ (c.created (c.create s p).2 ps).1, q.id ≠ 0 ∧ m₁.get q = none := by
      intro q hmem
      have hne : q ≠ (c.create s p).1 := fun h => hq (h ▸ hmem)
      refine ⟨(hnew q hmem).1, ?_⟩
      rw [hget, if_neg hne, (hnew q hmem).2, ite_self]
    obtain ⟨hmoved, hrest⟩ := createAll_get hps hqs hold hfresh
    have hsame : ∀ p' ∈ ps, m₁.get p' = m.get p' := by
      intro p' hp'
      have hq' : p' ≠ (c.create s p).1 := fun h => hqid ((congrArg Profile.id h).symm.trans (hold p' hp'))
      have hne : p' ≠ p := fun h => hp (h ▸ hp')
      rw [hget, if_neg hq', if_neg hne]
    rw [hloop, created]
    refine ⟨.cons ?_ ?_, fun x hx => ?_⟩
    · have hnot : (c.create s p).1 ∉ ps := fun h => hqid (hold _ h)
      rw [hrest _ hq, if_neg hnot, hget, if_pos rfl]
    · have hboth := (List.forall₂_and_left ps _).2 ⟨hsame, hmoved⟩
      exact hboth.imp (fun p' q' h => h.2.trans h.1)
    · obtain ⟨hxq, hx⟩ := not_or.1 (mt List.mem_cons.2 hx)
      rw [hrest x hx, hget, if_neg hxq]
      simp only [List.mem_cons]
      by_cases hxp : x = p
      · simp [hxp]
      · simp [hxp]

end Importer

namespace ProfileManager

open Importer (serves)

section
variable {dao : Dao} {old : LinkedMap Text Profile}

theorem nextOrder_of_range {table : ProfileTable} {n : Nat} (h : table.rows.map Profile.userOrder = List.range n) :
    table.nextOrder.getD 0 = n := by
  unfold ProfileTable.nextOrder
  rw [h]
  cases n with
  | zero => rfl
  | succ n =>
    have hmax : (List.range (n + 1)).max? = some n := by
      rw [List.max?_eq_some_iff]
      exact ⟨List.mem_range.2 (Nat.lt_succ_self n), fun b hb => Nat.lt_succ_iff.1 (List.mem_range.1 hb)⟩
    rw [hmax]
    rfl

/-- The row that is created for a profile. -/
def Created (old : LinkedMap Text Profile) (p q : Profile) : Prop :=
  q = { withStats old p with id := q.id, userOrder := q.userOrder }

/-- **The profiles of a list are created one after the other**, at the end of a table that is not cleared any more. -/
theorem created_cleared (dao : Dao) (old : LinkedMap Text Profile) : ∀ (ps : List Profile) {table : ProfileTable} {n : Nat},
    table.rows.map Profile.userOrder = List.range n →
      ∃ t : ProfileTable, ((importer dao (some old)).created ⟨table, true⟩ ps).2 = ⟨t, true⟩ ∧
        t.rows = table.rows ++ ((importer dao (some old)).created ⟨table, true⟩ ps).1 ∧
        t.rows.map Profile.userOrder = List.range (n + ps.length) ∧
        List.Forall₂ (Created old) ps ((importer dao (some old)).created ⟨table, true⟩ ps).1
  | [], table, n, h => ⟨table, rfl, (List.append_nil _).symm, h, .nil⟩
  | p :: ps, table, n, h => by
    have horder : (table.createProfile dao (withStats old p)).rows.map Profile.userOrder = List.range (n + 1) := by
      show (table.rows ++ [table.inserted dao (withStats old p)]).map Profile.userOrder = _
      rw [List.map_append, h, List.range_succ, List.map_singleton, ProfileTable.inserted, nextOrder_of_range h]
    obtain ⟨t, hstate, hrows, horders, hcreated⟩ := created_cleared dao old ps horder
    refine ⟨t, hstate, ?_, ?_, .cons rfl hcreated⟩
    · rw [hrows]
      show (table.rows ++ [table.inserted dao (withStats old p)]) ++ _ = _
      rw [List.append_assoc]
      rfl
    · rw [horders, List.length_cons, Nat.add_right_comm, Nat.add_assoc]

/-- **The table is cleared before the first profile**, so the rows are those of the list. -/
theorem created_replacing (dao : Dao) (old : LinkedMap Text Profile) (table : ProfileTable) {ps : List Profile}
    (h : ps ≠ []) : ∃ t : ProfileTable, ((importer dao (some old)).created ⟨table, false⟩ ps).2 = ⟨t, true⟩ ∧
      ((importer dao (some old)).created ⟨table, false⟩ ps).1 = t.rows ∧
      t.rows.map Profile.userOrder = List.range ps.length ∧ List.Forall₂ (Created old) ps t.rows := by
  have hclear : (importer dao (some old)).created ⟨table, false⟩ ps =
      (importer dao (some old)).created ⟨.clear, true⟩ ps := by
    cases ps with
    | nil => exact absurd rfl h
    | cons p ps => rfl
  have hempty : ProfileTable.clear.rows.map Profile.userOrder = List.range 0 := rfl
  obtain ⟨t, hstate, hrows, horders, hcreated⟩ := created_cleared dao old ps hempty
  rw [hclear]
  change t.rows = ((importer dao (some old)).created ⟨.clear, true⟩ ps).1 at hrows
  rw [Nat.zero_add] at horders
  exact ⟨t, hstate, hrows.symm, horders, hrows ▸ hcreated⟩

theorem createAll_replacing (dao : Dao) (old : LinkedMap Text Profile) (table : ProfileTable) {ps : List Profile}
    {m : LinkedMap Profile Profile} (hne : ps ≠ []) (hnodup : ps.Nodup) (hid : ∀ p ∈ ps, p.id = 0)
    (hkeys : ∀ e ∈ m.entries, e.1 ∈ ps) :
    ∃ (t : ProfileTable) (moved : LinkedMap Profile Profile),
      (importer dao (some old)).createAll ⟨table, false⟩ m ps = (⟨t, true⟩, moved) ∧
      t.rows.map Profile.userOrder = List.range ps.length ∧
      List.Forall₂ (fun p q => Created old p q ∧ moved.get q = m.get p) ps t.rows ∧
      ∀ e ∈ moved.entries, e.1 ∈ t.rows := by
  obtain ⟨t, hstate, hrows, horders, hcreated⟩ := created_replacing dao old table hne
  have hfresh : ∀ q ∈ t.rows, q.id ≠ 0 ∧ m.get q = none := by
    intro q hq
    refine ⟨t.ids_ne_zero q hq, ?_⟩
    cases hget : m.get q with
    | none => rfl
    | some f => exact absurd (hid q (hkeys _ (LinkedMap.get_eq_some.1 hget))) (t.ids_ne_zero q hq)
  have hmap := Importer.createAll_get (c := importer dao (some old)) (s := ⟨table, false⟩) (m := m) hnodup
    (hrows ▸ t.ids_nodup.of_map) hid (hrows ▸ hfresh)
  rw [hrows] at hmap
  refine ⟨t, ((importer dao (some old)).createAll ⟨table, false⟩ m ps).2, ?_, horders, ?_, fun e he => ?_⟩
  · exact Prod.ext ((Importer.createAll_fst ps _ m).trans hstate) rfl
  · exact List.Forall₂.mp (fun _ _ hrow hmoved => ⟨hrow, hmoved⟩) hcreated hmap.1
  · by_contra hnot
    have hget := (hmap.2 e.1 hnot).symm.trans (LinkedMap.get_eq_some.2 he)
    by_cases hmem : e.1 ∈ ps
    · rw [if_pos hmem] at hget
      cases hget
    · rw [if_neg hmem] at hget
      exact hmem (hkeys _ (LinkedMap.get_eq_some.1 hget))

/-- A row with the fallback that it is given. -/
def linked (profiles : List Profile) (entries : List (Profile × Profile)) (q : Profile) : Profile :=
  match entries.find? (fun e => e.1.id = q.id) with
  | none   => q
  | some e => { e.1 with udpFallback := (profiles.find? (serves e.2)).map Profile.id }

/-- **Fallbacks that are in the table already** are set in the rows, and nothing is created. -/
theorem finalizeAll_eq (dao : Dao) (old : LinkedMap Text Profile) (profiles : List Profile) :
    ∀ {entries : List (Profile × Profile)} {s : Import},
    (∀ e ∈ entries, ∃ q, profiles.find? (serves e.2) = some q) → (entries.map (fun e => e.1.id)).Nodup →
    (∀ e ∈ entries, e.1.id ∈ s.table.rows.map Profile.id) →
      ∃ t : ProfileTable, (importer dao (some old)).finalizeAll profiles s entries = ({ s with table := t }, none) ∧
        t.rows = s.table.rows.map (linked profiles entries)
  | [], s, _, _, _ => ⟨s.table, rfl, (List.map_id _).symm⟩
  | (p, fallback) :: rest, s, hserved, hnodup, hknown => by
    obtain ⟨⟨q, hq⟩, hserved⟩ := List.forall_mem_cons.1 hserved
    obtain ⟨hp, hnodup⟩ := List.nodup_cons.1 hnodup
    obtain ⟨hpid, hknown⟩ := List.forall_mem_cons.1 hknown
    have hid : (importer dao (some old)).fallbackId profiles s fallback = (q.id, s) := by
      rw [Importer.fallbackId, hq]
    have hlink : (importer dao (some old)).link s p q.id =
        .ok { s with table := s.table.update { p with udpFallback := some q.id } } := by
      simp only [importer, updateProfile_ok (p := { p with udpFallback := some q.id }) hpid]
    have hknown' : ∀ e ∈ rest, e.1.id ∈ (s.table.update { p with udpFallback := some q.id }).rows.map Profile.id := by
      intro e he
      show e.1.id ∈ (s.table.rows.map _).map Profile.id
      rw [ProfileTable.map_id_replace]
      exact hknown e he
    obtain ⟨t, ht, hrows⟩ := finalizeAll_eq dao old profiles
      (s := { s with table := s.table.update { p with udpFallback := some q.id } }) hserved hnodup hknown'
    refine ⟨t, ?_, ?_⟩
    · rw [Importer.finalizeAll, hid]
      simp only [hlink, ht]
    · rw [hrows]
      show (s.table.rows.map _).map _ = _
      rw [List.map_map]
      apply List.map_congr_left
      intro r _
      by_cases hr : r.id = p.id
      · have hnone : rest.find? (fun e => e.1.id = p.id) = none := by
          rw [List.find?_eq_none]
          intro e he heq
          exact hp (List.mem_map.2 ⟨e, he, of_decide_eq_true heq⟩)
        simp [linked, hr, hnone, hq]
      · simp [linked, hr, Ne.symm hr]

/-- A row with its fallback. -/
def withFallback (profiles : List Profile) (m : LinkedMap Profile Profile) (q : Profile) : Profile :=
  match m.get q with
  | none          => q
  | some fallback => { q with udpFallback := (profiles.find? (serves fallback)).map Profile.id }

theorem withFallback_erased (profiles : List Profile) (m : LinkedMap Profile Profile) (q : Profile) :
    ∃ fallback, withFallback profiles m q = { q with udpFallback := fallback } := by
  unfold withFallback
  split
  · exact ⟨q.udpFallback, rfl⟩
  · exact ⟨_, rfl⟩

theorem finalize_eq (dao : Dao) (old : LinkedMap Text Profile) {t : ProfileTable} {m : LinkedMap Profile Profile}
    (hkeys : ∀ e ∈ m.entries, e.1 ∈ t.rows) (hserved : ∀ e ∈ m.entries, ∃ q ∈ t.rows, serves e.2 q = true) :
    ∃ t' : ProfileTable, (importer dao (some old)).finalize ⟨t, true⟩ m = (⟨t', true⟩, none) ∧
      t'.rows = t.rows.map (withFallback t.rows m) := by
  have hfind : ∀ e ∈ m.entries, ∃ q, t.rows.find? (serves e.2) = some q := by
    intro e he
    obtain ⟨q, hq, hserves⟩ := hserved e he
    exact Option.isSome_iff_exists.1 (List.find?_isSome.2 ⟨q, hq, hserves⟩)
  have hnodup : (m.entries.map (fun e => e.1.id)).Nodup := by
    have hmap : m.entries.map (fun e => e.1.id) = (m.entries.map Prod.fst).map Profile.id := by rw [List.map_map]; rfl
    rw [hmap]
    refine List.Nodup.map_on (fun x hx y hy hxy => ?_) m.nodup
    obtain ⟨e, he, rfl⟩ := List.mem_map.1 hx
    obtain ⟨e', he', rfl⟩ := List.mem_map.1 hy
    exact ProfileTable.eq_of_id_eq (hkeys e he) (hkeys e' he') hxy
  obtain ⟨t', ht', hrows⟩ := finalizeAll_eq dao old t.rows (s := ⟨t, true⟩) hfind hnodup
    (fun e he => List.mem_map_of_mem (hkeys e he))
  refine ⟨t', ht', hrows.trans (List.map_congr_left (fun q hq => ?_))⟩
  unfold linked withFallback
  cases hentry : m.entries.find? (fun e => e.1.id = q.id) with
  | some e =>
    have hid : e.1.id = q.id := by simpa using List.find?_some hentry
    have hmem := List.mem_of_find?_eq_some hentry
    have heq := ProfileTable.eq_of_id_eq (hkeys e hmem) hq hid
    have hget : m.get q = some e.2 := LinkedMap.get_eq_some.2 (heq ▸ hmem)
    rw [hget]
    simp only [heq]
  | none =>
    cases hget : m.get q with
    | none => rfl
    | some fallback =>
      have hnot := List.find?_eq_none.1 hentry _ (LinkedMap.get_eq_some.1 hget)
      exact absurd (decide_eq_true rfl) hnot

end

/-! ## The parser's result -/

section
variable {found : List (Profile × Option Profile)}

theorem mem_fallbackEntries {e : Profile × Profile} : e ∈ Profile.fallbackEntries found ↔ (e.1, some e.2) ∈ found := by
  unfold Profile.fallbackEntries
  rw [List.mem_filterMap]
  constructor
  · rintro ⟨⟨p, fallback⟩, hmem, hmap⟩
    obtain ⟨q, rfl, rfl⟩ := Option.map_eq_some_iff.1 hmap
    exact hmem
  · exact fun h => ⟨(e.1, some e.2), h, rfl⟩

theorem nodup_fallbackEntries (h : (found.map Prod.fst).Nodup) : ((Profile.fallbackEntries found).map Prod.fst).Nodup := by
  induction found with
  | nil => exact List.nodup_nil
  | cons f found ih =>
    obtain ⟨hf, hfound⟩ := List.nodup_cons.1 h
    cases hfallback : f.2 with
    | none =>
      have hsame : Profile.fallbackEntries (f :: found) = Profile.fallbackEntries found := by
        simp [Profile.fallbackEntries, hfallback]
      rw [hsame]
      exact ih hfound
    | some fallback =>
      have hcons : Profile.fallbackEntries (f :: found) = (f.1, fallback) :: Profile.fallbackEntries found := by
        simp [Profile.fallbackEntries, hfallback]
      rw [hcons]
      refine List.nodup_cons.2 ⟨fun hmem => ?_, ih hfound⟩
      obtain ⟨e, he, heq⟩ := List.mem_map.1 hmem
      exact hf (List.mem_map.2 ⟨(e.1, some e.2), mem_fallbackEntries.1 he, heq⟩)

/-- **Each profile has its own fallback in the map**, if no two were read alike. -/
theorem get_fallbackEntries (h : (found.map Prod.fst).Nodup) {p q : Profile} :
    (LinkedMap.empty.putAll (Profile.fallbackEntries found)).get p = some q ↔ (p, some q) ∈ found := by
  have hentries : (LinkedMap.empty.putAll (Profile.fallbackEntries found)).entries = Profile.fallbackEntries found :=
    LinkedMap.entries_putAll _ .empty (nodup_fallbackEntries h)
  rw [LinkedMap.get_eq_some, hentries, mem_fallbackEntries]

end

/-! ## The backup -/

/-- What is read of a profile. -/
def readBack (runtime : Runtime) (table : ProfileTable) (profileId : Nat) (defaultConfig : Text) (p : Profile) : Profile :=
  p.restored (featureOf (some (byAddress table)) profileId table) (Profile.pluginText runtime (p.optionsOf defaultConfig))

def fallbackRead (table : ProfileTable) (profileId : Nat) (p : Profile) : Option Profile :=
  (p.exportedFallback (Profile.lookup table.getActiveProfiles)).map
    (Profile.restoredServer (featureOf (some (byAddress table)) profileId table))

/-- The profiles that can be backed up. -/
def Backable (p : Profile) : Prop :=
  p.PortInRange ∧ PluginConfiguration.ClearLines (p.plugin.getD []) ∧ p.Complete

/-- A profile and the row that it comes back as. -/
structure Restored (runtime : Runtime) (table restored : ProfileTable) (profileId : Nat) (defaultConfig : Text)
    (p row : Profile) : Prop where
  settings : { row with id := 0, userOrder := 0, tx := 0, rx := 0, udpFallback := none } =
    readBack runtime table profileId defaultConfig p
  /-- Its plugin is the selected one, with the same options. -/
  plugin   : ∀ text ∈ row.plugin,
    ∃ o, PluginOptions.ofLine text = .ok o ∧ PluginConfiguration.Same (p.optionsOf defaultConfig) o
  /-- It has the traffic of a profile at its address. -/
  traffic  : ∃ q ∈ table.rows, q.formattedAddress = p.formattedAddress ∧ row.tx = q.tx ∧ row.rx = q.rx
  fallback : match p.exportedFallback (Profile.lookup table.getActiveProfiles) with
    | none   => row.udpFallback = none
    | some f => ∃ r ∈ restored.rows, row.udpFallback = some r.id ∧ serves f r = true

section
variable {dao : Dao} {runtime : Runtime} {table : ProfileTable} {profileId : Nat} {defaultConfig : Text}

theorem optionsOf_of_none {p : Profile} (h : p.plugin = none ∨ p.plugin = some []) :
    Profile.pluginText runtime (p.optionsOf defaultConfig) = none := by
  have hempty : p.plugin.getD [] = [] := by rcases h with h | h <;> rw [h] <;> rfl
  have hoptions : p.selectedOptions defaultConfig = .ok .new := by
    rw [Profile.selectedOptions, hempty]
    rfl
  rw [Profile.optionsOf, hoptions]
  rfl

theorem readBack_id (p : Profile) : (readBack runtime table profileId defaultConfig p).id = 0 := by
  show (Profile.featured _).id = 0
  unfold Profile.featured
  split <;> rfl

/-- The columns that are not written are those of a new profile. -/
theorem readBack_erased (p : Profile) : { readBack runtime table profileId defaultConfig p with
    id := 0, userOrder := 0, tx := 0, rx := 0, udpFallback := none } = readBack runtime table profileId defaultConfig p := by
  unfold readBack Profile.restored Profile.restoredServer Profile.featured
  split <;> rfl

theorem foundAll_eq (h : ∀ p ∈ table.getActiveProfiles, Backable p) :
    Profile.foundAll runtime (featureOf (some (byAddress table)) profileId table) defaultConfig
        (Profile.lookup table.getActiveProfiles) table.getActiveProfiles =
      table.getActiveProfiles.map
        (fun p => (readBack runtime table profileId defaultConfig p, fallbackRead table profileId p)) := by
  have hfound : ∀ p ∈ table.getActiveProfiles, p.found runtime (featureOf (some (byAddress table)) profileId table)
      (p.optionsOf defaultConfig) (p.exportedFallback (Profile.lookup table.getActiveProfiles)) =
        [(readBack runtime table profileId defaultConfig p, fallbackRead table profileId p)] := by
    intro p hp
    have hcomplete : (p.exportedFallback (Profile.lookup table.getActiveProfiles)).filter (fun q => q.Complete) =
        p.exportedFallback (Profile.lookup table.getActiveProfiles) := by
      cases hq : p.exportedFallback (Profile.lookup table.getActiveProfiles) with
      | none => rfl
      | some q => rw [TextReader.filter_some, if_pos (h q (Profile.mem_of_exportedFallback hq)).2.2]
    rw [Profile.found, if_pos (h p hp).2.2, hcomplete]
    rfl
  unfold Profile.foundAll
  rw [List.flatMap_congr hfound, List.map_eq_flatMap]

/-- What the parser has of the export: the profiles in their order, and the fallback of each. -/
theorem process_backup (hback : ∀ p ∈ table.getActiveProfiles, Backable p)
    (hdistinct : (table.getActiveProfiles.map (readBack runtime table profileId defaultConfig)).Nodup) :
    ∃ json m, Profile.serializeToJson runtime table.getActiveProfiles defaultConfig = .ok json ∧
      JsonParser.process runtime (featureOf (some (byAddress table)) profileId table) .new json =
        .ok ⟨table.getActiveProfiles.map (readBack runtime table profileId defaultConfig), m⟩ ∧
      (∀ p ∈ table.getActiveProfiles, m.get (readBack runtime table profileId defaultConfig p) =
        fallbackRead table profileId p) ∧
      ∀ e ∈ m.entries, e.1 ∈ table.getActiveProfiles.map (readBack runtime table profileId defaultConfig) := by
  obtain ⟨json, hjson, hread⟩ := Profile.process_serialized runtime (featureOf (some (byAddress table)) profileId table)
    defaultConfig (fun p hp => ⟨(hback p hp).1, (hback p hp).2.1⟩)
  have hfst : (table.getActiveProfiles.map
      (fun p => (readBack runtime table profileId defaultConfig p, fallbackRead table profileId p))).map Prod.fst =
        table.getActiveProfiles.map (readBack runtime table profileId defaultConfig) := by
    rw [List.map_map]
    rfl
  rw [foundAll_eq hback, hfst] at hread
  have hentry {p q : Profile} := get_fallbackEntries (p := p) (q := q) (hfst ▸ hdistinct)
  refine ⟨json, _, hjson, hread, fun p hp => ?_, fun e he => ?_⟩
  · cases hf : fallbackRead table profileId p with
    | some f => exact hentry.2 (List.mem_map.2 ⟨p, hp, by rw [hf]⟩)
    | none =>
      by_contra hget
      obtain ⟨f, hget⟩ := Option.ne_none_iff_exists'.1 hget
      obtain ⟨p', hp', heq⟩ := List.mem_map.1 (hentry.1 hget)
      obtain ⟨hsame, hf'⟩ := Prod.mk.inj heq
      rw [List.inj_on_of_nodup_map hdistinct hp' hp hsame, hf] at hf'
      cases hf'
  · obtain ⟨p, hp, heq⟩ := List.mem_map.1 (hentry.1 (LinkedMap.get_eq_some.2 he))
    exact List.mem_map.2 ⟨p, hp, congrArg Prod.fst heq⟩

/-- **The row of a profile without a plugin serves as the fallback it was.** -/
theorem serves_created {f q : Profile} (hplugin : f.plugin = none ∨ f.plugin = some [])
    (h : Created (byAddress table) (readBack runtime table profileId defaultConfig f) q) : serves f q = true := by
  rw [h]
  unfold withStats
  split <;> simp [serves, readBack, Profile.restored, Profile.restoredServer, optionsOf_of_none hplugin]

theorem byAddress_get {p : Profile} (hp : p ∈ table.rows) :
    ∃ q ∈ table.rows, q.formattedAddress = p.formattedAddress ∧ (byAddress table).get p.formattedAddress = some q := by
  have hsome : (byAddress table).get p.formattedAddress ≠ none :=
    (LinkedMap.get_putAll_ne_none _).2 (.inl ⟨_, List.mem_map_of_mem hp, rfl⟩)
  obtain ⟨q, hq⟩ := Option.ne_none_iff_exists'.1 hsome
  rcases LinkedMap.mem_putAll _ (LinkedMap.get_eq_some.1 hq) with hmem | hmem
  · obtain ⟨r, hr, heq⟩ := List.mem_map.1 hmem
    obtain ⟨haddress, hrow⟩ := Prod.mk.inj heq
    exact ⟨q, hrow ▸ hr, hrow ▸ haddress, hq⟩
  · exact absurd hmem List.not_mem_nil

/-- The row that was created for a profile has the traffic of its address. -/
theorem created_eq {p q : Profile} (hp : p ∈ table.getActiveProfiles)
    (h : Created (byAddress table) (readBack runtime table profileId defaultConfig p) q) :
    ∃ r ∈ table.rows, r.formattedAddress = p.formattedAddress ∧ q = { readBack runtime table profileId defaultConfig p with
      id := q.id, userOrder := q.userOrder, tx := r.tx, rx := r.rx } := by
  obtain ⟨r, hr, haddress, hold⟩ := byAddress_get (ProfileTable.mem_of_mem_getActiveProfiles hp)
  have hsame : (readBack runtime table profileId defaultConfig p).formattedAddress = p.formattedAddress := rfl
  rw [Created, withStats, hsame, hold] at h
  exact ⟨r, hr, haddress, h⟩

/-- The row that was created for an active profile, with its fallback still in the map. -/
structure Paired (runtime : Runtime) (table : ProfileTable) (profileId : Nat) (defaultConfig : Text)
    (moved : LinkedMap Profile Profile) (p q : Profile) : Prop where
  active   : p ∈ table.getActiveProfiles
  created  : Created (byAddress table) (readBack runtime table profileId defaultConfig p) q
  fallback : moved.get q = fallbackRead table profileId p

variable {t restored : ProfileTable} {moved : LinkedMap Profile Profile}

/-- **Each fallback is in the table already**, since it was written with the other profiles. -/
theorem served_of_paired
    (hpairs : List.Forall₂ (Paired runtime table profileId defaultConfig moved) table.getActiveProfiles t.rows)
    (hkeys : ∀ e ∈ moved.entries, e.1 ∈ t.rows) : ∀ e ∈ moved.entries, ∃ q ∈ t.rows, serves e.2 q = true := by
  intro e he
  obtain ⟨p, -, hpaired⟩ := exists_of_forall₂ hpairs.flip (hkeys e he)
  have hget := hpaired.fallback.symm.trans (LinkedMap.get_eq_some.2 he)
  obtain ⟨f, hf, heq⟩ := Option.map_eq_some_iff.1 hget
  obtain ⟨q, hq, hfallback⟩ := exists_of_forall₂ hpairs (Profile.mem_of_exportedFallback hf)
  have hserves : serves f q = true :=
    serves_created (of_decide_eq_true (Option.filter_eq_some_iff.1 hf).2) hfallback.created
  refine ⟨q, hq, ?_⟩
  rw [← heq]
  exact hserves

/-- The first row that serves, as it is in the end. -/
theorem withFallback_some {q f : Profile} (hserved : ∀ e ∈ moved.entries, ∃ r ∈ t.rows, serves e.2 r = true)
    (hrows : restored.rows = t.rows.map (withFallback t.rows moved)) (hget : moved.get q = some f) :
    ∃ r ∈ restored.rows, (withFallback t.rows moved q).udpFallback = some r.id ∧ serves f r = true := by
  obtain ⟨r, hr, hserves⟩ := hserved _ (LinkedMap.get_eq_some.1 hget)
  obtain ⟨first, hfirst⟩ := Option.isSome_iff_exists.1 (List.find?_isSome.2 ⟨r, hr, hserves⟩)
  have hfirstServes : serves f first = true := List.find?_some (p := serves f) hfirst
  obtain ⟨g, hg⟩ := withFallback_erased t.rows moved first
  refine ⟨withFallback t.rows moved first, ?_, ?_, ?_⟩
  · rw [hrows]
    exact List.mem_map_of_mem (List.mem_of_find?_eq_some hfirst)
  · rw [hg, withFallback, hget]
    exact congrArg (Option.map Profile.id) hfirst
  · rw [hg]
    exact hfirstServes

theorem restored_of_paired {p q : Profile} (hpaired : Paired runtime table profileId defaultConfig moved p q)
    (hback : Backable p) (hserved : ∀ e ∈ moved.entries, ∃ r ∈ t.rows, serves e.2 r = true)
    (hrows : restored.rows = t.rows.map (withFallback t.rows moved)) :
    Restored runtime table restored profileId defaultConfig p (withFallback t.rows moved q) := by
  obtain ⟨r, hr, haddress, hq⟩ := created_eq hpaired.active hpaired.created
  obtain ⟨f, hf⟩ := withFallback_erased t.rows moved q
  have hget := hpaired.fallback
  refine ⟨?_, fun text htext => ?_, ⟨r, hr, haddress, ?_, ?_⟩, ?_⟩
  · rw [hf, hq]
    exact readBack_erased p
  · rw [hf, hq] at htext
    exact Profile.pluginText_same (Profile.selectedOptions_of_clear hback.2.1 defaultConfig).2 htext
  · rw [hf, hq]
  · rw [hf, hq]
  · cases hexported : p.exportedFallback (Profile.lookup table.getActiveProfiles) with
    | none =>
      have hread : (readBack runtime table profileId defaultConfig p).udpFallback = none :=
        (congrArg Profile.udpFallback (readBack_erased p)).symm
      rw [fallbackRead, hexported] at hget
      simp only [withFallback, hget, Option.map_none]
      rw [hq]
      exact hread
    | some fallback =>
      rw [fallbackRead, hexported, Option.map_some] at hget
      -- it serves for the fallback as it was read just as for the one that was written
      obtain ⟨r, hr, hid, hserves⟩ := withFallback_some hserved hrows hget
      exact ⟨r, hr, hid, hserves⟩

/-- **Backup and restore.**  Active profiles that are complete and differ in what is read of them are written and read back
into a cleared table without an exception: one row for each and in their order, with its settings, the options of its selected
plugin, the traffic of its address, and for a fallback that was written the id of a row with the same server. -/
theorem restore_backup (dao : Dao) (runtime : Runtime) (table : ProfileTable) (profileId : Nat) (defaultConfig : Text)
    (hne : table.getActiveProfiles ≠ []) (hback : ∀ p ∈ table.getActiveProfiles, Backable p)
    (hdistinct : (table.getActiveProfiles.map (readBack runtime table profileId defaultConfig)).Nodup) :
    ∃ json restored, Profile.serializeToJson runtime table.getActiveProfiles defaultConfig = .ok json ∧
      createProfilesFromJson dao runtime [.ok json] true profileId table = (restored, none) ∧
      restored.rows.map Profile.userOrder = List.range table.getActiveProfiles.length ∧
      List.Forall₂ (Restored runtime table restored profileId defaultConfig) table.getActiveProfiles restored.rows := by
  obtain ⟨json, m, hjson, hread, hfallback, hmkeys⟩ := process_backup hback hdistinct
  obtain ⟨t, moved, hcreate, horders, hcreated, hkeys⟩ := createAll_replacing dao (byAddress table) table
    (mt List.map_eq_nil_iff.1 hne) hdistinct (List.forall_mem_map.2 (fun p _ => readBack_id p)) hmkeys
  have hpairs : List.Forall₂ (Paired runtime table profileId defaultConfig moved) table.getActiveProfiles t.rows :=
    ((List.forall₂_and_left _ _).2 ⟨fun p hp => hp, List.forall₂_map_left_iff.1 hcreated⟩).imp
      (fun p q h => ⟨h.1, h.2.1, h.2.2.trans (hfallback p h.1)⟩)
  have hserved := served_of_paired hpairs hkeys
  obtain ⟨restored, hfinal, hrows⟩ := finalize_eq dao (byAddress table) hkeys hserved
  refine ⟨json, restored, hjson, ?_, ?_, ?_⟩
  · have hparse : (importer dao (some (byAddress table))).parseJson runtime
        (featureOf (some (byAddress table)) profileId table) (.ok json) ⟨table, false⟩ = (⟨restored, true⟩, none) := by
      rw [Importer.parseJson, Importer.read, hread]
      simp only [hcreate, hfinal]
    rw [createProfilesFromJson]
    simp only [oldProfiles, if_true, Importer.forEachTry, hparse]
    rfl
  · rw [List.length_map] at horders
    rw [hrows, List.map_map, ← horders]
    apply List.map_congr_left
    intro q _
    obtain ⟨f, hq⟩ := withFallback_erased t.rows moved q
    rw [Function.comp_apply, hq]
  · rw [hrows, List.forall₂_map_right_iff]
    exact hpairs.imp (fun p q h => restored_of_paired h (hback p h.active) hserved hrows)

end

/-- A profile after its fallback, and an obsolete one. -/
def threeProfiles : ProfileTable where
  rows :=
    [{ id := 4, host := "b".toList, remotePort := 2, password := "q".toList, method := "m".toList, tx := 5 },
     { id := 7, host := "a".toList, remotePort := 1, password := "p".toList, method := "m".toList, udpFallback := some 4,
       userOrder := 1, rx := 6 },
     { id := 9, host := "c".toList, remotePort := 3, password := "r".toList, method := "m".toList,
       subscription := .obsolete }]
  ids_nodup   := by decide
  ids_ne_zero := by decide

/-- The obsolete profile is gone, and the fallback is found under its new id. -/
theorem restore_backup_three :
    ∃ json restored first second, Profile.serializeToJson Profile.plainRuntime threeProfiles.getActiveProfiles [] = .ok json ∧
      createProfilesFromJson rowIds Profile.plainRuntime [.ok json] true 7 threeProfiles = (restored, none) ∧
      restored.rows = [first, second] ∧ ∃ r ∈ restored.rows, second.udpFallback = some r.id ∧ r.host = "b".toList := by
  have hactive : threeProfiles.getActiveProfiles = threeProfiles.rows.take 2 := by decide +kernel
  have hback : ∀ p ∈ threeProfiles.getActiveProfiles, Backable p := by
    rw [hactive]
    intro p hp
    simp only [threeProfiles, List.take_succ_cons, List.take_zero, List.mem_cons, List.not_mem_nil, or_false] at hp
    rcases hp with rfl | rfl <;> exact ⟨⟨by decide, by decide⟩, by decide, by decide⟩
  obtain ⟨json, restored, hjson, hrun, -, hrows⟩ := restore_backup rowIds Profile.plainRuntime threeProfiles 7 []
    (by decide +kernel) hback (by decide +kernel)
  rw [hactive] at hrows
  generalize hrestored : restored.rows = rows at hrows
  obtain - | ⟨-, - | ⟨hsecond, hnil⟩⟩ := hrows
  cases hnil
  obtain ⟨r, hr, hid, hserves⟩ := hsecond.fallback
  exact ⟨json, restored, _, _, hjson, hrun, hrestored, r, hr, hid, (of_decide_eq_true hserves).1.symm⟩

end ProfileManager
end Riddles
