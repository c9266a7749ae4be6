import GoRiddles.ProfileJson
import GoRiddles.Registration
/-!
# ProfileImport — profiles from JSON into the table

`parseJson` and `finalize` of `Profile.kt`, and `createProfilesFromJson` of `ProfileManager.kt`.  A document is parsed before
the first profile of it is created, so a document that cannot be read leaves no trace; the profiles are created in the order
of the document, and only then are they given their fallbacks.
-/
namespace Riddles

/-- What `parseJson` works on: the rows of the table, `create`, and `profile.udpFallback = id` with `updateProfile(profile)`. -/
structure Importer (σ : Type) where
  rows   : σ → List Profile
  create : σ → Profile → Profile × σ
  link   : σ → Profile → Nat → Except Thrown σ

namespace Importer

variable {σ : Type} (c : Importer σ)

/-- The loop over the profiles; the fallback moves from the profile that was read to the one that was created. -/
def createAll : σ → LinkedMap Profile Profile → List Profile → σ × LinkedMap Profile Profile
  | s, m, []      => (s, m)
  | s, m, p :: ps =>
    match m.get p with
    | none          => createAll (c.create s p).2 (m.remove p) ps
    | some fallback => createAll (c.create s p).2 ((m.remove p).put (c.create s p).1 fallback) ps

/-- The row that will do for a fallback. -/
def serves (fallback p : Profile) : Bool :=
  fallback.host = p.host ∧ fallback.remotePort = p.remotePort ∧ fallback.password = p.password ∧
    fallback.method = p.method ∧ (p.plugin = none ∨ p.plugin = some [])

/-- The id of a fallback, which is created if no row will do. -/
def fallbackId (profiles : List Profile) (s : σ) (fallback : Profile) : Nat × σ :=
  match profiles.find? (serves fallback) with
  | some p => (p.id, s)
  | none   => ((c.create s fallback).1.id, (c.create s fallback).2)

def finalizeAll (profiles : List Profile) : σ → List (Profile × Profile) → σ × Option Thrown
  | s, []                    => (s, none)
  | s, (p, fallback) :: rest =>
    match c.link (c.fallbackId profiles s fallback).2 p (c.fallbackId profiles s fallback).1 with
    | .error e => ((c.fallbackId profiles s fallback).2, some e)
    | .ok t    => finalizeAll profiles t rest

def finalize (s : σ) (m : LinkedMap Profile Profile) : σ × Option Thrown := c.finalizeAll (c.rows s) s m.entries

/-- A document: what `JsonStreamParser` makes of it, or its exception. -/
abbrev Document := Except Thrown JsonElement

variable (runtime : Runtime) (feature : Option Profile)

def read (document : Document) : Except Thrown JsonParser :=
  match document with
  | .error e => .error e
  | .ok json => JsonParser.process runtime feature .new json

/-- `parseJson`, with the state that is left and the exception. -/
def parseJson (document : Document) (s : σ) : σ × Option Thrown :=
  match read runtime feature document with
  | .error e   => (s, some e)
  | .ok parser =>
    let (s, m) := c.createAll s parser.fallbackMap parser.profiles
    c.finalize s m

/-- `forEachTry`: the exceptions are kept for the end, and the first one is thrown. -/
def forEachTry : List Document → σ → σ × Option Thrown
  | [], s                    => (s, none)
  | document :: documents, s =>
    let (s, e) := c.parseJson runtime feature document s
    let (s, e') := forEachTry documents s
    (s, e.or e')

/-! ## Documents that are read -/

/-- The rules for an importer: what holds of the state and of the profiles that were given to `create` so far, and which rows
it knows. -/
structure Lawful (Inv : σ → List Profile → Prop) (Known : σ → Nat → Prop) : Prop where
  create_inv  : ∀ {s made} p, Inv s made → Inv (c.create s p).2 (made ++ [p])
  create_new  : ∀ {s made} p, Inv s made → Known (c.create s p).2 (c.create s p).1.id
  create_kept : ∀ {s made i} p, Inv s made → Known s i → Known (c.create s p).2 i
  link_ok     : ∀ {s made p} id, Inv s made → Known s p.id →
    ∃ t, c.link s p id = .ok t ∧ Inv t made ∧ ∀ i, Known s i → Known t i

section
variable {c} {Inv : σ → List Profile → Prop} {Known : σ → Nat → Prop} {runtime} {feature} {s : σ} {made : List Profile}

theorem Lawful.fallbackId (h : c.Lawful Inv Known) (profiles : List Profile) (fallback : Profile) (hs : Inv s made) :
    (∃ more, Inv (c.fallbackId profiles s fallback).2 (made ++ more) ∧ ∀ f ∈ more, f = fallback) ∧
      ∀ i, Known s i → Known (c.fallbackId profiles s fallback).2 i := by
  unfold Importer.fallbackId
  split
  · exact ⟨⟨[], by rwa [List.append_nil], fun f hf => absurd hf List.not_mem_nil⟩, fun i hi => hi⟩
  · exact ⟨⟨[fallback], h.create_inv fallback hs, fun f hf => List.mem_singleton.1 hf⟩,
      fun i hi => h.create_kept fallback hs hi⟩

theorem Lawful.finalizeAll (h : c.Lawful Inv Known) (profiles : List Profile) :
    ∀ {entries : List (Profile × Profile)} {s : σ} {made : List Profile}, Inv s made → (∀ e ∈ entries, Known s e.1.id) →
      (c.finalizeAll profiles s entries).2 = none ∧
        ∃ more, Inv (c.finalizeAll profiles s entries).1 (made ++ more) ∧ ∀ f ∈ more, ∃ e ∈ entries, e.2 = f
  | [], s, made, hs, _ => ⟨rfl, [], by rwa [List.append_nil], fun f hf => absurd hf List.not_mem_nil⟩
  | (p, fallback) :: rest, s, made, hs, hknown => by
    obtain ⟨hp, hrest⟩ := List.forall_mem_cons.1 hknown
    obtain ⟨⟨one, hone, honly⟩, hkept⟩ := h.fallbackId profiles fallback hs
    obtain ⟨t, ht, hinv, hlinked⟩ := h.link_ok (c.fallbackId profiles s fallback).1 hone (hkept _ hp)
    obtain ⟨hnone, more, hmore, hmem⟩ := h.finalizeAll profiles hinv (fun e he => hlinked _ (hkept _ (hrest e he)))
    rw [Importer.finalizeAll, ht]
    refine ⟨hnone, one ++ more, by rwa [← List.append_assoc], fun f hf => ?_⟩
    rcases List.mem_append.1 hf with hf | hf
    · exact ⟨(p, fallback), List.mem_cons_self, (honly f hf).symm⟩
    · obtain ⟨e, he, heq⟩ := hmem f hf
      exact ⟨e, List.mem_cons_of_mem _ he, heq⟩

theorem Lawful.createAll (h : c.Lawful Inv Known) : ∀ {ps : List Profile} {s : σ} {made : List Profile}
    {m : LinkedMap Profile Profile}, Inv s made → (∀ e ∈ m.entries, e.1 ∈ ps ∨ Known s e.1.id) →
      Inv (c.createAll s m ps).1 (made ++ ps) ∧ ∀ e ∈ (c.createAll s m ps).2.entries,
        Known (c.createAll s m ps).1 e.1.id ∧ ∃ e' ∈ m.entries, e'.2 = e.2
  | [], s, made, m, hs, hm =>
    ⟨by rwa [List.append_nil], fun e he => ⟨(hm e he).resolve_left List.not_mem_nil, e, he, rfl⟩⟩
  | p :: ps, s, made, m, hs, hm => by
    have hremoved : ∀ e ∈ (m.remove p).entries,
        (e.1 ∈ ps ∨ Known (c.create s p).2 e.1.id) ∧ ∃ e' ∈ m.entries, e'.2 = e.2 := by
      intro e he
      obtain ⟨hmem, hne⟩ := List.mem_filter.1 he
      have hne : e.1 ≠ p := of_decide_eq_true hne
      refine ⟨?_, e, hmem, rfl⟩
      rcases hm e hmem with hps | hknown
      · exact .inl ((List.mem_cons.1 hps).resolve_left hne)
      · exact .inr (h.create_kept p hs hknown)
    -- whatever the map is, its values are those of the old one
    have hloop : ∀ {m' : LinkedMap Profile Profile}, (∀ e ∈ m'.entries,
        (e.1 ∈ ps ∨ Known (c.create s p).2 e.1.id) ∧ ∃ e' ∈ m.entries, e'.2 = e.2) →
        Inv (c.createAll (c.create s p).2 m' ps).1 (made ++ p :: ps) ∧
          ∀ e ∈ (c.createAll (c.create s p).2 m' ps).2.entries,
            Known (c.createAll (c.create s p).2 m' ps).1 e.1.id ∧ ∃ e' ∈ m.entries, e'.2 = e.2 := by
      intro m' hm'
      obtain ⟨hinv, hall⟩ := h.createAll (h.create_inv p hs) (fun e he => (hm' e he).1)
      rw [List.append_assoc] at hinv
      refine ⟨hinv, fun e he => ⟨(hall e he).1, ?_⟩⟩
      obtain ⟨e', he', heq⟩ := (hall e he).2
      obtain ⟨e'', he'', heq'⟩ := (hm' e' he').2
      exact ⟨e'', he'', heq'.trans heq⟩
    rw [Importer.createAll]
    split
    · exact hloop hremoved
    · rename_i fallback hget
      refine hloop (fun e he => ?_)
      rcases LinkedMap.mem_put he with rfl | he
      · exact ⟨.inr (h.create_new p hs), (p, fallback), LinkedMap.get_eq_some.1 hget, rfl⟩
      · exact hremoved e he

theorem parseJson_of_error {document : Document} {e : Thrown} (hread : read runtime feature document = .error e) (s : σ) :
    c.parseJson runtime feature document s = (s, some e) := by
  rw [parseJson, hread]

/-- **Once a document is read nothing is thrown.**  Its profiles are created, and of its fallbacks those that are missing. -/
theorem Lawful.parseJson (h : c.Lawful Inv Known) {document : Document} {parser : JsonParser}
    (hread : read runtime feature document = .ok parser) (hs : Inv s made) :
    (c.parseJson runtime feature document s).2 = none ∧
      ∃ more, Inv (c.parseJson runtime feature document s).1 (made ++ (parser.profiles ++ more)) ∧
        ∀ f ∈ more, ∃ e ∈ parser.fallbackMap.entries, e.2 = f := by
  have hkeys : ∀ e ∈ parser.fallbackMap.entries, e.1 ∈ parser.profiles := by
    cases document with
    | error e => cases hread
    | ok json => exact JsonParser.fallback_mem hread
  obtain ⟨hcreated, hmoved⟩ := h.createAll hs (fun e he => .inl (hkeys e he))
  obtain ⟨hnone, more, hmore, honly⟩ := h.finalizeAll (c.rows _) hcreated (fun e he => (hmoved e he).1)
  rw [Importer.parseJson, hread]
  refine ⟨hnone, more, by rwa [← List.append_assoc], fun f hf => ?_⟩
  obtain ⟨e, he, rfl⟩ := honly f hf
  exact (hmoved e he).2

variable (runtime feature) in
def readable (document : Document) : Bool :=
  match read runtime feature document with
  | .error _ => false
  | .ok _    => true

variable (runtime feature) in
/-- The exception of the first document that has one. -/
def firstThrown (documents : List Document) : Option Thrown :=
  documents.findSome? (fun document =>
    match read runtime feature document with
    | .error e => some e
    | .ok _    => none)

theorem Lawful.forEachTry (h : c.Lawful Inv Known) : ∀ (documents : List Document) {s : σ} (made : List Profile),
    Inv s made → ∃ t, c.forEachTry runtime feature (documents.filter (readable runtime feature)) s = (t, none) ∧
      c.forEachTry runtime feature documents s = (t, firstThrown runtime feature documents)
  | [], s, made, hs => ⟨s, rfl, rfl⟩
  | document :: documents, s, made, hs => by
    cases hread : read runtime feature document with
    | error e =>
      obtain ⟨t, hgood, hall⟩ := h.forEachTry documents made hs
      refine ⟨t, ?_, ?_⟩
      · rw [List.filter_cons_of_neg (by simp [readable, hread])]
        exact hgood
      · rw [Importer.forEachTry, parseJson_of_error hread, firstThrown, List.findSome?_cons, hread]
        simp [hall]
    | ok parser =>
      obtain ⟨hnone, more, hinv, -⟩ := h.parseJson hread hs
      obtain ⟨t, hgood, hall⟩ := h.forEachTry documents _ hinv
      refine ⟨t, ?_, ?_⟩
      · rw [List.filter_cons_of_pos (by simp [readable, hread]), Importer.forEachTry]
        simp [hgood, hnone]
      · rw [Importer.forEachTry, firstThrown, List.findSome?_cons, hread]
        simp only [hall, hnone]
        rfl

end
end Importer

namespace ProfileTable

/-- `DELETE FROM Profile`. -/
def clear : ProfileTable := ⟨[], List.nodup_nil, fun _ h => absurd h List.not_mem_nil⟩

end ProfileTable

namespace ProfileManager

/-- The table, and whether `lazyClear` was evaluated. -/
structure Import where
  table   : ProfileTable
  cleared : Bool

/-- The old profiles by their addresses; of two at one address the last is kept. -/
def byAddress (table : ProfileTable) : LinkedMap Text Profile :=
  LinkedMap.empty.putAll (table.rows.map (fun p => (p.formattedAddress, p)))

/-- The traffic of an old profile at the address is copied over. -/
def withStats (old : LinkedMap Text Profile) (p : Profile) : Profile :=
  match old.get p.formattedAddress with
  | none   => p
  | some q => { p with tx := q.tx, rx := q.rx }

/-- The block that `createProfilesFromJson` passes to `parseJson`; `old` is given if the profiles are to be replaced. -/
def importer (dao : Dao) (old : Option (LinkedMap Text Profile)) : Importer Import where
  rows s     := s.table.rows
  create s p :=
    match old with
    | none     => (s.table.inserted dao p, { s with table := s.table.createProfile dao p })
    | some old =>
      let table := if s.cleared then s.table else .clear
      (table.inserted dao (withStats old p), ⟨table.createProfile dao (withStats old p), true⟩)
  link s p id :=
    match s.table.updateProfile { p with udpFallback := some id } with
    | .error e  => .error e
    | .ok table => .ok { s with table := table }

/-- The profile whose settings the new ones take over. -/
def featureOf (old : Option (LinkedMap Text Profile)) (profileId : Nat) (table : ProfileTable) : Option Profile :=
  match old with
  | some old => (old.entries.map Prod.snd).find? (fun p => p.id = profileId)
  | none     => table.getProfile profileId

def oldProfiles (replace : Bool) (table : ProfileTable) : Option (LinkedMap Text Profile) :=
  if replace then some (byAddress table) else none

def createProfilesFromJson (dao : Dao) (runtime : Runtime) (documents : List Importer.Document) (replace : Bool)
    (profileId : Nat) (table : ProfileTable) : ProfileTable × Option Thrown :=
  let old := oldProfiles replace table
  let (s, e) := (importer dao old).forEachTry runtime (featureOf old profileId table) documents ⟨table, false⟩
  (s.table, e)

/-! ## All or nothing -/

/-- The rows that will not be cleared any more. -/
def Known (old : Option (LinkedMap Text Profile)) (s : Import) (i : Nat) : Prop :=
  (old ≠ none → s.cleared = true) ∧ i ∈ s.table.rows.map Profile.id

theorem updateProfile_ok {table : ProfileTable} {p : Profile} (h : p.id ∈ table.rows.map Profile.id) :
    table.updateProfile p = .ok (table.update p) := by
  obtain ⟨q, hq, hid⟩ := List.mem_map.1 h
  unfold ProfileTable.updateProfile
  rw [if_pos (by rw [← hid]; exact ServerBean.countP_id hq)]

theorem lawful_importer (dao : Dao) (old : Option (LinkedMap Text Profile)) :
    (importer dao old).Lawful (fun _ _ => True) (Known old) where
  create_inv _ _ := trivial
  create_new {s _} p _ := by
    cases old with
    | none =>
      refine ⟨fun h => absurd rfl h, List.mem_map.2 ⟨s.table.inserted dao p, ?_, rfl⟩⟩
      exact List.mem_append_right _ List.mem_cons_self
    | some old => exact ⟨fun _ => rfl, List.mem_map.2 ⟨_, List.mem_append_right _ List.mem_cons_self, rfl⟩⟩
  create_kept {s _ _} p _ h := by
    obtain ⟨hcleared, q, hq, hid⟩ := And.imp_right List.mem_map.1 h
    cases old with
    | none => exact ⟨fun h => absurd rfl h, List.mem_map.2 ⟨q, List.mem_append_left _ hq, hid⟩⟩
    | some old =>
      refine ⟨fun _ => rfl, List.mem_map.2 ⟨q, List.mem_append_left _ ?_, hid⟩⟩
      rw [if_pos (hcleared (by simp))]
      exact hq
  link_ok {s _ p} id _ h := by
    have hupdate := updateProfile_ok (p := { p with udpFallback := some id }) h.2
    refine ⟨{ s with table := s.table.update { p with udpFallback := some id } }, ?_, trivial, fun i hi => ⟨hi.1, ?_⟩⟩
    · simp only [importer, hupdate]
    · show i ∈ (s.table.rows.map _).map Profile.id
      rw [ProfileTable.map_id_replace]
      exact hi.2

end ProfileManager
end Riddles
