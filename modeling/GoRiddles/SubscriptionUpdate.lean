import GoRiddles.ProfileImport
/-!
# SubscriptionUpdate — the profiles of the subscriptions, brought up to date

`createProfilesFromSubscription` of `SubscriptionService.kt`.  The profiles of the subscriptions are known by their names and
addresses.  Doubles are deleted; each of the others is taken for obsolete until a document has it.  A document's profile
revives the one with its name and address, or is created.  What was touched is written back at the end.

The profiles are objects that are changed in place: `objects` has them by the ids of their rows.
-/
namespace Riddles

/-- What a profile of a subscription is known by. -/
def Profile.key (p : Profile) : Option Text × Text := (p.name, p.formattedAddress)

namespace ProfileTable

/-- `check(delete(id) == 1)`. -/
def delProfile (table : ProfileTable) (id : Nat) : Except Thrown ProfileTable :=
  if table.rows.countP (fun p => p.id = id) = 1 then
    .ok
      { rows        := table.rows.filter (fun p => p.id ≠ id)
        ids_nodup   := table.ids_nodup.sublist (List.filter_sublist.map Profile.id)
        ids_ne_zero := fun p hp => table.ids_ne_zero p (List.mem_of_mem_filter hp) }
  else .error (.illegalState "Check failed.".toList)

end ProfileTable

namespace SubscriptionService

/-- The table, the id of the current profile, and the local variables. -/
structure Update where
  table         : ProfileTable
  profileId     : Nat
  objects       : Nat → Profile
  subscriptions : LinkedMap (Option Text × Text) Nat
  toUpdate      : List Nat

namespace Update

def setObject (s : Update) (id : Nat) (p : Profile) : Update :=
  { s with objects := fun i => if i = id then p else s.objects i }

def mark (s : Update) (id : Nat) : Update := { s with toUpdate := id :: s.toUpdate }

end Update

/-- The preprocessing phase, one profile. -/
def preprocess (currentId : Nat) (s : Update) (profile : Profile) : Except Thrown Update :=
  if profile.subscription = .userConfigured then .ok s
  else
    match s.subscriptions.get profile.key with
    | some _ =>
      match s.table.delProfile profile.id with
      | .error e  => .error e
      | .ok table => .ok { s with table := table, profileId := if currentId = profile.id then 0 else s.profileId }
    | none =>
      let s := { s with subscriptions := s.subscriptions.put profile.key profile.id }
      if profile.subscription = .active then
        .ok ((s.setObject profile.id { profile with subscription := .obsolete }).mark profile.id)
      else .ok s

/-- `ProfileManager.createProfile`, for a name and address that no profile has. -/
def added (dao : Dao) (s : Update) (p : Profile) : Profile × Update :=
  let row := s.table.inserted dao { p with subscription := .active }
  (row,
    { s.setObject row.id row with
      table         := s.table.createProfile dao { p with subscription := .active }
      subscriptions := s.subscriptions.put p.key row.id })

/-- An obsolete profile that a document has again. -/
def revived (old p : Profile) : Profile :=
  { old with
    password     := p.password
    method       := p.method
    plugin       := p.plugin
    udpFallback  := p.udpFallback
    subscription := .active }

/-- The block that is passed to `parseJson`. -/
def importer (dao : Dao) : Importer Update where
  rows s     := s.table.rows
  create s p :=
    match s.subscriptions.get p.key with
    | none   => added dao s p
    | some i =>
      match (s.objects i).subscription with
      | .active         => (s.objects i, s)
      | .obsolete       => (revived (s.objects i) p, (s.setObject i (revived (s.objects i) p)).mark i)
      | .userConfigured => added dao s p
  link s p id :=
    match s.table.updateProfile { s.objects p.id with udpFallback := some id } with
    | .error e  => .error e
    | .ok table => .ok { s.setObject p.id { s.objects p.id with udpFallback := some id } with table := table }

/-- The documents; an exception is shown and then forgotten. -/
def importAll (dao : Dao) (runtime : Runtime) (feature : Option Profile) (documents : List Importer.Document)
    (s : Update) : Update :=
  documents.foldl (fun s document => ((importer dao).parseJson runtime feature document s).1) s

def writeBack (s : Update) (profiles : List Profile) : Except Thrown ProfileTable :=
  profiles.foldlM (fun table p => if p.id ∈ s.toUpdate then table.updateProfile (s.objects p.id) else .ok table) s.table

def start (table : ProfileTable) (profileId : Nat) : Update :=
  ⟨table, profileId, fun i => (table.getProfile i).getD {}, .empty, []⟩

/-- With the table that is left and the id of the current profile. -/
def createProfilesFromSubscription (dao : Dao) (runtime : Runtime) (documents : List Importer.Document)
    (profileId : Nat) (table : ProfileTable) : Except Thrown (ProfileTable × Nat) :=
  match table.rows.foldlM (preprocess profileId) (start table profileId) with
  | .error e => .error e
  | .ok s    =>
    let s := importAll dao runtime (table.getProfile profileId) documents s
    (writeBack s table.rows).map (fun table => (table, s.profileId))

/-! ## What becomes of a name and address -/

def Subscribed (p : Profile) : Prop := p.subscription ≠ .userConfigured

instance (p : Profile) : Decidable (Subscribed p) := inferInstanceAs (Decidable (p.subscription ≠ .userConfigured))

/-- The profile of a name and address: the first one. -/
def oldAt (rows : List Profile) (key : Option Text × Text) : Option Profile :=
  rows.find? (fun p => Subscribed p ∧ p.key = key)

/-- The first profile of a name and address that was given to `create`. -/
def madeAt (made : List Profile) (key : Option Text × Text) : Option Profile := made.find? (fun p => p.key = key)

/-- What a profile becomes that was in the table, or in a document, or both. -/
inductive Outcome : Option Profile → Option Profile → Profile → Prop where
  | vanished (old : Profile) : Outcome (some old) none { old with subscription := .obsolete }
  | updated (old p : Profile) (fallback : Option Nat) : Outcome (some old) (some p)
      { old with
        password := p.password, method := p.method, plugin := p.plugin, udpFallback := fallback, subscription := .active }
  | added (p : Profile) (id userOrder : Nat) (fallback : Option Nat) : Outcome none (some p)
      { p with id := id, userOrder := userOrder, udpFallback := fallback, subscription := .active }

section
variable {old made : Option Profile} {p : Profile}

theorem Outcome.subscribed (h : Outcome old made p) : Subscribed p := by
  cases h <;> simp [Subscribed]

theorem Outcome.active_iff (h : Outcome old made p) : p.subscription = .active ↔ made ≠ none := by
  cases h <;> simp

theorem Outcome.link (h : Outcome old made p) (hactive : p.subscription = .active) (fallback : Option Nat) :
    Outcome old made { p with udpFallback := fallback } := by
  cases h with
  | vanished old => cases hactive
  | updated old p _ => exact .updated old p fallback
  | added p id userOrder _ => exact .added p id userOrder fallback

/-- **An obsolete profile is revived.** -/
theorem Outcome.revive (h : Outcome old made p) (hobsolete : p.subscription = .obsolete) (q : Profile) :
    made = none ∧ Outcome old (some q) (revived p q) ∧ ∃ r, old = some r ∧ p.id = r.id := by
  cases h with
  | vanished old => exact ⟨rfl, .updated old q q.udpFallback, old, rfl, rfl⟩
  | updated old p _ => cases hobsolete
  | added p id userOrder _ => cases hobsolete

end

theorem madeAt_snoc (made : List Profile) (p : Profile) (key : Option Text × Text) :
    madeAt (made ++ [p]) key = (madeAt made key).or (if p.key = key then some p else none) := by
  unfold madeAt
  rw [List.find?_append, List.find?_singleton]
  simp

theorem madeAt_snoc_of_ne (made : List Profile) {p : Profile} {key : Option Text × Text} (h : p.key ≠ key) :
    madeAt (made ++ [p]) key = madeAt made key := by
  rw [madeAt_snoc, if_neg h, Option.or_none]

theorem madeAt_snoc_of_some {made : List Profile} (p : Profile) {key : Option Text × Text} (h : madeAt made key ≠ none) :
    madeAt (made ++ [p]) key = madeAt made key := by
  obtain ⟨q, hq⟩ := Option.ne_none_iff_exists'.1 h
  rw [madeAt_snoc, hq, Option.some_or]

/-! ## While the documents are read -/

theorem mem_update {table : ProfileTable} {o p : Profile} :
    p ∈ (table.update o).rows ↔ (p ∈ table.rows ∧ p.id ≠ o.id) ∨ (p = o ∧ o.id ∈ table.rows.map Profile.id) := by
  show p ∈ table.rows.map _ ↔ _
  rw [List.mem_map, List.mem_map]
  constructor
  · rintro ⟨q, hq, rfl⟩
    by_cases hid : q.id = o.id
    · rw [if_pos hid]
      exact .inr ⟨rfl, q, hq, hid⟩
    · rw [if_neg hid]
      exact .inl ⟨hq, hid⟩
  · rintro (⟨hp, hid⟩ | ⟨rfl, q, hq, hid⟩)
    · exact ⟨p, hp, if_neg hid⟩
    · exact ⟨q, hq, if_pos hid⟩

/-- The object of a row, and what it became. -/
structure Sits (table : ProfileTable) (made : List Profile) (key : Option Text × Text) (i : Nat) (o : Profile) : Prop where
  id      : o.id = i
  named   : o.key = key
  outcome : Outcome (oldAt table.rows key) (madeAt made key) o

theorem Sits.of_ne {table : ProfileTable} {made : List Profile} {key : Option Text × Text} {i : Nat} {o p : Profile}
    (h : Sits table made key i o) (hne : p.key ≠ key) : Sits table (made ++ [p]) key i o :=
  ⟨h.id, h.named, madeAt_snoc_of_ne made hne ▸ h.outcome⟩

/-- What holds of the profiles of the subscriptions: `table` is the table at the start, and `made` what was given to `create`
so far. -/
structure Inv (table : ProfileTable) (current : Nat) (s : Update) (made : List Profile) : Prop where
  users   : ∀ p, ¬ Subscribed p → (p ∈ s.table.rows ↔ p ∈ table.rows)
  keyed   : ∀ p ∈ s.table.rows, Subscribed p → s.subscriptions.get p.key = some p.id
  stored  : ∀ key i, s.subscriptions.get key = some i →
    ∃ p ∈ s.table.rows, p.id = i ∧ Subscribed p ∧ (p = s.objects i ∨ i ∈ s.toUpdate)
  object  : ∀ key i, s.subscriptions.get key = some i → Sits table made key i (s.objects i)
  missing : ∀ key, s.subscriptions.get key = none → oldAt table.rows key = none ∧ madeAt made key = none
  marked  : ∀ i ∈ s.toUpdate, (∃ key, s.subscriptions.get key = some i) ∧ i ∈ table.rows.map Profile.id
  current : s.profileId = current

/-- The profiles that a document has. -/
def Known (s : Update) (i : Nat) : Prop :=
  ∃ key, s.subscriptions.get key = some i ∧ (s.objects i).subscription = .active

section
variable {table : ProfileTable} {current : Nat} {s : Update} {made : List Profile}

theorem Inv.key_eq (h : Inv table current s made) {key key' : Option Text × Text} {i : Nat}
    (hkey : s.subscriptions.get key = some i) (hkey' : s.subscriptions.get key' = some i) : key = key' :=
  (h.object key i hkey).named.symm.trans (h.object key' i hkey').named

theorem Inv.mem_ids (h : Inv table current s made) {key : Option Text × Text} {i : Nat}
    (hkey : s.subscriptions.get key = some i) : i ∈ s.table.rows.map Profile.id := by
  obtain ⟨p, hp, hid, -⟩ := h.stored key i hkey
  exact List.mem_map.2 ⟨p, hp, hid⟩

/-- **No row of the user has the id of a subscription's profile.** -/
theorem Inv.id_ne (h : Inv table current s made) {key : Option Text × Text} {i : Nat}
    (hkey : s.subscriptions.get key = some i) {p : Profile} (hp : p ∈ s.table.rows) (huser : ¬ Subscribed p) : p.id ≠ i := by
  obtain ⟨q, hq, hid, hsub, -⟩ := h.stored key i hkey
  intro hpi
  rw [ProfileTable.eq_of_id_eq hp hq (hpi.trans hid.symm)] at huser
  exact huser hsub

/-- What `added` does: `row` is the new object of `p`. -/
structure Adds (s : Update) (p row : Profile) (t : Update) : Prop where
  rows      : t.table.rows = s.table.rows ++ [row]
  get       : ∀ key, t.subscriptions.get key = if key = p.key then some row.id else s.subscriptions.get key
  objects   : ∀ i, t.objects i = if i = row.id then row else s.objects i
  toUpdate  : t.toUpdate = s.toUpdate
  profileId : t.profileId = s.profileId
  fresh     : ∀ q ∈ s.table.rows, q.id ≠ row.id
  named     : row.key = p.key
  active    : row.subscription = .active
  outcome   : Outcome none (some p) row

theorem adds_added (dao : Dao) (s : Update) (p : Profile) : Adds s p (added dao s p).1 (added dao s p).2 where
  rows      := rfl
  get       := fun _ => LinkedMap.get_put
  objects   := fun _ => rfl
  toUpdate  := rfl
  profileId := rfl
  fresh     := dao.fresh s.table
  named     := rfl
  active    := rfl
  outcome   := .added p _ _ p.udpFallback

section
variable {p row : Profile} {t : Update}

/-- The profiles that were there stay as they are. -/
theorem Adds.other (ha : Adds s p row t) (h : Inv table current s made) (hkey : s.subscriptions.get p.key = none)
    {key : Option Text × Text} {i : Nat} (hi : s.subscriptions.get key = some i) :
    key ≠ p.key ∧ t.objects i = s.objects i := by
  obtain ⟨q, hq, hid, -⟩ := h.stored key i hi
  refine ⟨?_, by rw [ha.objects, if_neg (hid ▸ ha.fresh q hq)]⟩
  rintro rfl
  rw [hkey] at hi
  cases hi

theorem Adds.known (ha : Adds s p row t) : Known t row.id :=
  ⟨p.key, by rw [ha.get, if_pos rfl], by rw [ha.objects, if_pos rfl, ha.active]⟩

theorem Adds.still_known (ha : Adds s p row t) (h : Inv table current s made) (hkey : s.subscriptions.get p.key = none)
    {i : Nat} (hknown : Known s i) : Known t i := by
  obtain ⟨key, hi, hstatus⟩ := hknown
  obtain ⟨hne, hsame⟩ := ha.other h hkey hi
  exact ⟨key, by rw [ha.get, if_neg hne, hi], by rw [hsame, hstatus]⟩

theorem Adds.users (ha : Adds s p row t) {q : Profile} (huser : ¬ Subscribed q) : q ∈ t.table.rows ↔ q ∈ s.table.rows := by
  rw [ha.rows, List.mem_append, List.mem_singleton]
  refine ⟨fun hq => hq.resolve_right ?_, .inl⟩
  rintro rfl
  exact huser ha.outcome.subscribed

theorem Adds.keyed (ha : Adds s p row t) (h : Inv table current s made) (hkey : s.subscriptions.get p.key = none)
    {q : Profile} (hq : q ∈ t.table.rows) (hsub : Subscribed q) : t.subscriptions.get q.key = some q.id := by
  rw [ha.rows, List.mem_append, List.mem_singleton] at hq
  rcases hq with hq | rfl
  · have hold := h.keyed q hq hsub
    rw [ha.get, if_neg (ha.other h hkey hold).1, hold]
  · rw [ha.get, if_pos ha.named]

/-- **The new row sits at its name and address.** -/
theorem Adds.sits (ha : Adds s p row t) (h : Inv table current s made) (hkey : s.subscriptions.get p.key = none) :
    Sits table (made ++ [p]) p.key row.id row := by
  obtain ⟨hold, hmade⟩ := h.missing p.key hkey
  refine ⟨rfl, ha.named, ?_⟩
  rw [hold, madeAt_snoc, hmade, if_pos rfl]
  exact ha.outcome

theorem Adds.inv (ha : Adds s p row t) (h : Inv table current s made) (hkey : s.subscriptions.get p.key = none) :
    Inv table current t (made ++ [p]) := by
  -- a name and address is that of the new row, or was there before
  have hcases : ∀ {key i}, t.subscriptions.get key = some i →
      (key = p.key ∧ row.id = i) ∨ (key ≠ p.key ∧ s.subscriptions.get key = some i) := by
    intro key i hi
    rw [ha.get] at hi
    split at hi
    · rename_i heq
      exact .inl ⟨heq, Option.some.inj hi⟩
    · rename_i hne
      exact .inr ⟨hne, hi⟩
  refine ⟨fun q huser => (ha.users huser).trans (h.users q huser), fun q => ha.keyed h hkey, ?_, ?_, ?_, ?_,
    ha.profileId.trans h.current⟩
  · intro key i hi
    rcases hcases hi with ⟨-, rfl⟩ | ⟨-, hi⟩
    · refine ⟨row, by simp [ha.rows], rfl, ha.outcome.subscribed, .inl ?_⟩
      rw [ha.objects, if_pos rfl]
    · obtain ⟨q, hq, hid, hsub, hstate⟩ := h.stored key i hi
      refine ⟨q, by simp [ha.rows, hq], hid, hsub, ?_⟩
      rw [(ha.other h hkey hi).2, ha.toUpdate]
      exact hstate
  · intro key i hi
    rcases hcases hi with ⟨rfl, rfl⟩ | ⟨hne, hi⟩
    · rw [ha.objects, if_pos rfl]
      exact ha.sits h hkey
    · rw [(ha.other h hkey hi).2]
      exact (h.object key i hi).of_ne (Ne.symm hne)
  · intro key hnone
    rw [ha.get] at hnone
    split at hnone
    · cases hnone
    · rename_i hne
      rw [madeAt_snoc_of_ne made (Ne.symm hne)]
      exact h.missing key hnone
  · intro i hi
    rw [ha.toUpdate] at hi
    obtain ⟨⟨key, hi'⟩, hid⟩ := h.marked i hi
    exact ⟨⟨key, by rw [ha.get, if_neg (ha.other h hkey hi').1, hi']⟩, hid⟩

end

/-- **A profile that a document has again is revived.** -/
theorem inv_revived (h : Inv table current s made) {p : Profile} {i : Nat} (hkey : s.subscriptions.get p.key = some i)
    (hobsolete : (s.objects i).subscription = .obsolete) :
    Inv table current ((s.setObject i (revived (s.objects i) p)).mark i) (made ++ [p]) := by
  obtain ⟨hid, hobject, houtcome⟩ := h.object p.key i hkey
  obtain ⟨hmade, hrevived, r, hold, hr⟩ := houtcome.revive hobsolete p
  have hother : ∀ {key j}, key ≠ p.key → s.subscriptions.get key = some j → j ≠ i := by
    rintro key j hne hj rfl
    exact hne (h.key_eq hj hkey)
  have hmem : i ∈ table.rows.map Profile.id :=
    List.mem_map.2 ⟨r, List.mem_of_find?_eq_some hold, hr.symm.trans hid⟩
  refine ⟨h.users, h.keyed, ?_, ?_, ?_, ?_, h.current⟩
  · intro key j hj
    obtain ⟨q, hq, hqid, hsub, hstate⟩ := h.stored key j hj
    refine ⟨q, hq, hqid, hsub, ?_⟩
    by_cases hji : j = i
    · exact .inr (hji ▸ List.mem_cons_self)
    · refine hstate.imp (fun heq => ?_) (List.mem_cons_of_mem i)
      exact heq.trans (if_neg hji).symm
  · intro key j hj
    show Sits table (made ++ [p]) key j (if j = i then revived (s.objects i) p else s.objects j)
    by_cases hkeys : key = p.key
    · have hji : j = i := Option.some.inj ((hkeys ▸ hj).symm.trans hkey)
      have hsome : madeAt (made ++ [p]) p.key = some p := by rw [madeAt_snoc, hmade, if_pos rfl, Option.none_or]
      rw [if_pos hji, hkeys, hji]
      exact ⟨hid, hobject, hsome ▸ hrevived⟩
    · rw [if_neg (hother hkeys hj)]
      exact (h.object key j hj).of_ne (Ne.symm hkeys)
  · intro key hnone
    have hne : p.key ≠ key := by
      rintro rfl
      rw [show s.subscriptions.get p.key = none from hnone] at hkey
      cases hkey
    rw [madeAt_snoc_of_ne made hne]
    exact h.missing key hnone
  · intro j hj
    rcases List.mem_cons.1 hj with rfl | hj
    · exact ⟨⟨p.key, hkey⟩, hmem⟩
    · exact h.marked j hj

theorem Inv.again (h : Inv table current s made) {p : Profile} {i : Nat} (hkey : s.subscriptions.get p.key = some i)
    (hactive : (s.objects i).subscription = .active) : Inv table current s (made ++ [p]) := by
  have hmade : madeAt made p.key ≠ none := (h.object p.key i hkey).outcome.active_iff.1 hactive
  have hsame : ∀ key, madeAt (made ++ [p]) key = madeAt made key := by
    intro key
    by_cases heq : p.key = key
    · exact heq ▸ madeAt_snoc_of_some p hmade
    · exact madeAt_snoc_of_ne made heq
  refine ⟨h.users, h.keyed, h.stored, fun key j hj => ?_, fun key hnone => ?_, h.marked, h.current⟩
  · have hsits := h.object key j hj
    exact ⟨hsits.id, hsits.named, hsame key ▸ hsits.outcome⟩
  · rw [hsame]
    exact h.missing key hnone

theorem inv_link (h : Inv table current s made) {i : Nat} (hknown : Known s i) (fallback : Option Nat) :
    Inv table current
      { s.setObject i { s.objects i with udpFallback := fallback } with
        table := s.table.update { s.objects i with udpFallback := fallback } } made := by
  obtain ⟨key, hkey, hactive⟩ := hknown
  obtain ⟨hid, hobject, houtcome⟩ := h.object key i hkey
  have hlinked := houtcome.link hactive fallback
  have hmem := h.mem_ids hkey
  -- the object, with the id of its row
  obtain ⟨o, ho, hsits⟩ : ∃ o, o = { s.objects i with udpFallback := fallback } ∧ Sits table made key i o :=
    ⟨{ s.objects i with udpFallback := fallback }, rfl, hid, hobject, hlinked⟩
  rw [← ho]
  have hrows : ∀ {p}, p ∈ (s.table.update o).rows ↔ (p ∈ s.table.rows ∧ p.id ≠ i) ∨ p = o := by
    intro p
    rw [mem_update, hsits.id]
    exact or_congr_right (and_iff_left hmem)
  refine ⟨?_, ?_, ?_, ?_, h.missing, h.marked, h.current⟩
  · intro p huser
    show p ∈ (s.table.update o).rows ↔ _
    rw [hrows, ← h.users p huser]
    constructor
    · rintro (⟨hp, -⟩ | rfl)
      · exact hp
      · exact absurd hsits.outcome.subscribed huser
    · exact fun hp => .inl ⟨hp, h.id_ne hkey hp huser⟩
  · intro p hp hsub
    rcases hrows.1 hp with ⟨hp, -⟩ | rfl
    · exact h.keyed p hp hsub
    · rw [hsits.named, hsits.id]
      exact hkey
  · intro key' j hj
    by_cases hji : j = i
    · exact ⟨o, hrows.2 (.inr rfl), hsits.id.trans hji.symm, hsits.outcome.subscribed, .inl (if_pos hji).symm⟩
    · obtain ⟨q, hq, hqid, hsub, hstate⟩ := h.stored key' j hj
      refine ⟨q, hrows.2 (.inl ⟨hq, fun heq => hji (hqid.symm.trans heq)⟩), hqid, hsub, hstate.imp_left (fun heq => ?_)⟩
      exact heq.trans (if_neg hji).symm
  · intro key' j hj
    show Sits table made key' j (if j = i then o else s.objects j)
    by_cases hji : j = i
    · rw [if_pos hji, hji, h.key_eq (hji ▸ hj : s.subscriptions.get key' = some i) hkey]
      exact hsits
    · rw [if_neg hji]
      exact h.object key' j hj

theorem inv_create (dao : Dao) (h : Inv table current s made) (p : Profile) :
    Inv table current ((importer dao).create s p).2 (made ++ [p]) ∧
      Known ((importer dao).create s p).2 ((importer dao).create s p).1.id ∧
      ∀ i, Known s i → Known ((importer dao).create s p).2 i := by
  cases hkey : s.subscriptions.get p.key with
  | none =>
    have hcreate : (importer dao).create s p = added dao s p := by simp only [importer, hkey]
    have hadds := adds_added dao s p
    rw [hcreate]
    exact ⟨hadds.inv h hkey, hadds.known, fun _ => hadds.still_known h hkey⟩
  | some i =>
    have hsits := h.object p.key i hkey
    cases hstatus : (s.objects i).subscription with
    | userConfigured => exact absurd hstatus hsits.outcome.subscribed
    | active =>
      have hcreate : (importer dao).create s p = (s.objects i, s) := by simp only [importer, hkey, hstatus]
      rw [hcreate]
      refine ⟨h.again hkey hstatus, ?_, fun _ hj => hj⟩
      rw [hsits.id]
      exact ⟨p.key, hkey, hstatus⟩
    | obsolete =>
      have hcreate : (importer dao).create s p =
          (revived (s.objects i) p, (s.setObject i (revived (s.objects i) p)).mark i) := by
        simp only [importer, hkey, hstatus]
      rw [hcreate]
      refine ⟨inv_revived h hkey hstatus, ⟨p.key, ?_, ?_⟩, ?_⟩
      · exact hkey.trans (congrArg some hsits.id.symm)
      · show (if (s.objects i).id = i then revived (s.objects i) p else s.objects (s.objects i).id).subscription = .active
        rw [if_pos hsits.id]
        rfl
      · rintro j ⟨key, hj, hactive⟩
        refine ⟨key, hj, ?_⟩
        show (if j = i then revived (s.objects i) p else s.objects j).subscription = .active
        split
        · rfl
        · exact hactive

theorem lawful_importer (dao : Dao) (table : ProfileTable) (current : Nat) :
    (importer dao).Lawful (Inv table current) Known where
  create_inv p h      := (inv_create dao h p).1
  create_new p h      := (inv_create dao h p).2.1
  create_kept p h hi  := (inv_create dao h p).2.2 _ hi
  link_ok {s made p} id h hknown := by
    obtain ⟨key, hkey, hactive⟩ := hknown
    have hid : ({ s.objects p.id with udpFallback := some id } : Profile).id ∈ s.table.rows.map Profile.id := by
      show (s.objects p.id).id ∈ _
      rw [(h.object key p.id hkey).id]
      exact h.mem_ids hkey
    refine ⟨_, ?_, inv_link h ⟨key, hkey, hactive⟩ (some id), ?_⟩
    · simp only [importer, ProfileManager.updateProfile_ok hid]
    · rintro i ⟨key', hi, hactive'⟩
      refine ⟨key', hi, ?_⟩
      show (if i = p.id then { s.objects p.id with udpFallback := some id } else s.objects i).subscription = .active
      split
      · exact hactive
      · exact hactive'

/-- What a list of documents makes: the profiles of those that are read, in their order, and some of their fallbacks. -/
inductive MadeOf : List JsonParser → List Profile → Prop where
  | nil : MadeOf [] []
  | cons {parser : JsonParser} {parsers : List JsonParser} {more made : List Profile}
      (hmore : ∀ f ∈ more, ∃ e ∈ parser.fallbackMap.entries, e.2 = f) (hrest : MadeOf parsers made) :
      MadeOf (parser :: parsers) (parser.profiles ++ more ++ made)

def parsers (runtime : Runtime) (feature : Option Profile) (documents : List Importer.Document) : List JsonParser :=
  documents.filterMap (fun document => (Importer.read runtime feature document).toOption)

theorem inv_importAll (dao : Dao) (runtime : Runtime) (feature : Option Profile) :
    ∀ (documents : List Importer.Document) {s : Update} {made : List Profile}, Inv table current s made →
      ∃ more, Inv table current (importAll dao runtime feature documents s) (made ++ more) ∧
        MadeOf (parsers runtime feature documents) more
  | [], s, made, h => ⟨[], by rwa [List.append_nil], .nil⟩
  | document :: documents, s, made, h => by
    have hcons : importAll dao runtime feature (document :: documents) s =
        importAll dao runtime feature documents ((importer dao).parseJson runtime feature document s).1 := rfl
    rw [hcons]
    cases hread : Importer.read runtime feature document with
    | error e =>
      obtain ⟨more, hinv, hmade⟩ := inv_importAll dao runtime feature documents h
      rw [Importer.parseJson_of_error hread]
      refine ⟨more, hinv, ?_⟩
      rwa [parsers, List.filterMap_cons_none (by rw [hread]; rfl)]
    | ok parser =>
      obtain ⟨-, fallbacks, hinv, hfallbacks⟩ := (lawful_importer dao table current).parseJson hread h
      obtain ⟨more, hinv, hmade⟩ := inv_importAll dao runtime feature documents hinv
      rw [List.append_assoc] at hinv
      refine ⟨parser.profiles ++ fallbacks ++ more, hinv, ?_⟩
      rw [parsers, List.filterMap_cons_some (by rw [hread]; rfl)]
      exact .cons hfallbacks hmade

end

/-! ## Before the documents are read -/

/-- A profile with the name and address of another before it. -/
def Double (rows : List Profile) (p : Profile) : Prop := Subscribed p ∧ oldAt rows p.key ≠ some p

instance (rows : List Profile) (p : Profile) : Decidable (Double rows p) :=
  inferInstanceAs (Decidable (Subscribed p ∧ oldAt rows p.key ≠ some p))

theorem oldAt_snoc (pre : List Profile) (p : Profile) (key : Option Text × Text) :
    oldAt (pre ++ [p]) key = (oldAt pre key).or (if Subscribed p ∧ p.key = key then some p else none) := by
  unfold oldAt
  rw [List.find?_append, List.find?_singleton]
  simp

theorem oldAt_eq_some {rows : List Profile} {key : Option Text × Text} {p : Profile} (h : oldAt rows key = some p) :
    p ∈ rows ∧ Subscribed p ∧ p.key = key := by
  have hfound := List.find?_some h
  exact ⟨List.mem_of_find?_eq_some h, of_decide_eq_true hfound⟩

/-- What the preprocessing phase has made of the rows `pre`. -/
structure Prep (table : ProfileTable) (current : Nat) (pre : List Profile) (s : Update) : Prop where
  rows     : ∀ p, p ∈ s.table.rows ↔ p ∈ table.rows ∧ (p ∈ pre → ¬ Double table.rows p)
  subs     : ∀ key, s.subscriptions.get key = (oldAt pre key).map Profile.id
  objects  : ∀ key p, oldAt pre key = some p → s.objects p.id = { p with subscription := .obsolete }
  fresh    : ∀ p ∈ table.rows, p ∉ pre → s.objects p.id = p
  toUpdate : ∀ i, i ∈ s.toUpdate ↔ ∃ key p, oldAt pre key = some p ∧ p.subscription = .active ∧ p.id = i
  current  : s.profileId = if pre.any (fun p => p.id = current ∧ Double table.rows p) then 0 else current

section
variable {table : ProfileTable} {current : Nat} {pre post : List Profile} {p : Profile} {s : Update}

theorem prep_start (table : ProfileTable) (current : Nat) : Prep table current [] (start table current) where
  rows p       := by simp [start]
  subs key     := rfl
  objects      := by simp [oldAt]
  fresh p hp _ := by
    have hget : table.getProfile p.id = some p := by
      have hsome : (table.getProfile p.id).isSome := List.find?_isSome.2 ⟨p, hp, beq_self_eq_true p.id⟩
      obtain ⟨q, hq⟩ := Option.isSome_iff_exists.1 hsome
      obtain ⟨hmem, hid⟩ := ProfileTable.getProfile_eq_some hq
      rw [hq, ProfileTable.eq_of_id_eq hmem hp hid]
    simp [start, hget]
  toUpdate     := by simp [start, oldAt]
  current      := rfl

theorem mem_of_split (hsplit : table.rows = pre ++ p :: post) : p ∈ table.rows :=
  hsplit ▸ List.mem_append_right pre List.mem_cons_self

theorem notMem_of_split (hsplit : table.rows = pre ++ p :: post) : p ∉ pre := by
  have hnodup : (pre ++ p :: post).Nodup := hsplit ▸ table.ids_nodup.of_map
  exact fun hmem => (List.nodup_append.1 hnodup).2.2 p hmem p List.mem_cons_self rfl

/-- **A profile is a double if one with its name and address came before.** -/
theorem double_iff (hsplit : table.rows = pre ++ p :: post) :
    Double table.rows p ↔ Subscribed p ∧ oldAt pre p.key ≠ none := by
  refine and_congr_right (fun hsub => not_congr ?_)
  have hold : oldAt table.rows p.key = (oldAt pre p.key).or (some p) := by
    unfold oldAt
    rw [hsplit, List.find?_append, List.find?_cons_of_pos (by simpa using hsub)]
  rw [hold]
  cases hpre : oldAt pre p.key with
  | none => simp
  | some q =>
    simp only [Option.some_or, Option.some.injEq, reduceCtorEq, iff_false]
    rintro rfl
    exact notMem_of_split hsplit (oldAt_eq_some hpre).1

theorem Prep.rows_snoc (h : Prep table current pre s) {t : Update}
    (ht : ∀ q, q ∈ t.table.rows ↔ q ∈ s.table.rows ∧ (q = p → ¬ Double table.rows p)) :
    ∀ q, q ∈ t.table.rows ↔ q ∈ table.rows ∧ (q ∈ pre ++ [p] → ¬ Double table.rows q) := by
  intro q
  rw [ht, h.rows, and_assoc]
  refine and_congr_right (fun _ => ?_)
  rw [List.mem_append, List.mem_singleton]
  constructor
  · rintro ⟨hpre, hp⟩ (hq | rfl)
    · exact hpre hq
    · exact hp rfl
  · exact fun hq => ⟨fun hmem => hq (.inl hmem), fun heq => heq ▸ hq (.inr heq)⟩

theorem Prep.current_snoc (h : Prep table current pre s) (hnot : ¬ Double table.rows p) :
    s.profileId = if (pre ++ [p]).any (fun p => p.id = current ∧ Double table.rows p) then 0 else current := by
  rw [h.current]
  simp [hnot]

/-- A row that brings no new name and address leaves those that were found. -/
theorem oldAt_snoc_same (h : Subscribed p → oldAt pre p.key ≠ none) (key : Option Text × Text) :
    oldAt (pre ++ [p]) key = oldAt pre key := by
  rw [oldAt_snoc]
  by_cases hkey : Subscribed p ∧ p.key = key
  · obtain ⟨q, hq⟩ := Option.ne_none_iff_exists'.1 (h hkey.1)
    rw [← hkey.2, hq, Option.some_or]
  · rw [if_neg hkey, Option.or_none]

/-- A row that brings one is found there. -/
theorem oldAt_snoc_first (hsub : Subscribed p) (hnone : oldAt pre p.key = none) (key : Option Text × Text) :
    oldAt (pre ++ [p]) key = if key = p.key then some p else oldAt pre key := by
  rw [oldAt_snoc]
  by_cases hkey : key = p.key
  · rw [if_pos hkey, if_pos ⟨hsub, hkey.symm⟩, hkey, hnone, Option.none_or]
  · rw [if_neg hkey, if_neg (fun hboth => hkey hboth.2.symm), Option.or_none]

theorem prep_user (h : Prep table current pre s) (huser : ¬ Subscribed p) :
    Prep table current (pre ++ [p]) s := by
  have hnot : ¬ Double table.rows p := fun hdouble => huser hdouble.1
  have hsame : ∀ key, oldAt (pre ++ [p]) key = oldAt pre key := oldAt_snoc_same (fun hsub => absurd hsub huser)
  have hrows : ∀ q, q ∈ s.table.rows ↔ q ∈ s.table.rows ∧ (q = p → ¬ Double table.rows p) := by simp [hnot]
  refine ⟨h.rows_snoc hrows, ?_, ?_, ?_, ?_, h.current_snoc hnot⟩
  · simpa only [hsame] using h.subs
  · simpa only [hsame] using h.objects
  · exact fun q hq hmem => h.fresh q hq (fun hpre => hmem (List.mem_append_left _ hpre))
  · simpa only [hsame] using h.toUpdate

/-- **A double is deleted**, and the current profile is none if it was that one. -/
theorem prep_double (hsplit : table.rows = pre ++ p :: post) (h : Prep table current pre s) (hdouble : Double table.rows p) :
    ∃ t, s.table.delProfile p.id = .ok t ∧
      Prep table current (pre ++ [p])
        { s with table := t, profileId := if current = p.id then 0 else s.profileId } := by
  have hmem := mem_of_split hsplit
  have hrow : p ∈ s.table.rows := (h.rows p).2 ⟨hmem, fun hpre => absurd hpre (notMem_of_split hsplit)⟩
  have hsame : ∀ key, oldAt (pre ++ [p]) key = oldAt pre key :=
    oldAt_snoc_same (fun _ => ((double_iff hsplit).1 hdouble).2)
  refine ⟨_, if_pos (ServerBean.countP_id hrow), ?_, ?_, ?_, ?_, ?_, ?_⟩
  · apply h.rows_snoc
    intro q
    rw [List.mem_filter]
    refine and_congr_right (fun hq => ?_)
    simp only [hdouble, not_true_eq_false, imp_false, decide_eq_true_eq]
    exact not_congr ⟨ProfileTable.eq_of_id_eq hq hrow, congrArg Profile.id⟩
  · simpa only [hsame] using h.subs
  · simpa only [hsame] using h.objects
  · exact fun q hq hmem => h.fresh q hq (fun hpre => hmem (List.mem_append_left _ hpre))
  · simpa only [hsame] using h.toUpdate
  · rw [h.current]
    by_cases hid : current = p.id
    · simp [hid, hdouble]
    · simp [hid, Ne.symm hid]

/-- **The first profile of a name and address is obsolete until a document has it.** -/
theorem prep_first (hsplit : table.rows = pre ++ p :: post) (h : Prep table current pre s) (hsub : Subscribed p)
    (hnone : oldAt pre p.key = none) {t : Update} (htable : t.table = s.table) (hprofileId : t.profileId = s.profileId)
    (hsubs : t.subscriptions = s.subscriptions.put p.key p.id)
    (hobjects : ∀ i, t.objects i = if i = p.id then { p with subscription := .obsolete } else s.objects i)
    (htoUpdate : ∀ i, i ∈ t.toUpdate ↔ i ∈ s.toUpdate ∨ p.subscription = .active ∧ i = p.id) :
    Prep table current (pre ++ [p]) t := by
  have hnot : ¬ Double table.rows p := fun hdouble => ((double_iff hsplit).1 hdouble).2 hnone
  have hmem := mem_of_split hsplit
  have hold := oldAt_snoc_first hsub hnone
  -- the profiles that were found before have other ids
  have hother : ∀ {q : Profile}, q ∈ pre → q.id ≠ p.id := by
    intro q hq hid
    have hqmem : q ∈ table.rows := hsplit ▸ List.mem_append_left _ hq
    exact notMem_of_split hsplit (ProfileTable.eq_of_id_eq hqmem hmem hid ▸ hq)
  refine ⟨?_, ?_, ?_, ?_, ?_, hprofileId.trans (h.current_snoc hnot)⟩
  · apply h.rows_snoc
    intro q
    rw [htable]
    simp [hnot]
  · intro key
    rw [hsubs, LinkedMap.get_put, hold, h.subs]
    split <;> rfl
  · intro key q hq
    rw [hold] at hq
    rw [hobjects]
    split at hq
    · cases hq
      exact if_pos rfl
    · rw [if_neg (hother (oldAt_eq_some hq).1)]
      exact h.objects key q hq
  · intro q hq hnotMem
    rw [List.mem_append, not_or, List.mem_singleton] at hnotMem
    have hid : q.id ≠ p.id := fun hid => hnotMem.2 (ProfileTable.eq_of_id_eq hq hmem hid)
    rw [hobjects, if_neg hid]
    exact h.fresh q hq hnotMem.1
  · intro i
    rw [htoUpdate, h.toUpdate]
    constructor
    · rintro (⟨key, q, hq, hactive, hid⟩ | ⟨hactive, rfl⟩)
      · have hkey : key ≠ p.key := by
          rintro rfl
          rw [hnone] at hq
          cases hq
        exact ⟨key, q, by rw [hold, if_neg hkey, hq], hactive, hid⟩
      · exact ⟨p.key, p, by rw [hold, if_pos rfl], hactive, rfl⟩
    · rintro ⟨key, q, hq, hactive, rfl⟩
      rw [hold] at hq
      split at hq
      · cases hq
        exact .inr ⟨hactive, rfl⟩
      · exact .inl ⟨key, q, hq, hactive, rfl⟩

theorem prep_step (hsplit : table.rows = pre ++ p :: post) (h : Prep table current pre s) :
    ∃ t, preprocess current s p = .ok t ∧ Prep table current (pre ++ [p]) t := by
  unfold preprocess
  by_cases huser : p.subscription = .userConfigured
  · rw [if_pos huser]
    exact ⟨s, rfl, prep_user h (fun hsub => hsub huser)⟩
  · rw [if_neg huser, h.subs]
    cases hold : oldAt pre p.key with
    | some q =>
      obtain ⟨t, ht, hprep⟩ := prep_double hsplit h ((double_iff hsplit).2 ⟨huser, by simp [hold]⟩)
      simp only [Option.map_some, ht]
      exact ⟨_, rfl, hprep⟩
    | none =>
      have hfresh := h.fresh p (mem_of_split hsplit) (notMem_of_split hsplit)
      simp only [Option.map_none]
      by_cases hactive : p.subscription = .active
      · rw [if_pos hactive]
        refine ⟨_, rfl, prep_first hsplit h huser hold rfl rfl rfl (fun i => rfl) (fun i => ?_)⟩
        show i ∈ p.id :: s.toUpdate ↔ _
        rw [List.mem_cons, or_comm]
        simp [hactive]
      · rw [if_neg hactive]
        have hobsolete : p.subscription = .obsolete := by
          cases hstatus : p.subscription with
          | userConfigured => exact absurd hstatus huser
          | active => exact absurd hstatus hactive
          | obsolete => rfl
        refine ⟨_, rfl, prep_first hsplit h huser hold rfl rfl rfl (fun i => ?_) (fun i => by simp [hactive])⟩
        -- an obsolete profile stays as it is
        show s.objects i = _
        split
        · rename_i hi
          rw [hi, hfresh, ← hobsolete]
        · rfl

theorem prep_rows : ∀ (post pre : List Profile) {s : Update}, table.rows = pre ++ post → Prep table current pre s →
    ∃ t, post.foldlM (preprocess current) s = .ok t ∧ Prep table current table.rows t
  | [], pre, s, hsplit, h => by
    rw [List.append_nil] at hsplit
    exact ⟨s, rfl, hsplit ▸ h⟩
  | p :: post, pre, s, hsplit, h => by
    obtain ⟨t, ht, hprep⟩ := prep_step hsplit h
    obtain ⟨u, hu, hall⟩ := prep_rows post (pre ++ [p]) (hsplit.trans (List.append_cons pre p post)) hprep
    refine ⟨u, ?_, hall⟩
    rw [List.foldlM_cons, ht]
    exact hu

/-- **So nothing is made yet.** -/
theorem Prep.inv (h : Prep table current table.rows s) : Inv table s.profileId s [] := by
  have hkept : ∀ {p}, p ∈ s.table.rows ↔ p ∈ table.rows ∧ ¬ Double table.rows p := by
    intro p
    rw [h.rows]
    exact and_congr_right (fun hp => ⟨fun hnot => hnot hp, fun hnot _ => hnot⟩)
  have hfound : ∀ {key i}, s.subscriptions.get key = some i → ∃ p, oldAt table.rows key = some p ∧ p.id = i := by
    intro key i hi
    rw [h.subs] at hi
    exact Option.map_eq_some_iff.1 hi
  refine ⟨?_, ?_, ?_, ?_, ?_, ?_, rfl⟩
  · intro p huser
    rw [hkept]
    exact and_iff_left (fun hdouble => huser hdouble.1)
  · intro p hp hsub
    have hold : oldAt table.rows p.key = some p := not_not.1 (fun hne => (hkept.1 hp).2 ⟨hsub, hne⟩)
    rw [h.subs, hold]
    rfl
  · intro key i hi
    obtain ⟨p, hold, rfl⟩ := hfound hi
    obtain ⟨hp, hsub, rfl⟩ := oldAt_eq_some hold
    refine ⟨p, hkept.2 ⟨hp, fun hdouble => hdouble.2 hold⟩, rfl, hsub, ?_⟩
    by_cases hactive : p.subscription = .active
    · exact .inr ((h.toUpdate p.id).2 ⟨p.key, p, hold, hactive, rfl⟩)
    · refine .inl ?_
      rw [h.objects p.key p hold]
      cases hstatus : p.subscription with
      | userConfigured => exact absurd hstatus hsub
      | active => exact absurd hstatus hactive
      | obsolete => rw [← hstatus]
  · intro key i hi
    obtain ⟨p, hold, rfl⟩ := hfound hi
    rw [h.objects key p hold]
    refine ⟨rfl, (oldAt_eq_some hold).2.2, ?_⟩
    rw [hold]
    exact .vanished p
  · intro key hnone
    rw [h.subs, Option.map_eq_none_iff] at hnone
    exact ⟨hnone, rfl⟩
  · intro i hi
    obtain ⟨key, p, hold, -, rfl⟩ := (h.toUpdate i).1 hi
    exact ⟨⟨key, by rw [h.subs, hold]; rfl⟩, List.mem_map_of_mem (oldAt_eq_some hold).1⟩

end

/-! ## After the documents were read -/

/-- The row as it is after the write-back of `profiles`. -/
def written (s : Update) (profiles : List Profile) (q : Profile) : Profile :=
  if q.id ∈ s.toUpdate ∧ q.id ∈ profiles.map Profile.id then s.objects q.id else q

section
variable {table : ProfileTable} {current : Nat} {s : Update} {made : List Profile}

theorem Inv.marked_object (h : Inv table current s made) {i : Nat} (hi : i ∈ s.toUpdate) :
    (s.objects i).id = i ∧ i ∈ s.table.rows.map Profile.id := by
  obtain ⟨⟨key, hkey⟩, -⟩ := h.marked i hi
  exact ⟨(h.object key i hkey).id, h.mem_ids hkey⟩

theorem writeBack_eq (h : Inv table current s made) : ∀ (profiles : List Profile) {t : ProfileTable},
    t.rows.map Profile.id = s.table.rows.map Profile.id →
      ∃ t' : ProfileTable, profiles.foldlM
          (fun table p => if p.id ∈ s.toUpdate then table.updateProfile (s.objects p.id) else .ok table) t = .ok t' ∧
        t'.rows = t.rows.map (written s profiles)
  | [], t, _ => ⟨t, rfl, (List.map_id'' (fun q => if_neg (fun h => List.not_mem_nil h.2)) t.rows).symm⟩
  | p :: profiles, t, hids => by
    by_cases hp : p.id ∈ s.toUpdate
    · obtain ⟨hid, hmem⟩ := h.marked_object hp
      have hupdate : t.updateProfile (s.objects p.id) = .ok (t.update (s.objects p.id)) :=
        ProfileManager.updateProfile_ok (by rw [hid, hids]; exact hmem)
      have hids' : (t.update (s.objects p.id)).rows.map Profile.id = s.table.rows.map Profile.id :=
        (ProfileTable.map_id_replace t.rows _).trans hids
      obtain ⟨t', ht', hrows⟩ := writeBack_eq h profiles hids'
      refine ⟨t', ?_, ?_⟩
      · rw [List.foldlM_cons, if_pos hp, hupdate]
        exact ht'
      · rw [hrows]
        show (t.rows.map _).map _ = _
        rw [List.map_map]
        apply List.map_congr_left
        intro q _
        by_cases hq : q.id = p.id
        · simp [written, hid, hq, hp]
        · simp [written, hid, hq]
    · obtain ⟨t', ht', hrows⟩ := writeBack_eq h profiles hids
      refine ⟨t', ?_, ?_⟩
      · rw [List.foldlM_cons, if_neg hp]
        exact ht'
      · rw [hrows]
        apply List.map_congr_left
        intro q _
        by_cases hq : q.id = p.id
        · simp [written, hq, hp]
        · simp [written, hq]

/-- A row of the user is not written. -/
theorem Inv.written_user (h : Inv table current s made) {q : Profile} (hq : q ∈ s.table.rows) (huser : ¬ Subscribed q) :
    written s table.rows q = q := by
  refine if_neg (fun hboth => ?_)
  obtain ⟨⟨key, hkey⟩, -⟩ := h.marked q.id hboth.1
  exact h.id_ne hkey hq huser rfl

/-- A profile of a subscription is in the table as its object is. -/
theorem Inv.written_subscribed (h : Inv table current s made) {q : Profile} (hq : q ∈ s.table.rows) (hsub : Subscribed q) :
    written s table.rows q = s.objects q.id := by
  by_cases hmark : q.id ∈ s.toUpdate
  · exact if_pos ⟨hmark, (h.marked q.id hmark).2⟩
  · obtain ⟨p, hp, hid, -, hstate⟩ := h.stored q.key q.id (h.keyed q hq hsub)
    rw [written, if_neg (fun hboth => hmark hboth.1), ← ProfileTable.eq_of_id_eq hp hq hid]
    rw [← hid] at hstate hmark
    exact hstate.resolve_right hmark

end

/-- What an update makes of a table, if `made` are the profiles of the documents. -/
structure Updated (table : ProfileTable) (made : List Profile) (updated : ProfileTable) : Prop where
  /-- The user's own profiles stay. -/
  users   : ∀ p, ¬ Subscribed p → (p ∈ updated.rows ↔ p ∈ table.rows)
  outcome : ∀ p ∈ updated.rows, Subscribed p → Outcome (oldAt table.rows p.key) (madeAt made p.key) p
  once    : ∀ p ∈ updated.rows, ∀ q ∈ updated.rows, Subscribed p → Subscribed q → p.key = q.key → p = q
  present : ∀ key, oldAt table.rows key ≠ none ∨ madeAt made key ≠ none → ∃ p ∈ updated.rows, Subscribed p ∧ p.key = key

theorem Inv.updated {table updated : ProfileTable} {current : Nat} {s : Update} {made : List Profile}
    (h : Inv table current s made) (hrows : updated.rows = s.table.rows.map (written s table.rows)) :
    Updated table made updated := by
  -- each row of a subscription is the object under its name and address
  have hrow : ∀ p ∈ updated.rows, Subscribed p →
      ∃ i, s.subscriptions.get p.key = some i ∧ p = s.objects i ∧ Sits table made p.key i p := by
    intro p hp hsub
    rw [hrows] at hp
    obtain ⟨q, hq, rfl⟩ := List.mem_map.1 hp
    by_cases hqsub : Subscribed q
    · rw [h.written_subscribed hq hqsub]
      have hkey := h.keyed q hq hqsub
      have hsits := h.object q.key q.id hkey
      rw [hsits.named]
      exact ⟨q.id, hkey, rfl, hsits⟩
    · rw [h.written_user hq hqsub] at hsub
      exact absurd hsub hqsub
  constructor
  · intro p huser
    rw [← h.users p huser, hrows, List.mem_map]
    constructor
    · rintro ⟨q, hq, rfl⟩
      by_cases hsub : Subscribed q
      · rw [h.written_subscribed hq hsub] at huser
        exact absurd (h.object q.key q.id (h.keyed q hq hsub)).outcome.subscribed huser
      · rwa [h.written_user hq hsub]
    · exact fun hp => ⟨p, hp, h.written_user hp huser⟩
  · intro p hp hsub
    obtain ⟨i, -, -, hsits⟩ := hrow p hp hsub
    exact hsits.outcome
  · intro p hp q hq hpsub hqsub hkey
    obtain ⟨i, hi, hpi, -⟩ := hrow p hp hpsub
    obtain ⟨j, hj, hqj, -⟩ := hrow q hq hqsub
    rw [hkey, hj, Option.some.injEq] at hi
    rw [hpi, hqj, hi]
  · intro key hkey
    cases hget : s.subscriptions.get key with
    | none =>
      obtain ⟨hold, hmade⟩ := h.missing key hget
      exact (hkey.elim (· hold) (· hmade)).elim
    | some i =>
      obtain ⟨q, hq, rfl, hsub, -⟩ := h.stored key i hget
      have hsits := h.object key q.id hget
      refine ⟨s.objects q.id, ?_, hsits.outcome.subscribed, hsits.named⟩
      rw [hrows]
      exact List.mem_map.2 ⟨q, hq, h.written_subscribed hq hsub⟩

/-- **An update never fails, and each name and address is in the table once.**  The user's own profiles are left alone.  A
profile of a subscription that a document has is active, with the password, the method and the plugin of the first one that
has it, and the id, the place, the traffic and the other settings that it had; one that is new is added; one that no document
has is obsolete, and otherwise as it was.  The current profile is lost only if it was a double. -/
theorem subscriptions_updated (dao : Dao) (runtime : Runtime) (documents : List Importer.Document) (profileId : Nat)
    (table : ProfileTable) :
    ∃ made updated, MadeOf (parsers runtime (table.getProfile profileId) documents) made ∧
      createProfilesFromSubscription dao runtime documents profileId table =
        .ok (updated, if table.rows.any (fun p => p.id = profileId ∧ Double table.rows p) then 0 else profileId) ∧
      Updated table made updated := by
  obtain ⟨s, hs, hprep⟩ := prep_rows table.rows [] rfl (prep_start table profileId)
  obtain ⟨made, hinv, hmade⟩ := inv_importAll dao runtime (table.getProfile profileId) documents hprep.inv
  rw [List.nil_append] at hinv
  obtain ⟨updated, hwritten, hrows⟩ := writeBack_eq hinv table.rows rfl
  refine ⟨made, updated, hmade, ?_, hinv.updated hrows⟩
  rw [createProfilesFromSubscription, hs, ← hprep.current, ← hinv.current]
  exact congrArg (Except.map _) hwritten

end SubscriptionService
end Riddles
