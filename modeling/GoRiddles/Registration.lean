import GoRiddles.Profiles
import Mathlib.Data.List.MinMax
/-!
# Registration — the servers of the list are written to the profile table

`writeServerId` of `ServerBean.kt` and `writeServer` of `Fire.kt`, with `createProfile` and `updateProfile` of
`ProfileManager.kt`.  Writing looks for the last active row at an address, connecting for the first; `activeAt` is the one
they agree on while no two active rows share an address, and each write keeps it so.
-/
namespace Riddles

/-- How the table numbers its new rows.  No table is met twice at an insertion, so a function of the table will do. -/
structure Dao where
  newId    : ProfileTable → Nat
  fresh    : ∀ table : ProfileTable, ∀ p ∈ table.rows, p.id ≠ newId table
  positive : ∀ table : ProfileTable, newId table ≠ 0

namespace ProfileTable

/-- `SELECT MAX(userOrder) + 1 FROM Profile`. -/
def nextOrder (table : ProfileTable) : Option Nat := (table.rows.map Profile.userOrder).max?.map (· + 1)

/-- The row `createProfile` inserts. -/
def inserted (table : ProfileTable) (dao : Dao) (profile : Profile) : Profile :=
  { profile with id := dao.newId table, userOrder := table.nextOrder.getD 0 }

def createProfile (table : ProfileTable) (dao : Dao) (profile : Profile) : ProfileTable where
  rows        := table.rows ++ [table.inserted dao profile]
  ids_nodup   := by
    rw [List.map_append, List.map_singleton, List.nodup_append]
    refine ⟨table.ids_nodup, List.nodup_singleton _, fun id hid id' hid' => ?_⟩
    obtain ⟨p, hp, rfl⟩ := List.mem_map.1 hid
    rw [List.mem_singleton] at hid'
    rw [hid']
    exact dao.fresh table p hp
  ids_ne_zero := by
    intro p hp
    rcases List.mem_append.1 hp with hp | hp
    · exact table.ids_ne_zero p hp
    · rw [List.mem_singleton] at hp
      rw [hp]
      exact dao.positive table

theorem map_id_replace (rows : List Profile) (profile : Profile) :
    (rows.map (fun p => if p.id = profile.id then profile else p)).map Profile.id = rows.map Profile.id := by
  rw [List.map_map]
  apply List.map_congr_left
  intro p _
  by_cases hid : p.id = profile.id
  · simp [hid]
  · simp [hid]

/-- The row of the profile's id is replaced. -/
def update (table : ProfileTable) (profile : Profile) : ProfileTable where
  rows        := table.rows.map (fun p => if p.id = profile.id then profile else p)
  ids_nodup   := by
    rw [map_id_replace]
    exact table.ids_nodup
  ids_ne_zero := by
    intro p hp
    have hid : p.id ∈ table.rows.map Profile.id := by
      rw [← map_id_replace table.rows profile]
      exact List.mem_map_of_mem hp
    obtain ⟨q, hq, hqp⟩ := List.mem_map.1 hid
    rw [← hqp]
    exact table.ids_ne_zero q hq

/-- `check(update(profile) == 1)`. -/
def updateProfile (table : ProfileTable) (profile : Profile) : Except Thrown ProfileTable :=
  if table.rows.countP (fun p => p.id = profile.id) = 1 then .ok (table.update profile)
  else .error (.illegalState "Check failed.".toList)

end ProfileTable

namespace ServerBean

def profile (b : ServerBean) : Profile where
  id         := 0
  name       := some (b.goRiCountry ++ " - ".toList ++ b.goRiCity)
  host       := b.goRiIp
  remotePort := b.goRiPort
  password   := b.goRiPwd
  method     := b.goRiAccount

/-- `return@forEach` goes on with the next profile: the last one that matches counts. -/
def registeredId (b : ServerBean) (table : ProfileTable) : Option Nat :=
  table.getActiveProfiles.foldl
    (fun id p => if p.remotePort = b.profile.remotePort ∧ p.host = b.profile.host then some p.id else id) none

def writeServerId (b : ServerBean) (dao : Dao) (table : ProfileTable) : Except Thrown ProfileTable :=
  match b.registeredId table with
  | none    => .ok (table.createProfile dao b.profile)
  | some id => table.updateProfile { b.profile with id := id }

end ServerBean

def writeServer (dao : Dao) (list : List ServerBean) (table : ProfileTable) : Except Thrown ProfileTable :=
  list.foldlM (fun table b => b.writeServerId dao table) table

/-! ## The active row at an address -/

/-- Replacing an element by another that the filter drops too changes nothing the filter keeps. -/
theorem filter_map_eq {α : Type} (f : α → α) (keep : α → Bool) : ∀ l : List α,
    (∀ x ∈ l, f x = x ∨ (keep x = false ∧ keep (f x) = false)) → (l.map f).filter keep = l.filter keep
  | [], _ => rfl
  | x :: l, h => by
    have hrest := filter_map_eq f keep l (fun y hy => h y (List.mem_cons_of_mem x hy))
    rw [List.map_cons, List.filter_cons, List.filter_cons, hrest]
    rcases h x List.mem_cons_self with hsame | ⟨hx, hfx⟩
    · rw [hsame]
    · simp [hx, hfx]

/-- **A scan that goes on after a match ends with the last one.** -/
theorem scan_eq {α β : Type} (c : α → Prop) [DecidablePred c] (f : α → β) (l : List α) : ∀ init : Option β,
    l.foldl (fun o x => if c x then some (f x) else o) init = ((l.filter (fun x => c x)).getLast?.map f).or init := by
  induction l with
  | nil =>
    intro init
    rfl
  | cons x l ih =>
    intro init
    rw [List.foldl_cons, ih, List.filter_cons]
    by_cases hx : c x
    · simp only [hx, if_true, decide_true, List.getLast?_cons]
      cases (l.filter (fun x => c x)).getLast? <;> rfl
    · simp [hx]

namespace ProfileTable

variable {table t : ProfileTable} {p q : Profile} {address : Text × Int}

/-- No two active rows are at one address. -/
def OnePerAddress (table : ProfileTable) : Prop :=
  ∀ p ∈ table.rows, ∀ q ∈ table.rows, p.subscription ≠ .obsolete → q.subscription ≠ .obsolete → p.address = q.address → p = q

instance (table : ProfileTable) : Decidable table.OnePerAddress :=
  inferInstanceAs (Decidable (∀ p ∈ table.rows, ∀ q ∈ table.rows, _ → _ → _ → p = q))

def activeAt (table : ProfileTable) (address : Text × Int) : Option Profile :=
  table.getActiveProfiles.find? (fun p => p.address = address)

/-- The active row at an address that is listed last. -/
def lastActiveAt (table : ProfileTable) (address : Text × Int) : Option Profile :=
  (table.getActiveProfiles.filter (fun p => p.address = address)).getLast?

theorem mem_getActiveProfiles : p ∈ table.getActiveProfiles ↔ p ∈ table.rows ∧ p.subscription ≠ .obsolete := by
  rw [getActiveProfiles, List.mem_insertionSort, List.mem_filter, decide_eq_true_iff]

theorem activeAt_eq_none :
    table.activeAt address = none ↔ ∀ p ∈ table.rows, p.subscription ≠ .obsolete → p.address ≠ address := by
  simp only [activeAt, List.find?_eq_none, decide_eq_true_eq, mem_getActiveProfiles, and_imp, ne_eq]

theorem of_activeAt (h : table.activeAt address = some p) :
    p ∈ table.rows ∧ p.subscription ≠ .obsolete ∧ p.address = address := by
  have hmem := mem_getActiveProfiles.1 (List.mem_of_find?_eq_some h)
  have haddress := List.find?_some h
  rw [decide_eq_true_iff] at haddress
  exact ⟨hmem.1, hmem.2, haddress⟩

theorem lastActiveAt_eq_none :
    table.lastActiveAt address = none ↔ ∀ p ∈ table.rows, p.subscription ≠ .obsolete → p.address ≠ address := by
  simp only [lastActiveAt, List.getLast?_eq_none_iff, List.filter_eq_nil_iff, decide_eq_true_eq, mem_getActiveProfiles,
    and_imp, ne_eq]

theorem of_lastActiveAt (h : table.lastActiveAt address = some p) :
    p ∈ table.rows ∧ p.subscription ≠ .obsolete ∧ p.address = address := by
  have hmem := List.mem_filter.1 (List.mem_of_getLast? h)
  rw [mem_getActiveProfiles, decide_eq_true_iff] at hmem
  exact ⟨hmem.1.1, hmem.1.2, hmem.2⟩

/-- **There is nothing to choose** where no two active rows share an address. -/
theorem OnePerAddress.activeAt_iff (h : table.OnePerAddress) :
    table.activeAt address = some p ↔ p ∈ table.rows ∧ p.subscription ≠ .obsolete ∧ p.address = address := by
  constructor
  · exact of_activeAt
  · rintro ⟨hp, hactive, haddress⟩
    cases hq : table.activeAt address with
    | none => exact absurd haddress (activeAt_eq_none.1 hq p hp hactive)
    | some q =>
      obtain ⟨hq, hactive', haddress'⟩ := of_activeAt hq
      rw [h q hq p hp hactive' hactive (haddress'.trans haddress.symm)]

end ProfileTable

namespace ServerBean

variable {table t : ProfileTable} {b : ServerBean}

theorem getServerId_eq (b : ServerBean) (table : ProfileTable) :
    b.getServerId table = ((table.activeAt b.address).map Profile.id).getD 0 := by
  have hmatch : (fun p : Profile => decide (p.host = b.goRiIp ∧ p.remotePort = b.goRiPort)) =
      fun p => decide (p.address = b.address) := by
    funext p
    simp [Profile.address, ServerBean.address]
  rw [getServerId, hmatch, ProfileTable.activeAt]
  cases table.getActiveProfiles.find? (fun p => p.address = b.address) <;> rfl

/-- **A write goes to the row listed last.** -/
theorem registeredId_last (b : ServerBean) (table : ProfileTable) :
    b.registeredId table = (table.lastActiveAt b.address).map Profile.id := by
  have hmatch : (fun p : Profile => decide (p.remotePort = b.profile.remotePort ∧ p.host = b.profile.host)) =
      fun p => decide (p.address = b.address) := by
    funext p
    simp [Profile.address, ServerBean.address, profile, and_comm]
  rw [registeredId, scan_eq, hmatch, Option.or_none]
  rfl

/-- **The last match is the first one.** -/
theorem registeredId_eq (h : table.OnePerAddress) : b.registeredId table = (table.activeAt b.address).map Profile.id := by
  rw [registeredId_last]
  cases hlast : table.lastActiveAt b.address with
  | none => rw [ProfileTable.activeAt_eq_none.2 (ProfileTable.lastActiveAt_eq_none.1 hlast)]
  | some p => rw [h.activeAt_iff.2 (ProfileTable.of_lastActiveAt hlast)]

/-- **What a write does**: one row takes the place of the active row at the bean's address, if there was one, with its id;
the rows at other addresses are left. -/
structure Wrote (b : ServerBean) (table t : ProfileTable) (row : Profile) : Prop where
  address  : row.address = b.address
  active   : row.subscription ≠ .obsolete
  password : row.password = b.goRiPwd
  method   : row.method = b.goRiAccount
  rows     : ∀ p, p ∈ t.rows ↔ (p ∈ table.rows ∧ table.activeAt b.address ≠ some p) ∨ p = row
  others   : t.rows.filter (fun p => p.address ≠ b.address) = table.rows.filter (fun p => p.address ≠ b.address)
  ids      : ∀ p, table.activeAt b.address = some p → row.id = p.id ∧ t.rows.map Profile.id = table.rows.map Profile.id

theorem wrote_createProfile (dao : Dao) (hnone : table.activeAt b.address = none) :
    Wrote b table (table.createProfile dao b.profile) (table.inserted dao b.profile) where
  address  := rfl
  active   := by simp [ProfileTable.inserted, profile]
  password := rfl
  method   := rfl
  rows p   := by
    simp only [ProfileTable.createProfile, List.mem_append, List.mem_singleton, hnone]
    simp
  others   := by
    have haddress : (table.inserted dao b.profile).address = b.address := rfl
    simp [ProfileTable.createProfile, haddress]
  ids p hp := by
    rw [hnone] at hp
    cases hp

theorem wrote_update {q : Profile} (hat : table.activeAt b.address = some q) :
    Wrote b table (table.update { b.profile with id := q.id }) { b.profile with id := q.id } where
  address  := rfl
  active   := by simp [profile]
  password := rfl
  method   := rfl
  rows p   := by
    obtain ⟨hq, -, -⟩ := ProfileTable.of_activeAt hat
    simp only [ProfileTable.update, List.mem_map, hat, ne_eq, Option.some.injEq]
    constructor
    · rintro ⟨p', hp', rfl⟩
      by_cases hid : p'.id = q.id
      · right
        rw [if_pos hid]
      · left
        rw [if_neg hid]
        exact ⟨hp', fun heq => hid (by rw [heq])⟩
    · rintro (⟨hp, hne⟩ | rfl)
      · have hid : p.id ≠ q.id := fun hid => hne (ProfileTable.eq_of_id_eq hq hp hid.symm)
        exact ⟨p, hp, if_neg hid⟩
      · exact ⟨q, hq, if_pos rfl⟩
  others   := by
    obtain ⟨hq, -, haddress⟩ := ProfileTable.of_activeAt hat
    apply filter_map_eq
    intro p hp
    by_cases hid : p.id = q.id
    · right
      have hrow : ({ b.profile with id := q.id } : Profile).address = b.address := rfl
      rw [if_pos hid, ProfileTable.eq_of_id_eq hp hq hid, haddress, hrow]
      simp
    · left
      rw [if_neg hid]
  ids p hp := by
    rw [hat] at hp
    cases hp
    exact ⟨rfl, ProfileTable.map_id_replace table.rows _⟩

theorem countP_id {q : Profile} (hq : q ∈ table.rows) : table.rows.countP (fun p => p.id = q.id) = 1 := by
  have hcount := List.count_eq_one_of_mem table.ids_nodup (List.mem_map_of_mem hq)
  rw [List.count, List.countP_map] at hcount
  rw [← hcount]
  apply List.countP_congr
  intro p _
  simp

/-- **One write.** -/
theorem writeServerId_spec (dao : Dao) (h : table.OnePerAddress) :
    ∃ t row, b.writeServerId dao table = .ok t ∧ Wrote b table t row := by
  unfold writeServerId
  rw [registeredId_eq h]
  cases hat : table.activeAt b.address with
  | none => exact ⟨_, _, rfl, wrote_createProfile dao hat⟩
  | some q =>
    refine ⟨_, _, ?_, wrote_update hat⟩
    obtain ⟨hq, -, -⟩ := ProfileTable.of_activeAt hat
    simp only [Option.map_some, ProfileTable.updateProfile]
    exact if_pos (countP_id hq)

variable {row : Profile}

/-- The active rows away from the written one are those there were, away from its address. -/
theorem Wrote.old (hw : Wrote b table t row) (h : table.OnePerAddress) {p : Profile} (hp : p ∈ t.rows)
    (hactive : p.subscription ≠ .obsolete) : p = row ∨ (p ∈ table.rows ∧ p.address ≠ b.address) := by
  rcases (hw.rows p).1 hp with ⟨hold, hne⟩ | rfl
  · exact Or.inr ⟨hold, fun haddress => hne (h.activeAt_iff.2 ⟨hold, hactive, haddress⟩)⟩
  · exact Or.inl rfl

theorem Wrote.onePerAddress (hw : Wrote b table t row) (h : table.OnePerAddress) : t.OnePerAddress := by
  intro p hp q hq hpactive hqactive haddress
  rcases hw.old h hp hpactive with rfl | ⟨hpold, hpne⟩
  · rcases hw.old h hq hqactive with rfl | ⟨hqold, hqne⟩
    · rfl
    · exact absurd (haddress.symm.trans hw.address) hqne
  · rcases hw.old h hq hqactive with rfl | ⟨hqold, hqne⟩
    · exact absurd (haddress.trans hw.address) hpne
    · exact h p hpold q hqold hpactive hqactive haddress

theorem Wrote.activeAt_self (hw : Wrote b table t row) (h : table.OnePerAddress) : t.activeAt b.address = some row :=
  (hw.onePerAddress h).activeAt_iff.2 ⟨(hw.rows row).2 (Or.inr rfl), hw.active, hw.address⟩

theorem Wrote.activeAt_of_ne (hw : Wrote b table t row) (h : table.OnePerAddress) {address : Text × Int}
    (hne : b.address ≠ address) : t.activeAt address = table.activeAt address := by
  apply Option.ext
  intro p
  rw [(hw.onePerAddress h).activeAt_iff, h.activeAt_iff]
  constructor
  · rintro ⟨hp, hactive, haddress⟩
    rcases hw.old h hp hactive with rfl | ⟨hold, -⟩
    · exact absurd (hw.address.symm.trans haddress) hne
    · exact ⟨hold, hactive, haddress⟩
  · rintro ⟨hp, hactive, haddress⟩
    refine ⟨(hw.rows p).2 (Or.inl ⟨hp, fun hat => ?_⟩), hactive, haddress⟩
    obtain ⟨-, -, haddress'⟩ := ProfileTable.of_activeAt hat
    exact hne (haddress'.symm.trans haddress)

end ServerBean

/-! ## The list -/

/-- The last bean of the list at an address. -/
def lastAt (list : List ServerBean) (address : Text × Int) : Option ServerBean :=
  list.reverse.find? (fun b => b.address = address)

theorem lastAt_cons (b : ServerBean) (list : List ServerBean) (address : Text × Int) :
    lastAt (b :: list) address = (lastAt list address).or (if b.address = address then some b else none) := by
  rw [lastAt, List.reverse_cons, List.find?_append, lastAt]
  by_cases haddress : b.address = address
  · simp [haddress]
  · simp [haddress]

theorem lastAt_eq_none {list : List ServerBean} {address : Text × Int} :
    lastAt list address = none ↔ ∀ b ∈ list, b.address ≠ address := by
  simp [lastAt]

/-- A row at an address that is not in the list. -/
def elsewhere (list : List ServerBean) (p : Profile) : Bool := list.all (fun b => p.address ≠ b.address)

/-- **What writing a list does.** -/
structure Registers (list : List ServerBean) (table t : ProfileTable) : Prop where
  one    : t.OnePerAddress
  listed : ∀ address b, lastAt list address = some b →
    ∃ p, t.activeAt address = some p ∧ p.password = b.goRiPwd ∧ p.method = b.goRiAccount
  other  : ∀ address, lastAt list address = none → t.activeAt address = table.activeAt address
  rows   : t.rows.filter (elsewhere list) = table.rows.filter (elsewhere list)
  kept   : ∀ address p, table.activeAt address = some p → ∃ p', t.activeAt address = some p' ∧ p'.id = p.id
  ids    : (∀ b ∈ list, table.activeAt b.address ≠ none) → t.rows.map Profile.id = table.rows.map Profile.id

theorem registers_nil {table : ProfileTable} (h : table.OnePerAddress) : Registers [] table table where
  one                 := h
  listed _ _ hlast    := by cases hlast
  other _ _           := rfl
  rows                := rfl
  kept _ p hp         := ⟨p, hp, rfl⟩
  ids _               := rfl

theorem registers_cons {b : ServerBean} {list : List ServerBean} {table t t' : ProfileTable} {row : Profile}
    (h : table.OnePerAddress) (hw : b.Wrote table t row) (hr : Registers list t t') : Registers (b :: list) table t' where
  one := hr.one
  listed address b' hlast := by
    rw [lastAt_cons] at hlast
    cases hrest : lastAt list address with
    | some b'' =>
      rw [hrest, Option.some_or] at hlast
      cases hlast
      exact hr.listed address b' hrest
    | none =>
      rw [hrest, Option.none_or, Option.ite_none_right_eq_some, Option.some.injEq] at hlast
      obtain ⟨rfl, rfl⟩ := hlast
      exact ⟨row, (hr.other _ hrest).trans (hw.activeAt_self h), hw.password, hw.method⟩
  other address hnone := by
    rw [lastAt_cons, Option.or_eq_none_iff] at hnone
    obtain ⟨hrest, hne⟩ := hnone
    have hne' : b.address ≠ address := by simpa using hne
    rw [hr.other address hrest, hw.activeAt_of_ne h hne']
  rows := by
    have hlast : ∀ l : List Profile, l.filter (elsewhere (b :: list)) =
        (l.filter (elsewhere list)).filter (fun p => p.address ≠ b.address) := by
      intro l
      rw [List.filter_filter]
      rfl
    have hfirst : ∀ l : List Profile, (l.filter (elsewhere list)).filter (fun p => p.address ≠ b.address) =
        (l.filter (fun p => p.address ≠ b.address)).filter (elsewhere list) := by
      intro l
      exact List.filter_comm _ _ l
    rw [hlast, hlast, hr.rows, hfirst, hfirst, hw.others]
  kept address p hp := by
    by_cases hne : b.address = address
    · subst hne
      obtain ⟨p', hp', hid⟩ := hr.kept _ row (hw.activeAt_self h)
      exact ⟨p', hp', hid.trans (hw.ids p hp).1⟩
    · exact hr.kept address p ((hw.activeAt_of_ne h hne).trans hp)
  ids hall := by
    obtain ⟨p, hp⟩ := Option.ne_none_iff_exists'.1 (hall b List.mem_cons_self)
    rw [← (hw.ids p hp).2]
    apply hr.ids
    intro b' hb'
    by_cases hne : b.address = b'.address
    · rw [← hne, hw.activeAt_self h]
      simp
    · rw [hw.activeAt_of_ne h hne]
      exact hall b' (List.mem_cons_of_mem b hb')

theorem writeServer_spec (dao : Dao) : ∀ (list : List ServerBean) (table : ProfileTable), table.OnePerAddress →
    ∃ t, writeServer dao list table = .ok t ∧ Registers list table t
  | [], table, h => ⟨table, rfl, registers_nil h⟩
  | b :: list, table, h => by
    obtain ⟨t, row, hwrite, hw⟩ := ServerBean.writeServerId_spec (b := b) dao h
    obtain ⟨t', hrest, hr⟩ := writeServer_spec dao list t (hw.onePerAddress h)
    refine ⟨t', ?_, registers_cons h hw hr⟩
    rw [writeServer, List.foldlM_cons, hwrite]
    exact hrest

theorem Registers.registered {list : List ServerBean} {table t : ProfileTable} (hr : Registers list table t) {b : ServerBean}
    (hb : b ∈ list) : ∃ p b', t.activeAt b.address = some p ∧ lastAt list b.address = some b' ∧
      p.password = b'.goRiPwd ∧ p.method = b'.goRiAccount := by
  cases hlast : lastAt list b.address with
  | none => exact absurd rfl (lastAt_eq_none.1 hlast b hb)
  | some b' =>
    obtain ⟨p, hp, hpassword, hmethod⟩ := hr.listed _ b' hlast
    exact ⟨p, b', hp, rfl, hpassword, hmethod⟩

/-- **Every listed server can be connected to.**  From any table with at most one active row at each address, and for any
list of servers, writing the list succeeds; then each server's id is the id of a row at its address, with the password and the
method of the last server of the list there; still no two active rows share an address; the rows at addresses that are not in
the list are what they were; and writing the list again adds no row and changes no id. -/
theorem servers_registered (dao : Dao) (table : ProfileTable) (list : List ServerBean) (h : table.OnePerAddress) :
    ∃ t, writeServer dao list table = .ok t ∧
      (∀ b ∈ list, ∃ p ∈ t.rows, b.getServerId t = p.id ∧ p.address = b.address ∧
        ∃ b', lastAt list b.address = some b' ∧ p.password = b'.goRiPwd ∧ p.method = b'.goRiAccount) ∧
      t.OnePerAddress ∧
      t.rows.filter (elsewhere list) = table.rows.filter (elsewhere list) ∧
      ∀ dao', ∃ t', writeServer dao' list t = .ok t' ∧ t'.rows.map Profile.id = t.rows.map Profile.id ∧
        ∀ b ∈ list, b.getServerId t' = b.getServerId t := by
  obtain ⟨t, hwrite, hr⟩ := writeServer_spec dao list table h
  refine ⟨t, hwrite, ?_, hr.one, hr.rows, ?_⟩
  · intro b hb
    obtain ⟨p, b', hp, hlast, hcredentials⟩ := hr.registered hb
    obtain ⟨hrow, -, haddress⟩ := ProfileTable.of_activeAt hp
    refine ⟨p, hrow, ?_, haddress, b', hlast, hcredentials⟩
    rw [b.getServerId_eq, hp, Option.map_some, Option.getD_some]
  · intro dao'
    obtain ⟨t', hwrite', hr'⟩ := writeServer_spec dao' list t hr.one
    refine ⟨t', hwrite', hr'.ids ?_, ?_⟩
    · intro b hb
      obtain ⟨p, b', hp, -⟩ := hr.registered hb
      rw [hp]
      simp
    · intro b hb
      obtain ⟨p, b', hp, -⟩ := hr.registered hb
      obtain ⟨p', hp', hid⟩ := hr'.kept _ p hp
      rw [b.getServerId_eq, b.getServerId_eq, hp, hp', Option.map_some, Option.map_some, hid]

/-- New rows are numbered from the largest id on. -/
def rowIds : Dao where
  newId table      := (table.rows.map Profile.id).foldr max 0 + 1
  fresh table p hp := by
    have hle := List.le_max_of_le' 0 (List.mem_map_of_mem (f := Profile.id) hp) (le_refl p.id)
    omega
  positive _       := Nat.succ_ne_zero _

def oneProfile : ProfileTable where
  rows        := [{ id := 7, host := "10.0.0.1".toList, remotePort := 1 }]
  ids_nodup   := by decide
  ids_ne_zero := by decide

/-- A known server twice, and a new one. -/
def threeBeans : List ServerBean :=
  [⟨"a".toList, "m".toList, 1, "Here".toList, "A".toList, "10.0.0.1".toList⟩,
    ⟨"b".toList, "m".toList, 2, "There".toList, "B".toList, "10.0.0.2".toList⟩,
    ⟨"c".toList, "n".toList, 1, "Here".toList, "A".toList, "10.0.0.1".toList⟩]

theorem servers_registered_three :
    oneProfile.OnePerAddress ∧ ∃ t, writeServer rowIds threeBeans oneProfile = .ok t ∧
      (∀ b ∈ threeBeans, ∃ p ∈ t.rows, b.getServerId t = p.id ∧ p.address = b.address) ∧ t.OnePerAddress := by
  have hone : oneProfile.OnePerAddress := by decide
  obtain ⟨t, hwrite, hlisted, ht, -, -⟩ := servers_registered rowIds oneProfile threeBeans hone
  refine ⟨hone, t, hwrite, fun b hb => ?_, ht⟩
  obtain ⟨p, hp, hid, haddress, -⟩ := hlisted b hb
  exact ⟨p, hp, hid, haddress⟩

end Riddles
