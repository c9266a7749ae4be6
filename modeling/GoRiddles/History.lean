import GoRiddles.Registration
import GoRiddles.StableSort
/-!
# History — what a restart leaves of a server's row

The app writes its server list at every start.  `writeServerId` builds a fresh `Profile` and updates the whole row with it,
so the columns that are kept elsewhere, the traffic totals of `TrafficMonitor` and the order of the list, go back to their
defaults.  A table keeps its history exactly when the rows that are written have none.
-/
namespace Riddles

/-- The columns that a registration should leave alone. -/
def Profile.history (p : Profile) : Int × Int × Nat := (p.tx, p.rx, p.userOrder)

namespace ProfileTable

variable {table t : ProfileTable} {p q : Profile} {address : Text × Int}

/-- `TrafficMonitor.persistStats`: the totals of a session are added to the profile's. -/
def persistStats (table : ProfileTable) (id : Nat) (txTotal rxTotal : Int) : Except Thrown ProfileTable :=
  match table.getProfile id with
  | none => .ok table
  | some profile => table.updateProfile { profile with tx := profile.tx + txTotal, rx := profile.rx + rxTotal }

theorem getProfile_iff {id : Nat} : table.getProfile id = some p ↔ p ∈ table.rows ∧ p.id = id := by
  constructor
  · exact getProfile_eq_some
  · rintro ⟨hp, rfl⟩
    cases hq : table.getProfile p.id with
    | none => exact absurd (List.find?_eq_none.1 hq p hp) (by simp)
    | some q =>
      obtain ⟨hrow, hid⟩ := getProfile_eq_some hq
      rw [eq_of_id_eq hrow hp hid]

theorem getProfile_createProfile (dao : Dao) (profile : Profile) (hp : p ∈ table.rows) :
    (table.createProfile dao profile).getProfile p.id = some p := by
  rw [getProfile_iff]
  exact ⟨List.mem_append_left _ hp, rfl⟩

theorem getProfile_update (profile : Profile) (hp : p ∈ table.rows) :
    (table.update profile).getProfile p.id = some (if p.id = profile.id then profile else p) := by
  rw [getProfile_iff]
  constructor
  · exact List.mem_map_of_mem hp
  · split
    · rename_i hid
      exact hid.symm
    · rfl

/-! ## The row listed last -/

/-- **Only the rows at an address say which of them is listed last.** -/
theorem lastActiveAt_congr (h : table.rows.filter (fun p => p.address = address) =
    t.rows.filter (fun p => p.address = address)) : table.lastActiveAt address = t.lastActiveAt address := by
  have htotal : Std.Total (fun p q : Profile => p.userOrder ≤ q.userOrder) := ⟨fun p q => Nat.le_total _ _⟩
  have htrans : IsTrans Profile (fun p q : Profile => p.userOrder ≤ q.userOrder) := ⟨fun _ _ _ => Nat.le_trans⟩
  have hsorted : ∀ table : ProfileTable, table.lastActiveAt address =
      (((table.rows.filter (fun p => p.address = address)).filter (fun p => p.subscription ≠ .obsolete)).insertionSort
        (fun p q => p.userOrder ≤ q.userOrder)).getLast? := by
    intro table
    rw [lastActiveAt, getActiveProfiles, StableSort.filter_insertionSort, List.filter_comm]
  rw [hsorted, hsorted, h]

theorem lastActiveAt_createProfile (dao : Dao) {profile : Profile} (hne : profile.address ≠ address) :
    (table.createProfile dao profile).lastActiveAt address = table.lastActiveAt address := by
  apply lastActiveAt_congr
  have hother : (table.inserted dao profile).address ≠ address := hne
  simp [createProfile, hother]

theorem lastActiveAt_update {profile : Profile} (hq : q ∈ table.rows) (hid : q.id = profile.id)
    (hold : q.address ≠ address) (hnew : profile.address ≠ address) :
    (table.update profile).lastActiveAt address = table.lastActiveAt address := by
  apply lastActiveAt_congr
  apply filter_map_eq
  intro p hp
  by_cases h : p.id = profile.id
  · right
    rw [if_pos h, eq_of_id_eq hp hq (h.trans hid.symm)]
    simp [hold, hnew]
  · left
    rw [if_neg h]

theorem filter_map_comm {α : Type} {f : α → α} {keep : α → Bool} {l : List α} (h : ∀ x ∈ l, keep (f x) = keep x) :
    (l.map f).filter keep = (l.filter keep).map f := by
  rw [List.filter_map]
  exact congrArg (List.map f) (List.filter_congr h)

/-- **A write that keeps the order keeps the row last.** -/
theorem lastActiveAt_update_self {profile : Profile} (hlast : table.lastActiveAt address = some q)
    (hid : q.id = profile.id) (hactive : profile.subscription ≠ .obsolete) (haddress : profile.address = address)
    (horder : profile.userOrder = q.userOrder) : (table.update profile).lastActiveAt address = some profile := by
  obtain ⟨hq, hqactive, hqaddress⟩ := of_lastActiveAt hlast
  let replace := fun p : Profile => if p.id = profile.id then profile else p
  -- the row replaced is `q`, and the new one is active, at its address and of its order
  have hkeeps : ∀ p ∈ table.rows, (replace p).userOrder = p.userOrder ∧ (replace p).address = p.address ∧
      ((replace p).subscription ≠ .obsolete ↔ p.subscription ≠ .obsolete) := by
    intro p hp
    by_cases h : p.id = profile.id
    · have hpq : p = q := eq_of_id_eq hp hq (h.trans hid.symm)
      have hreplaced : replace p = profile := if_pos h
      rw [hreplaced, hpq, horder, haddress, hqaddress]
      simp [hactive, hqactive]
    · have hreplaced : replace p = p := if_neg h
      simp [hreplaced]
  have hsorted : (table.update profile).getActiveProfiles = table.getActiveProfiles.map replace := by
    have hfilter : (table.rows.map replace).filter (fun p => p.subscription ≠ .obsolete) =
        (table.rows.filter (fun p => p.subscription ≠ .obsolete)).map replace :=
      filter_map_comm (fun p hp => decide_eq_decide.2 (hkeeps p hp).2.2)
    unfold getActiveProfiles
    rw [List.map_insertionSort _ (fun p q : Profile => p.userOrder ≤ q.userOrder), ← hfilter]
    · rfl
    · intro p hp p' hp'
      rw [(hkeeps p (List.mem_of_mem_filter hp)).1, (hkeeps p' (List.mem_of_mem_filter hp')).1]
  have hchosen : (table.getActiveProfiles.map replace).filter (fun p => p.address = address) =
      (table.getActiveProfiles.filter (fun p => p.address = address)).map replace := by
    apply filter_map_comm
    intro p hp
    rw [(hkeeps p (mem_getActiveProfiles.1 hp).1).2.1]
  rw [lastActiveAt] at hlast ⊢
  rw [hsorted, hchosen, List.getLast?_map, hlast, Option.map_some]
  exact congrArg some (if_pos hid)

def historyOf (table : ProfileTable) (id : Nat) : Option (Int × Int × Nat) := (table.getProfile id).map Profile.history

/-- The row is the only active one at its address. -/
def Sole (table : ProfileTable) (q : Profile) : Prop :=
  ∀ p ∈ table.rows, p.subscription ≠ .obsolete → p.address = q.address → p = q

end ProfileTable

/-! ## One write -/

namespace ServerBean

variable {table t : ProfileTable} {p q : Profile} {b : ServerBean} {dao : Dao} {address : Text × Int}

/-- The row a write puts in the place of `q`. -/
def rewritten (b : ServerBean) (q : Profile) : Profile := { b.profile with id := q.id }

def written (b : ServerBean) (dao : Dao) (table : ProfileTable) : ProfileTable :=
  match table.lastActiveAt b.address with
  | none => table.createProfile dao b.profile
  | some q => table.update (b.rewritten q)

theorem written_none (h : table.lastActiveAt b.address = none) : b.written dao table = table.createProfile dao b.profile := by
  unfold written
  rw [h]

theorem written_some (h : table.lastActiveAt b.address = some q) : b.written dao table = table.update (b.rewritten q) := by
  unfold written
  rw [h]

/-- **A write never fails**: the row it updates is there, and only once. -/
theorem writeServerId_eq (b : ServerBean) (dao : Dao) (table : ProfileTable) :
    b.writeServerId dao table = .ok (b.written dao table) := by
  unfold writeServerId
  rw [registeredId_last]
  cases hlast : table.lastActiveAt b.address with
  | none => rw [written_none hlast, Option.map_none]
  | some q =>
    obtain ⟨hq, -, -⟩ := ProfileTable.of_lastActiveAt hlast
    rw [written_some hlast]
    exact if_pos (countP_id hq)

/-- **The history of a row that is written over is gone**; that of every other row stays. -/
theorem historyOf_written (hp : p ∈ table.rows) :
    (b.written dao table).historyOf p.id =
      if (table.lastActiveAt b.address).map Profile.id = some p.id then some (0, 0, 0) else some p.history := by
  unfold ProfileTable.historyOf
  cases hlast : table.lastActiveAt b.address with
  | none =>
    rw [written_none hlast, ProfileTable.getProfile_createProfile dao _ hp]
    simp
  | some q =>
    rw [written_some hlast, ProfileTable.getProfile_update _ hp]
    by_cases hid : q.id = p.id
    · have hrow : p.id = (b.rewritten q).id := hid.symm
      simp [hid, hrow]
      rfl
    · have hrow : p.id ≠ (b.rewritten q).id := fun h => hid h.symm
      simp [hid, hrow]

theorem historyOf_eq {id : Nat} {history : Int × Int × Nat} (h : table.historyOf id = some history) :
    ∃ p ∈ table.rows, p.id = id ∧ p.history = history := by
  obtain ⟨p, hp, hhistory⟩ := Option.map_eq_some_iff.1 h
  obtain ⟨hrow, hid⟩ := ProfileTable.getProfile_eq_some hp
  exact ⟨p, hrow, hid, hhistory⟩

theorem historyOf_written_zero {id : Nat} (h : table.historyOf id = some (0, 0, 0)) :
    (b.written dao table).historyOf id = some (0, 0, 0) := by
  obtain ⟨p, hp, rfl, hhistory⟩ := historyOf_eq h
  rw [historyOf_written hp, hhistory, ite_self]

theorem lastActiveAt_written_of_ne (hne : b.address ≠ address) :
    (b.written dao table).lastActiveAt address = table.lastActiveAt address := by
  have hprofile : b.profile.address ≠ address := hne
  cases hlast : table.lastActiveAt b.address with
  | none =>
    rw [written_none hlast]
    exact ProfileTable.lastActiveAt_createProfile dao hprofile
  | some q =>
    obtain ⟨hq, -, haddress⟩ := ProfileTable.of_lastActiveAt hlast
    rw [written_some hlast]
    exact ProfileTable.lastActiveAt_update hq rfl (by rw [haddress]; exact hne) hprofile

/-- The rows after a write: those there were, and one at the bean's address. -/
theorem mem_written (hp : p ∈ (b.written dao table).rows) :
    p ∈ table.rows ∨ p.address = b.address := by
  cases hlast : table.lastActiveAt b.address with
  | none =>
    rw [written_none hlast] at hp
    rcases List.mem_append.1 hp with hp | hp
    · exact Or.inl hp
    · rw [List.mem_singleton] at hp
      rw [hp]
      exact Or.inr rfl
  | some q =>
    rw [written_some hlast] at hp
    obtain ⟨p', hp', rfl⟩ := List.mem_map.1 hp
    by_cases hid : p'.id = (b.rewritten q).id
    · rw [if_pos hid]
      exact Or.inr rfl
    · rw [if_neg hid]
      exact Or.inl hp'

/-- **After a write the row listed last at its address has no history**, if the one before had none or was alone there. -/
theorem history_lastActiveAt_written (hlast : table.lastActiveAt b.address = some q)
    (hq : q.history = (0, 0, 0) ∨ table.Sole q) (hp : (b.written dao table).lastActiveAt b.address = some p) :
    p.history = (0, 0, 0) := by
  have hzero : (b.rewritten q).history = (0, 0, 0) := rfl
  rw [written_some hlast] at hp
  rcases hq with hq | hsole
  · have horder : q.userOrder = 0 := congrArg (fun h => h.2.2) hq
    have hactive : (b.rewritten q).subscription ≠ .obsolete := by simp [rewritten, profile]
    have hid : q.id = (b.rewritten q).id := rfl
    have hself := ProfileTable.lastActiveAt_update_self hlast hid hactive rfl horder.symm
    rw [hp, Option.some_inj] at hself
    rw [hself]
    exact hzero
  · obtain ⟨hrow, hactive, haddress⟩ := ProfileTable.of_lastActiveAt hp
    obtain ⟨p', hp', rfl⟩ := List.mem_map.1 hrow
    by_cases hid : p'.id = (b.rewritten q).id
    · rw [if_pos hid]
      exact hzero
    · -- another active row at the address would be `q` itself
      rw [if_neg hid] at hactive haddress
      have hqaddress := (ProfileTable.of_lastActiveAt hlast).2.2
      exact absurd (congrArg Profile.id (hsole p' hp' hactive (haddress.trans hqaddress.symm))) hid

theorem created_of_lastActiveAt (hnone : table.lastActiveAt b.address = none)
    (hp : p ∈ (b.written dao table).rows) (hactive : p.subscription ≠ .obsolete) (haddress : p.address = b.address) :
    p = table.inserted dao b.profile := by
  rw [written_none hnone] at hp
  rcases List.mem_append.1 hp with hold | hnew
  · exact absurd haddress (ProfileTable.lastActiveAt_eq_none.1 hnone p hold hactive)
  · exact List.mem_singleton.1 hnew

theorem sole_written (hsole : table.Sole q) (hne : q.address ≠ b.address) : (b.written dao table).Sole q := by
  intro p hp hactive haddress
  rcases mem_written hp with hold | hat
  · exact hsole p hold hactive haddress
  · exact absurd (haddress.symm.trans hat) hne

end ServerBean

/-! ## The list -/

theorem writeServer_eq (dao : Dao) (list : List ServerBean) : ∀ table : ProfileTable,
    writeServer dao list table = .ok (list.foldl (fun t b => b.written dao t) table) := by
  induction list with
  | nil =>
    intro table
    rfl
  | cons b list ih =>
    intro table
    rw [writeServer, List.foldlM_cons, b.writeServerId_eq, List.foldl_cons]
    exact ih _

/-- **What a write keeps**, from a table and for a list of servers: the history of the table's rows is still there, and
the row that a server of the list would be written over has none, or was made since and is alone at its address. -/
structure Unharmed (table : ProfileTable) (list : List ServerBean) (t : ProfileTable) : Prop where
  kept : ∀ p ∈ table.rows, t.historyOf p.id = some p.history
  last : ∀ b ∈ list, ∀ q, t.lastActiveAt b.address = some q →
    q.history = (0, 0, 0) ∨ (∀ p ∈ table.rows, p.id ≠ q.id) ∧ t.Sole q

theorem Unharmed.written {table t : ProfileTable} {list : List ServerBean} (h : Unharmed table list t) (dao : Dao)
    {b : ServerBean} (hb : b ∈ list) : Unharmed table list (b.written dao t) where
  kept p hp := by
    obtain ⟨p', hp', hid, hhistory⟩ := ServerBean.historyOf_eq (h.kept p hp)
    rw [← hid, ServerBean.historyOf_written hp', hhistory]
    split
    · rename_i hover
      obtain ⟨q, hlast, hqid⟩ := Option.map_eq_some_iff.1 hover
      have hqp : q = p' := ProfileTable.eq_of_id_eq (ProfileTable.of_lastActiveAt hlast).1 hp' hqid
      rcases h.last b hb q hlast with hzero | ⟨hnew, -⟩
      · rw [← hhistory, ← hqp, hzero]
      · exact absurd (hid.symm.trans hqid.symm) (hnew p hp)
    · rfl
  last b' hb' q' hlast' := by
    by_cases hsame : b.address = b'.address
    · rw [← hsame] at hlast'
      cases hlast : t.lastActiveAt b.address with
      | some q =>
        refine Or.inl (ServerBean.history_lastActiveAt_written hlast ?_ hlast')
        rcases h.last b hb q hlast with hzero | ⟨-, hsole⟩
        · exact Or.inl hzero
        · exact Or.inr hsole
      | none =>
        obtain ⟨hrow, hactive, haddress⟩ := ProfileTable.of_lastActiveAt hlast'
        have hq' := ServerBean.created_of_lastActiveAt hlast hrow hactive haddress
        refine Or.inr ⟨fun p hp => ?_, fun p hp hpactive hpaddress => ?_⟩
        · obtain ⟨p', hp', hid, -⟩ := ServerBean.historyOf_eq (h.kept p hp)
          rw [hq', ← hid]
          exact dao.fresh t p' hp'
        · rw [hq']
          exact ServerBean.created_of_lastActiveAt hlast hp hpactive (hpaddress.trans haddress)
    · rw [ServerBean.lastActiveAt_written_of_ne hsame] at hlast'
      rcases h.last b' hb' q' hlast' with hzero | ⟨hnew, hsole⟩
      · exact Or.inl hzero
      · have haddress := (ProfileTable.of_lastActiveAt hlast').2.2
        refine Or.inr ⟨hnew, ServerBean.sole_written hsole ?_⟩
        rw [haddress]
        exact fun h => hsame h.symm

theorem Unharmed.writes {table : ProfileTable} {list : List ServerBean} (dao : Dao) (rest : List ServerBean) :
    ∀ {t : ProfileTable}, (∀ b ∈ rest, b ∈ list) → Unharmed table list t →
      Unharmed table list (rest.foldl (fun t b => b.written dao t) t) := by
  induction rest with
  | nil =>
    intro t _ h
    exact h
  | cons b rest ih =>
    intro t hsub h
    rw [List.foldl_cons]
    exact ih (fun b' hb' => hsub b' (List.mem_cons_of_mem b hb')) (h.written dao (hsub b List.mem_cons_self))

theorem historyOf_writes_zero (dao : Dao) {id : Nat} (list : List ServerBean) : ∀ {t : ProfileTable},
    t.historyOf id = some (0, 0, 0) → (list.foldl (fun t b => b.written dao t) t).historyOf id = some (0, 0, 0) := by
  induction list with
  | nil =>
    intro t h
    exact h
  | cons b list ih =>
    intro t h
    rw [List.foldl_cons]
    exact ih (ServerBean.historyOf_written_zero h)

/-- **A row that a server of the list is written over loses its history.** -/
theorem historyOf_writes (dao : Dao) {p : Profile} {b : ServerBean} (list : List ServerBean) : ∀ {t : ProfileTable},
    b ∈ list → t.lastActiveAt b.address = some p →
      (list.foldl (fun t b => b.written dao t) t).historyOf p.id = some (0, 0, 0) := by
  -- by the list up to the first server at the address: before it the row stays the one listed last
  induction list with
  | nil =>
    intro t hb
    cases hb
  | cons b' list ih =>
    intro t hb hlast
    rw [List.foldl_cons]
    by_cases hsame : b'.address = b.address
    · apply historyOf_writes_zero
      rw [ServerBean.historyOf_written (ProfileTable.of_lastActiveAt hlast).1, hsame, hlast]
      simp
    · rcases List.mem_cons.1 hb with rfl | hb
      · exact absurd rfl hsame
      · exact ih hb ((ServerBean.lastActiveAt_written_of_ne hsame).trans hlast)

/-- **Writing the list keeps the history** of every row that was there. -/
def KeepsHistory (dao : Dao) (list : List ServerBean) (table : ProfileTable) : Prop :=
  ∃ t, writeServer dao list table = .ok t ∧
    ∀ p ∈ table.rows, ∃ p', t.getProfile p.id = some p' ∧ p'.tx = p.tx ∧ p'.rx = p.rx ∧ p'.userOrder = p.userOrder

theorem keepsHistory_iff {dao : Dao} {list : List ServerBean} {table : ProfileTable} :
    KeepsHistory dao list table ↔
      ∀ p ∈ table.rows, (list.foldl (fun t b => b.written dao t) table).historyOf p.id = some p.history := by
  have hcolumns : ∀ (t : ProfileTable) (p : Profile), t.historyOf p.id = some p.history ↔
      ∃ p', t.getProfile p.id = some p' ∧ p'.tx = p.tx ∧ p'.rx = p.rx ∧ p'.userOrder = p.userOrder := by
    intro t p
    simp only [ProfileTable.historyOf, Option.map_eq_some_iff, Profile.history, Prod.mk.injEq]
  unfold KeepsHistory
  rw [writeServer_eq]
  simp only [Except.ok.injEq, exists_eq_left', hcolumns]

/-- **When a restart keeps the history.**  For every table and every list of servers, writing the list keeps the traffic
totals and the order of every row that was there exactly when, at the address of every server of the list, the active row
listed last, if there is one, has no traffic and the order zero. -/
theorem history_kept_iff (dao : Dao) (list : List ServerBean) (table : ProfileTable) :
    KeepsHistory dao list table ↔
      ∀ b ∈ list, ∀ p, table.lastActiveAt b.address = some p → p.tx = 0 ∧ p.rx = 0 ∧ p.userOrder = 0 := by
  rw [keepsHistory_iff]
  constructor
  · intro hkept b hb p hlast
    have hp := (ProfileTable.of_lastActiveAt hlast).1
    have hzero := (hkept p hp).symm.trans (historyOf_writes dao list hb hlast)
    simpa [Profile.history] using hzero
  · intro hzero
    have hstart : Unharmed table list table := by
      refine ⟨fun p hp => ?_, fun b hb q hlast => Or.inl ?_⟩
      · rw [ProfileTable.historyOf, ProfileTable.getProfile_iff.2 ⟨hp, rfl⟩, Option.map_some]
      · obtain ⟨htx, hrx, horder⟩ := hzero b hb q hlast
        rw [Profile.history, htx, hrx, horder]
    exact (Unharmed.writes dao list (fun _ hb => hb) hstart).kept

def usedProfile : Profile := { id := 7, host := "10.0.0.1".toList, remotePort := 1, tx := 100, rx := 200 }

/-- **The traffic of a session is forgotten at the next start.** -/
theorem traffic_forgotten :
    ∃ used, oneProfile.persistStats 7 100 200 = .ok used ∧ ¬ KeepsHistory rowIds threeBeans used := by
  refine ⟨oneProfile.update usedProfile, rfl, ?_⟩
  rw [keepsHistory_iff]
  intro hkept
  have hlast : (oneProfile.update usedProfile).lastActiveAt ("10.0.0.1".toList, 1) = some usedProfile := rfl
  have hgone := historyOf_writes rowIds threeBeans List.mem_cons_self hlast
  rw [hkept usedProfile List.mem_cons_self] at hgone
  exact absurd hgone (by decide)

end Riddles
