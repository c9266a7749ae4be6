import GoRiddles.Cache
import GoRiddles.Usr
import Mathlib.Data.List.Sort
/-!
# Profiles — the profile table and the servers of the list

`Profile.kt` and `ProfileManager.kt` as far as the service and the server list read them, `ServerBean.kt` and
`ServerInfoManager.kt`.  A profile id is the primary key of the table: no two rows share one and no row has id 0, which
is what `getServerId` returns when it finds no row.
-/
namespace Riddles

inductive SubscriptionStatus where
  | userConfigured
  | active
  | obsolete
  deriving DecidableEq, Repr

/-- A row of the table, with the defaults of its columns. -/
structure Profile where
  id           : Nat                := 0
  name         : Option Text        := some []
  host         : Text               := []
  remotePort   : Int                := 0
  password     : Text               := []
  method       : Text               := []
  route        : Text               := "all".toList
  remoteDns    : Text               := "dns.google".toList
  proxyApps    : Bool               := false
  bypass       : Bool               := false
  udpdns       : Bool               := false
  ipv6         : Bool               := false
  metered      : Bool               := false
  individual   : Text               := []
  plugin       : Option Text        := none
  udpFallback  : Option Nat         := none
  subscription : SubscriptionStatus := .userConfigured
  tx           : Int                := 0
  rx           : Int                := 0
  userOrder    : Nat                := 0
  deriving DecidableEq, Repr

namespace Profile

def formattedAddress (p : Profile) : Text :=
  (if p.host.contains ':' then "[".toList ++ p.host ++ "]".toList else p.host) ++ ":".toList ++ intToString p.remotePort

/-- `name.isNullOrEmpty()` falls back to the address. -/
def formattedName (p : Profile) : Text :=
  match p.name with
  | none | some [] => p.formattedAddress
  | some name => name

/-- Where the profile connects to. -/
def address (p : Profile) : Text × Int := (p.host, p.remotePort)

end Profile

/-! ## `ProfileManager` -/

structure ProfileTable where
  rows        : List Profile
  ids_nodup   : (rows.map Profile.id).Nodup
  ids_ne_zero : ∀ p ∈ rows, p.id ≠ 0

namespace ProfileTable

variable (table : ProfileTable)

def getProfile (id : Nat) : Option Profile := table.rows.find? (fun p => p.id == id)

/-- `SELECT * FROM Profile WHERE Subscription != 2 ORDER BY userOrder`. -/
def getActiveProfiles : List Profile :=
  (table.rows.filter (fun p => p.subscription ≠ .obsolete)).insertionSort (fun p q => p.userOrder ≤ q.userOrder)

variable {table}

theorem mem_of_mem_getActiveProfiles {p : Profile} (h : p ∈ table.getActiveProfiles) : p ∈ table.rows := by
  unfold getActiveProfiles at h
  rw [List.mem_insertionSort] at h
  exact List.mem_of_mem_filter h

theorem getProfile_eq_some {id : Nat} {p : Profile} (h : table.getProfile id = some p) : p ∈ table.rows ∧ p.id = id := by
  have hid := List.find?_some h
  exact ⟨List.mem_of_find?_eq_some h, beq_iff_eq.1 hid⟩

theorem eq_of_id_eq {p q : Profile} (hp : p ∈ table.rows) (hq : q ∈ table.rows) (h : p.id = q.id) : p = q :=
  List.inj_on_of_nodup_map table.ids_nodup hp hq h

end ProfileTable

/-! ## `ServerBean` and `ServerInfoManager` -/

/-- What `ServerBean` says when its country is not given. -/
def fasterServer : Text := "Faster server".toList

structure ServerBean where
  goRiPwd     : Text := []
  goRiAccount : Text := []
  goRiPort    : Int  := 0
  goRiCountry : Text := fasterServer
  goRiCity    : Text := []
  goRiIp      : Text := []
  deriving DecidableEq, Repr

namespace ServerBean

def isFast (b : ServerBean) : Bool := b.goRiCountry = fasterServer ∧ b.goRiIp = []

def address (b : ServerBean) : Text × Int := (b.goRiIp, b.goRiPort)

/-- The id of the first active profile at the bean's address, 0 if there is none. -/
def getServerId (b : ServerBean) (table : ProfileTable) : Nat :=
  match table.getActiveProfiles.find? (fun p => p.host = b.goRiIp ∧ p.remotePort = b.goRiPort) with
  | some p => p.id
  | none => 0

/-- **A server's id leads to its address**: the profile with the id of a server, if there is one, is at the address of
the server. -/
theorem address_of_getServerId {b : ServerBean} {table : ProfileTable} {p : Profile}
    (h : table.getProfile (b.getServerId table) = some p) : p.address = b.address := by
  obtain ⟨hp, hid⟩ := ProfileTable.getProfile_eq_some h
  unfold getServerId at hid
  split at hid
  · rename_i q hq
    have hrow := ProfileTable.mem_of_mem_getActiveProfiles (List.mem_of_find?_eq_some hq)
    have heq := ProfileTable.eq_of_id_eq hp hrow hid
    have haddr := List.find?_some hq
    rw [decide_eq_true_iff] at haddr
    rw [heq]
    exact Prod.ext haddr.1 haddr.2
  · exact absurd hid (table.ids_ne_zero p hp)

end ServerBean

structure ServerInfoManager where
  cityList         : List Text
  localServerList  : List ServerBean
  onlineServerList : List ServerBean

namespace ServerInfoManager

def getAllServerList (m : ServerInfoManager) : List ServerBean :=
  if m.onlineServerList = [] then m.localServerList else m.onlineServerList

/-- `Collection.random`, the draw reduced to an index; it throws on an empty collection. -/
def random {α : Type} (l : List α) (draw : Nat) : Except Thrown α :=
  match l[draw % l.length]? with
  | some a => .ok a
  | none => .error .noSuchElement

def getFastServer (m : ServerInfoManager) (draw : Nat) : Except Thrown ServerBean :=
  let serverList := m.getAllServerList
  let filter := serverList.filter (fun b => m.cityList.contains b.goRiCity)
  if m.cityList ≠ [] ∧ filter ≠ [] then random filter draw else random serverList draw

/-- The list of `ServerAdapter`. -/
def adapterList (m : ServerInfoManager) : List ServerBean := {} :: m.getAllServerList

end ServerInfoManager
end Riddles
