import GoRiddles.KeyValueStore
import GoRiddles.Profiles
import GoRiddles.SearchUrl
import GoRiddles.TextReader
/-!
# DataStore — ports and the profile under edit

`DataStore.kt`, with `parsePort` of `Utils.kt` and `serialize` and `deserialize` of `Profile.kt`.  A port is kept as a text; a
number from an older version is handed out as it is the first time and turned into a text, which is checked from then on.  So
the proxy and the tunnel, which each ask for the port, may be told different ones (`ports_agree_iff`).  The profile under edit
is in the store key by key; a `null` name, a host with blanks around it and a port out of the range do not come back.
-/
namespace Riddles

namespace Key

def id : Text := "profileId".toList
def name : Text := "profileName".toList
def individual : Text := "Proxyed".toList
def portProxy : Text := "portProxy".toList
def portLocalDns : Text := "portLocalDns".toList
def route : Text := "route".toList
def proxyApps : Text := "isProxyApps".toList
def bypass : Text := "isBypassApps".toList
def udpdns : Text := "isUdpDns".toList
def ipv6 : Text := "isIpv6".toList
def metered : Text := "metered".toList
def host : Text := "proxy".toList
def password : Text := "sitekey".toList
def method : Text := "encMethod".toList
def remotePort : Text := "remotePortNum".toList
def remoteDns : Text := "remoteDns".toList
def plugin : Text := "plugin".toList
def udpFallback : Text := "udpFallback".toList
def dirty : Text := "profileDirty".toList

end Key

def parsePort (str : Option Text) (dflt min : Int) : Int :=
  if (str.bind TextReader.toInt).getD dflt < min ∨ 65535 < (str.bind TextReader.toInt).getD dflt then dflt
  else (str.bind TextReader.toInt).getD dflt

/-- **A port that was written is read, if it is one.** -/
theorem parsePort_intToString (k dflt : Int) {min : Int} (hmin : -2147483648 ≤ min) :
    parsePort (some (intToString k)) dflt min = if min ≤ k ∧ k ≤ 65535 then k else dflt := by
  have hread : TextReader.toInt (intToString k) = if -2147483648 ≤ k ∧ k ≤ 2147483647 then some k else none :=
    TextReader.toInt_signed k
  unfold parsePort
  rw [Option.bind_some, hread]
  by_cases h : -2147483648 ≤ k ∧ k ≤ 2147483647
  · rw [if_pos h, Option.getD_some]
    by_cases hin : min ≤ k ∧ k ≤ 65535
    · rw [if_neg (by omega), if_pos hin]
    · rw [if_pos (by omega), if_neg hin]
  · rw [if_neg h, Option.getD_none, ite_self, if_neg (by omega)]

namespace DataStore

open RoomPreferenceDataStore

/-! ## Ports -/

/-- `getLocalPort`; `userIndex` is the number of the Android user. -/
def getLocalPort (userIndex : Int) (key : Text) (dflt : Int) (s : RoomPreferenceDataStore) :
    Except BufferFailure (Int × RoomPreferenceDataStore) :=
  match s.getInt key with
  | .error e => .error e
  | .ok (some value) => .ok (value.toInt, s.putString key (some (intToString value.toInt)))
  | .ok none =>
    match s.getString key with
    | .error e => .error e
    | .ok str  => .ok (parsePort str (wrap (dflt + userIndex)) 1025, s)

def portProxy (userIndex : Int) : RoomPreferenceDataStore → Except BufferFailure (Int × RoomPreferenceDataStore) :=
  getLocalPort userIndex Key.portProxy 1080

def portLocalDns (userIndex : Int) : RoomPreferenceDataStore → Except BufferFailure (Int × RoomPreferenceDataStore) :=
  getLocalPort userIndex Key.portLocalDns 5450

/-- The ports that a start of the VPN service asks for, in this order: those of the proxy's configuration, then those on the
command line of the tunnel. -/
structure Ports where
  localPort       : Int
  localUdpPort    : Int
  localDnsPort    : Int
  socksServerPort : Int
  dnsGatewayPort  : Int

def startPorts (userIndex : Int) (s : RoomPreferenceDataStore) : Except BufferFailure Ports := do
  let (localPort, s) ← portProxy userIndex s
  let (localUdpPort, s) ← portProxy userIndex s
  let (localDnsPort, s) ← portLocalDns userIndex s
  let (socksServerPort, s) ← portProxy userIndex s
  let (dnsGatewayPort, _) ← portLocalDns userIndex s
  return ⟨localPort, localUdpPort, localDnsPort, socksServerPort, dnsGatewayPort⟩

section
variable {s : RoomPreferenceDataStore} {values : Text → Option StoredValue} {userIndex dflt : Int} {key : Text}

/-- The number that is kept for a port. -/
def numberAt (v : Option StoredValue) : Option Int := (v.bind StoredValue.asLong).map (fun n => (n.setWidth 32).toInt)

/-- What is kept once the port has been asked for. -/
def settled (v : Option StoredValue) : Option StoredValue :=
  match numberAt v with
  | some n => some (.string (intToString n))
  | none   => v

/-- The port that is handed out. -/
def portOf (v : Option StoredValue) (dflt : Int) : Int :=
  match numberAt v with
  | some n => n
  | none   => parsePort (v.bind StoredValue.asString) dflt 1025

theorem settled_some {v : Option StoredValue} {n : Int} (h : numberAt v = some n) :
    settled v = some (.string (intToString n)) := by
  rw [settled, h]

theorem settled_none {v : Option StoredValue} (h : numberAt v = none) : settled v = v := by
  rw [settled, h]

def settle (values : Text → Option StoredValue) (key : Text) : Text → Option StoredValue :=
  fun k => if k = key then settled (values key) else values k

theorem settled_settled (v : Option StoredValue) : settled (settled v) = settled v := by
  cases hn : numberAt v with
  | none => rw [settled_none hn, settled_none hn]
  | some n =>
    rw [settled_some hn]
    exact settled_none rfl

/-- **From the second time on a port is checked.** -/
theorem portOf_settled (v : Option StoredValue) (dflt : Int) : portOf (settled v) dflt =
    match numberAt v with
    | some n => if 1025 ≤ n ∧ n ≤ 65535 then n else dflt
    | none   => portOf v dflt := by
  cases hn : numberAt v with
  | none => rw [settled_none hn]
  | some n =>
    rw [settled_some hn]
    exact parsePort_intToString n dflt (by decide)

theorem getLocalPort_eq (h : Represents s values) (userIndex : Int) (key : Text) (dflt : Int) :
    ∃ t, getLocalPort userIndex key dflt s = .ok (portOf (values key) (wrap (dflt + userIndex)), t) ∧
      Represents t (settle values key) := by
  cases hlong : (values key).bind StoredValue.asLong with
  | some n =>
    have hnumber : numberAt (values key) = some (n.setWidth 32).toInt := by simp [numberAt, hlong]
    have hsettle : settle values key = written values (.putString key (some (intToString (n.setWidth 32).toInt))) := by
      funext k
      rw [settle, settled_some hnumber]
      rfl
    refine ⟨s.putString key (some (intToString (n.setWidth 32).toInt)), ?_, ?_⟩
    · rw [getLocalPort, getInt_of_get (h key), hlong, portOf, hnumber]
      rfl
    · rw [hsettle]
      exact represents_run h (.putString key (some (intToString (n.setWidth 32).toInt)))
  | none =>
    have hnumber : numberAt (values key) = none := by simp [numberAt, hlong]
    have hsettle : settle values key = values := by
      funext k
      rw [settle, settled_none hnumber]
      split
      · rename_i hk
        rw [hk]
      · rfl
    refine ⟨s, ?_, ?_⟩
    · rw [getLocalPort, getInt_of_get (h key), getString_of_get (h key), hlong, portOf, hnumber]
      rfl
    · rw [hsettle]
      exact h

/-- A port that is the same each time it is asked for. -/
def Steady (v : Option StoredValue) (dflt : Int) : Prop :=
  ∀ n, numberAt v = some n → 1025 ≤ n ∧ n ≤ 65535 ∨ n = dflt

theorem portOf_settled_iff (v : Option StoredValue) (dflt : Int) :
    portOf v dflt = portOf (settled v) dflt ↔ Steady v dflt := by
  rw [portOf_settled]
  unfold Steady
  cases hn : numberAt v with
  | none => simp
  | some n =>
    simp only [portOf, hn, Option.some.injEq, forall_eq']
    split
    · simp_all
    · simp_all

end

/-- **When the tunnel and the proxy agree on their ports.**  The start of the service reads all the ports without an
exception; the tunnel is told the port at which the proxy listens, and the port of its name server, just when neither of the
two was kept as a number out of the range of ports. -/
theorem ports_agree_iff {s : RoomPreferenceDataStore} {values : Text → Option StoredValue} (h : Represents s values)
    (userIndex : Int) :
    ∃ p, startPorts userIndex s = .ok p ∧ p.localUdpPort = p.socksServerPort ∧
      (p.socksServerPort = p.localPort ∧ p.dnsGatewayPort = p.localDnsPort ↔
        Steady (values Key.portProxy) (wrap (1080 + userIndex)) ∧
          Steady (values Key.portLocalDns) (wrap (5450 + userIndex))) := by
  have hkeys : Key.portLocalDns ≠ Key.portProxy := by decide
  obtain ⟨s₁, hread₁, hs₁⟩ := getLocalPort_eq h userIndex Key.portProxy 1080
  obtain ⟨s₂, hread₂, hs₂⟩ := getLocalPort_eq hs₁ userIndex Key.portProxy 1080
  obtain ⟨s₃, hread₃, hs₃⟩ := getLocalPort_eq hs₂ userIndex Key.portLocalDns 5450
  obtain ⟨s₄, hread₄, hs₄⟩ := getLocalPort_eq hs₃ userIndex Key.portProxy 1080
  obtain ⟨s₅, hread₅, -⟩ := getLocalPort_eq hs₄ userIndex Key.portLocalDns 5450
  have hports := show startPorts userIndex s = .ok _ by
    simp only [startPorts, portProxy, portLocalDns, bind, Except.bind, hread₁, hread₂, hread₃, hread₄, hread₅]
    rfl
  refine ⟨_, hports, ?_, ?_⟩
  · simp [settle, settled_settled, hkeys.symm]
  · simp only [settle, if_true, hkeys, hkeys.symm, if_false, settled_settled]
    rw [← portOf_settled_iff, ← portOf_settled_iff]
    exact and_congr eq_comm eq_comm

/-- A store of an older version, with a port below the range. -/
def olderStore : RoomPreferenceDataStore := LinkedMap.empty.put Key.portProxy (.ofInt 1000)

theorem ports_agree_iff_older :
    ∃ p, startPorts 0 olderStore = .ok p ∧ p.localUdpPort = p.socksServerPort ∧
      ¬ (p.socksServerPort = p.localPort ∧ p.dnsGatewayPort = p.localDnsPort) := by
  have h : Represents olderStore (fun k => if k = Key.portProxy then some (.int 1000) else none) := by
    intro k
    rw [olderStore, LinkedMap.get_put]
    by_cases hk : k = Key.portProxy <;> simp [hk, StoredValue.pair]
  obtain ⟨p, hp, hudp, hiff⟩ := ports_agree_iff h 0
  refine ⟨p, hp, hudp, fun hagree => ?_⟩
  rcases (hiff.1 hagree).1 1000 (by decide) with hrange | hdflt
  · omega
  · exact absurd hdflt (by decide)

end DataStore

/-! ## The profile under edit -/

namespace RoomPreferenceDataStore

theorem get_calls_of_not_mem : ∀ {calls : List Call} {s : RoomPreferenceDataStore} {k : Text},
    k ∉ calls.map Call.key → LinkedMap.get (calls.foldl Call.run s) k = s.get k
  | [], _, _, _ => rfl
  | c :: calls, s, k, h => by
    rw [List.map_cons, List.mem_cons, not_or] at h
    rw [List.foldl_cons, get_calls_of_not_mem h.2, get_run, if_neg h.1]

/-- **Calls for different keys do not disturb one another**, whatever the table was. -/
theorem get_calls_of_nodup : ∀ {calls : List Call} {s : RoomPreferenceDataStore}, (calls.map Call.key).Nodup →
    ∀ c ∈ calls, LinkedMap.get (calls.foldl Call.run s) c.key = c.value.map StoredValue.pair
  | c' :: calls, s, h, c, hc => by
    rw [List.map_cons, List.nodup_cons] at h
    rcases List.mem_cons.1 hc with rfl | hc
    · rw [List.foldl_cons, get_calls_of_not_mem h.1, get_run, if_pos rfl]
    · exact get_calls_of_nodup h.2 c hc

end RoomPreferenceDataStore

inductive DeserializeFailure where
  | buffer (e : BufferFailure)
  | thrown (e : Thrown)

namespace Profile

open RoomPreferenceDataStore

/-- The calls of `serialize`, those made through the properties of `DataStore` among them. -/
def serializeCalls (p : Profile) : List Call :=
  [.putLong Key.id (some (.ofNat 64 p.id)), .putString Key.name p.name, .putString Key.host (some p.host),
    .putString Key.remotePort (some (intToString p.remotePort)), .putString Key.password (some p.password),
    .putString Key.route (some p.route), .putString Key.remoteDns (some p.remoteDns), .putString Key.method (some p.method),
    .putBoolean Key.proxyApps (some p.proxyApps), .putBoolean Key.bypass (some p.bypass),
    .putBoolean Key.udpdns (some p.udpdns), .putBoolean Key.ipv6 (some p.ipv6), .putBoolean Key.metered (some p.metered),
    .putString Key.individual (some p.individual), .putString Key.plugin (some (p.plugin.getD [])),
    .putLong Key.udpFallback (p.udpFallback.map (BitVec.ofNat 64)), .remove Key.dirty]

def serialize (p : Profile) (s : RoomPreferenceDataStore) : RoomPreferenceDataStore := p.serializeCalls.foldl Call.run s

/-- The assignments of `deserialize`. -/
def readFrom (p : Profile) (s : RoomPreferenceDataStore) : Except BufferFailure Profile := do
  let name ← s.getString Key.name
  let host ← s.getString Key.host
  let remotePort ← s.getString Key.remotePort
  let password ← s.getString Key.password
  let method ← s.getString Key.method
  let route ← s.getString Key.route
  let remoteDns ← s.getString Key.remoteDns
  let proxyApps ← s.getBoolean Key.proxyApps
  let bypass ← s.getBoolean Key.bypass
  let udpdns ← s.getBoolean Key.udpdns
  let ipv6 ← s.getBoolean Key.ipv6
  let metered ← s.getBoolean Key.metered
  let individual ← s.getString Key.individual
  let plugin ← s.getString Key.plugin
  let udpFallback ← s.getLong Key.udpFallback
  return { p with
    name        := some (name.getD [])
    host        := TextReader.trim isWhitespace (host.getD [])
    remotePort  := parsePort remotePort 8388 1
    password    := password.getD []
    method      := method.getD []
    route       := route.getD []
    remoteDns   := remoteDns.getD []
    proxyApps   := proxyApps.getD false
    bypass      := bypass.getD false
    udpdns      := udpdns.getD false
    ipv6        := ipv6.getD false
    metered     := metered.getD false
    individual  := individual.getD []
    plugin      := some (plugin.getD [])
    udpFallback := udpFallback.map BitVec.toNat }

/-- `deserialize` on the object `p`, with what is left in the store. -/
def deserialize (p : Profile) (s : RoomPreferenceDataStore) :
    Except DeserializeFailure (Profile × RoomPreferenceDataStore) :=
  match s.getLong Key.id with
  | .error e => .error (.buffer e)
  | .ok editingId =>
    if p.id = 0 ∨ editingId = some (.ofNat 64 p.id) then
      match p.readFrom (s.putLong Key.id none) with
      | .error e => .error (.buffer e)
      | .ok q    => .ok (q, s.putLong Key.id none)
    else .error (.thrown (.illegalState "Check failed.".toList))

/-- `p` with the settings of `q`, as they are after an edit that changed none. -/
def tidied (p q : Profile) : Profile :=
  { q with
    id           := p.id
    subscription := p.subscription
    tx           := p.tx
    rx           := p.rx
    userOrder    := p.userOrder
    name         := some (q.name.getD [])
    host         := TextReader.trim isWhitespace q.host
    remotePort   := if 1 ≤ q.remotePort ∧ q.remotePort ≤ 65535 then q.remotePort else 8388
    plugin       := some (q.plugin.getD []) }

theorem nodup_serializeCalls (q : Profile) : (q.serializeCalls.map Call.key).Nodup := by
  show [Key.id, Key.name, Key.host, Key.remotePort, Key.password, Key.route, Key.remoteDns, Key.method, Key.proxyApps,
    Key.bypass, Key.udpdns, Key.ipv6, Key.metered, Key.individual, Key.plugin, Key.udpFallback, Key.dirty].Nodup
  decide

/-- Each key that is read was written. -/
theorem readFrom_serialize (s : RoomPreferenceDataStore) (p q : Profile) (hfallback : ∀ f ∈ q.udpFallback, f < 2 ^ 64) :
    p.readFrom ((q.serialize s).putLong Key.id none) = .ok (p.tidied q) := by
  have hget : ∀ c ∈ q.serializeCalls, c.key ≠ Key.id →
      LinkedMap.get ((q.serialize s).putLong Key.id none) c.key = c.value.map StoredValue.pair := by
    intro c hc hid
    refine (get_run (q.serialize s) (.putLong Key.id none) c.key).trans ?_
    rw [Call.key, if_neg hid]
    exact get_calls_of_nodup (nodup_serializeCalls q) c hc
  have hnameback : (q.name.map StoredValue.string).bind StoredValue.asString = q.name := by cases q.name <;> rfl
  have hudpback : (((q.udpFallback.map (BitVec.ofNat 64)).map StoredValue.long).bind StoredValue.asLong).map BitVec.toNat =
      q.udpFallback := by
    cases hf : q.udpFallback with
    | none => rfl
    | some f =>
      simp only [Option.map_some, Option.bind_some, StoredValue.asLong, BitVec.toNat_ofNat, Nat.mod_eq_of_lt (hfallback f hf)]
  have hread := parsePort_intToString q.remotePort 8388 (show -2147483648 ≤ (1 : Int) by decide)
  generalize (q.serialize s).putLong Key.id none = t at hget
  simp only [serializeCalls, List.forall_mem_cons, Call.key, Call.value] at hget
  obtain ⟨-, hname, hhost, hport, hpassword, hroute, hdns, hmethod, happs, hbypass, hudpdns, hipv6, hmetered, hindividual,
    hplugin, hudp, -⟩ := hget
  simp only [readFrom, bind, Except.bind, getString_of_get (hname (by decide)), getString_of_get (hhost (by decide)),
    getString_of_get (hport (by decide)), getString_of_get (hpassword (by decide)), getString_of_get (hroute (by decide)),
    getString_of_get (hdns (by decide)), getString_of_get (hmethod (by decide)), getBoolean_of_get (happs (by decide)),
    getBoolean_of_get (hbypass (by decide)), getBoolean_of_get (hudpdns (by decide)),
    getBoolean_of_get (hipv6 (by decide)), getBoolean_of_get (hmetered (by decide)),
    getString_of_get (hindividual (by decide)), getString_of_get (hplugin (by decide)), getLong_of_get (hudp (by decide)),
    Option.map_some, Option.bind_some, StoredValue.asString, StoredValue.asBoolean, Option.getD_some, hnameback, hudpback,
    hread]
  rfl

/-- The id that the profile is edited under. -/
theorem editingId_serialize (s : RoomPreferenceDataStore) (q : Profile) :
    (q.serialize s).getLong Key.id = .ok (some (.ofNat 64 q.id)) := by
  have hid : LinkedMap.get (q.serialize s) Key.id = (some (.long (.ofNat 64 q.id))).map StoredValue.pair :=
    get_calls_of_nodup (nodup_serializeCalls q) (.putLong Key.id (some (.ofNat 64 q.id))) List.mem_cons_self
  exact getLong_of_get hid

/-- **An edit that changes nothing tidies the profile**, whatever else is in the table.  What one object writes another with
its id, or a new one, reads back: with an empty name or plugin in place of none, the host trimmed, and 8388 for a port out of
the range.  After that no edit is under way; an object with another id is refused. -/
theorem deserialize_serialize (s : RoomPreferenceDataStore) (p q : Profile) (hp : p.id < 2 ^ 64) (hq : q.id < 2 ^ 64)
    (hfallback : ∀ f ∈ q.udpFallback, f < 2 ^ 64) :
    (p.id = 0 ∨ p.id = q.id → ∃ t, p.deserialize (q.serialize s) = .ok (p.tidied q, t) ∧ t.getLong Key.id = .ok none ∧
      ∀ r : Profile, r.id ≠ 0 → r.deserialize t = .error (.thrown (.illegalState "Check failed.".toList))) ∧
    (p.id ≠ 0 → p.id ≠ q.id →
      p.deserialize (q.serialize s) = .error (.thrown (.illegalState "Check failed.".toList))) := by
  have hid := editingId_serialize s q
  have hsame : some (BitVec.ofNat 64 q.id) = some (BitVec.ofNat 64 p.id) ↔ p.id = q.id := by
    rw [Option.some.injEq, ← BitVec.toNat_inj, BitVec.toNat_ofNat, BitVec.toNat_ofNat, Nat.mod_eq_of_lt hp,
      Nat.mod_eq_of_lt hq, eq_comm]
  constructor
  · intro hopen
    have hclosed : RoomPreferenceDataStore.getLong ((q.serialize s).putLong Key.id none) Key.id = .ok none := by
      have hnone : LinkedMap.get ((q.serialize s).putLong Key.id none) Key.id =
          (none : Option StoredValue).map StoredValue.pair :=
        (get_run (q.serialize s) (.putLong Key.id none) Key.id).trans (if_pos rfl)
      exact getLong_of_get hnone
    refine ⟨(q.serialize s).putLong Key.id none, ?_, hclosed, fun r hr => ?_⟩
    · rw [deserialize, hid]
      simp only [hsame, hopen, if_true, readFrom_serialize s p q hfallback]
    · rw [deserialize, hclosed]
      simp [hr]
  · intro hzero hother
    rw [deserialize, hid]
    simp only [hsame, hzero, hother, or_self, if_false]

/-- A profile whose host and port need care. -/
def untidy : Profile := { id := 3, name := none, host := " example.org".toList, remotePort := 70000, udpFallback := some 4 }

theorem deserialize_serialize_untidy :
    untidy.tidied untidy = { untidy with
      name := some [], host := "example.org".toList, remotePort := 8388, plugin := some [] } ∧
    ∃ t, untidy.deserialize (untidy.serialize .empty) = .ok (untidy.tidied untidy, t) := by
  have hfallback : ∀ f ∈ untidy.udpFallback, f < 2 ^ 64 := by
    intro f hf
    cases hf
    decide
  obtain ⟨t, hread, -⟩ := (deserialize_serialize .empty untidy untidy (by decide) (by decide) hfallback).1 (.inr rfl)
  exact ⟨by decide +kernel, t, hread⟩

end Profile
end Riddles
