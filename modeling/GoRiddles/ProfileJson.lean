import GoRiddles.PluginConfiguration
import GoRiddles.Profiles
import GoRiddles.TextReader
/-!
# ProfileJson — profiles as JSON

`JsonParser` and `toJson` of `Profile.kt`, and `serializeToJson` of `ProfileManager.kt`, on trees: the text between the writer
and the reader is the business of their libraries.  The reader takes an object with a server, a port, a password and a method
for a profile, and looks for profiles in the values of any other.
-/
namespace Riddles

/-- A tree as Gson has it.  The names of an object are distinct, and a number is kept as it was spelt. -/
inductive JsonElement where
  | null
  | boolean (value : Bool)
  | number (text : Text)
  | string (value : Text)
  | array (elements : List JsonElement)
  | object (members : List (Text × JsonElement))

/-- What is left to the platform: `LazilyParsedNumber.intValue`, which cuts what is no `Int` down to one, and the order of a
hash map. -/
structure Runtime where
  intValue       : Text → Int
  intValue_ofInt : ∀ k : Int, -2147483648 ≤ k → k ≤ 2147483647 → intValue (intToString k) = k
  hash           : PluginOptions.Iteration

namespace JsonElement

/-- The names that profiles use. -/
inductive Field where
  | server | serverPort | password | method | plugin | pluginOpts | remarks | route | remoteDns | ipv6 | metered
  | proxyApps | enabled | bypass | androidList | udpdns | udpFallback
  deriving DecidableEq, Repr

def Field.name : Field → Text
  | .server      => "server".toList
  | .serverPort  => "server_port".toList
  | .password    => "password".toList
  | .method      => "method".toList
  | .plugin      => "plugin".toList
  | .pluginOpts  => "plugin_opts".toList
  | .remarks     => "remarks".toList
  | .route       => "route".toList
  | .remoteDns   => "remote_dns".toList
  | .ipv6        => "ipv6".toList
  | .metered     => "metered".toList
  | .proxyApps   => "proxy_apps".toList
  | .enabled     => "enabled".toList
  | .bypass      => "bypass".toList
  | .androidList => "android_list".toList
  | .udpdns      => "udpdns".toList
  | .udpFallback => "udp_fallback".toList

/-- `JsonObject.get`. -/
def member (members : List (Text × JsonElement)) (field : Field) : Option JsonElement :=
  (members.find? (fun m => m.1 = field.name)).map Prod.snd

def optString : Option JsonElement → Option Text
  | some (.boolean value) => some (if value then "true".toList else "false".toList)
  | some (.number text)   => some text
  | some (.string value)  => some value
  | _                     => none

def optBoolean : Option JsonElement → Option Bool
  | some (.boolean value) => some value
  | _                     => none

/-- `asInt`; a `NumberFormatException` gives `null`. -/
def optInt (runtime : Runtime) : Option JsonElement → Option Int
  | some (.number text) => some (runtime.intValue text)
  | json                => (optString json).bind TextReader.toInt

def optObject : Option JsonElement → Option (List (Text × JsonElement))
  | some (.object members) => some members
  | _                      => none

def optArray : Option JsonElement → Option (List JsonElement)
  | some (.array elements) => some elements
  | _                      => none

end JsonElement

namespace Profile

def copyFeatureSettingsTo (p profile : Profile) : Profile :=
  { profile with
    route      := p.route
    ipv6       := p.ipv6
    metered    := p.metered
    proxyApps  := p.proxyApps
    bypass     := p.bypass
    individual := p.individual
    udpdns     := p.udpdns }

/-- A new profile, with the settings of another if there is one. -/
def featured (feature : Option Profile) : Profile :=
  match feature with
  | some p => p.copyFeatureSettingsTo {}
  | none   => {}

end Profile

/-- The parser's list of profiles, and `fallbackMap`. -/
structure JsonParser where
  profiles    : List Profile
  fallbackMap : LinkedMap Profile Profile

namespace JsonParser

open JsonElement

def new : JsonParser := ⟨[], .empty⟩

/-- `isNullOrEmpty`, the other way round. -/
def nonEmpty : Option Text → Option Text
  | none | some [] => none
  | some t         => some t

section
variable (runtime : Runtime) (feature : Option Profile)

def readPlugin (json : List (Text × JsonElement)) : Except Thrown (Option Text) :=
  match nonEmpty (optString (member json .plugin)) with
  | none    => .ok none
  | some id =>
    (PluginOptions.ofOptions id ((optString (member json .pluginOpts)).getD [])).map
      (fun o => some (o.toString runtime.hash false))

/-- The part of `tryParse` that is done for a fallback too: up to the route. -/
def tryParseServer (json : List (Text × JsonElement)) : Except Thrown (Option Profile) :=
  match nonEmpty (optString (member json .server)), (optInt runtime (member json .serverPort)).filter (0 < ·),
      nonEmpty (optString (member json .password)), nonEmpty (optString (member json .method)) with
  | some host, some remotePort, some password, some method =>
    (readPlugin runtime json).map (fun plugin => some { Profile.featured feature with
      host       := host
      remotePort := remotePort
      password   := password
      method     := method
      plugin     := plugin
      name       := optString (member json .remarks)
      route      := (optString (member json .route)).getD (Profile.featured feature).route })
  | _, _, _, _ => .ok none

/-- What `tryParse` reads of the object for a profile that is no fallback. -/
def readSettings (json : List (Text × JsonElement)) (p : Profile) : Profile :=
  let apps := optObject (member json .proxyApps)
  { p with
    remoteDns  := (optString (member json .remoteDns)).getD p.remoteDns
    ipv6       := (optBoolean (member json .ipv6)).getD p.ipv6
    metered    := (optBoolean (member json .metered)).getD p.metered
    proxyApps  := (apps.bind (fun apps => optBoolean (member apps .enabled))).getD p.proxyApps
    bypass     := (apps.bind (fun apps => optBoolean (member apps .bypass))).getD p.bypass
    individual := ((apps.bind (fun apps => optArray (member apps .androidList))).map
      (fun list => ['\n'].intercalate (list.filterMap (fun e => optString (some e))))).getD p.individual
    udpdns     := (optBoolean (member json .udpdns)).getD p.udpdns }

/-- `tryParse`, with the fallback that goes to `fallbackMap`. -/
def tryParse (json : List (Text × JsonElement)) : Except Thrown (Option (Profile × Option Profile)) :=
  match tryParseServer runtime feature json with
  | .error e     => .error e
  | .ok none     => .ok none
  | .ok (some p) =>
    match optObject (member json .udpFallback) with
    | none        => .ok (some (readSettings json p, none))
    | some server => (tryParseServer runtime feature server).map (fun fallback => some (readSettings json p, fallback))

/-- A profile is found. -/
def add (s : JsonParser) (found : Profile × Option Profile) : JsonParser :=
  ⟨s.profiles ++ [found.1],
    match found.2 with
    | none          => s.fallbackMap
    | some fallback => s.fallbackMap.put found.1 fallback⟩

mutual

def process (s : JsonParser) : JsonElement → Except Thrown JsonParser
  | .object members =>
    match tryParse runtime feature members with
    | .error e         => .error e
    | .ok (some found) => .ok (s.add found)
    | .ok none         => processMembers s members
  | .array elements => processElements s elements
  | _               => .ok s

def processElements (s : JsonParser) : List JsonElement → Except Thrown JsonParser
  | []              => .ok s
  | json :: elements =>
    match process s json with
    | .error e => .error e
    | .ok s    => processElements s elements

def processMembers (s : JsonParser) : List (Text × JsonElement) → Except Thrown JsonParser
  | []                   => .ok s
  | (_, value) :: members =>
    match process s value with
    | .error e => .error e
    | .ok s    => processMembers s members

end
end

/-! ## What a parser finds -/

section
variable {runtime : Runtime} {feature : Option Profile} {P : JsonParser → Prop}

mutual

/-- **What holds after each profile that is found holds at the end**, wherever the profiles are in the tree. -/
theorem process_inv (hadd : ∀ {s json found}, P s → tryParse runtime feature json = .ok (some found) → P (s.add found)) :
    ∀ (json : JsonElement) {s t : JsonParser}, P s → process runtime feature s json = .ok t → P t
  | .object members, s, t, hs, h => by
    rw [process] at h
    split at h
    · cases h
    · rename_i found hfound
      cases h
      exact hadd hs hfound
    · exact processMembers_inv hadd members hs h
  | .array elements, s, t, hs, h => by
    rw [process] at h
    exact processElements_inv hadd elements hs h
  | .null, s, t, hs, h | .boolean _, s, t, hs, h | .number _, s, t, hs, h | .string _, s, t, hs, h => by
    simp only [process, Except.ok.injEq] at h
    exact h ▸ hs

theorem processElements_inv
    (hadd : ∀ {s json found}, P s → tryParse runtime feature json = .ok (some found) → P (s.add found)) :
    ∀ (elements : List JsonElement) {s t : JsonParser}, P s → processElements runtime feature s elements = .ok t → P t
  | [], s, t, hs, h => by
    rw [processElements, Except.ok.injEq] at h
    exact h ▸ hs
  | json :: elements, s, t, hs, h => by
    rw [processElements] at h
    split at h
    · cases h
    · rename_i s' hs'
      exact processElements_inv hadd elements (process_inv hadd json hs hs') h

theorem processMembers_inv
    (hadd : ∀ {s json found}, P s → tryParse runtime feature json = .ok (some found) → P (s.add found)) :
    ∀ (members : List (Text × JsonElement)) {s t : JsonParser}, P s → processMembers runtime feature s members = .ok t → P t
  | [], s, t, hs, h => by
    rw [processMembers, Except.ok.injEq] at h
    exact h ▸ hs
  | (_, value) :: members, s, t, hs, h => by
    rw [processMembers] at h
    split at h
    · cases h
    · rename_i s' hs'
      exact processMembers_inv hadd members (process_inv hadd value hs hs') h

end

/-- Each fallback is that of a profile in the list. -/
theorem fallback_mem {json : JsonElement} {t : JsonParser} (h : process runtime feature new json = .ok t) :
    ∀ e ∈ t.fallbackMap.entries, e.1 ∈ t.profiles := by
  refine process_inv (P := fun s => ∀ e ∈ s.fallbackMap.entries, e.1 ∈ s.profiles) ?_ json ?_ h
  · intro s json found hs _ e he
    rw [add] at he ⊢
    cases hfallback : found.2 with
    | none =>
      rw [hfallback] at he
      exact List.mem_append_left _ (hs e he)
    | some fallback =>
      rw [hfallback] at he
      rcases LinkedMap.mem_put he with rfl | he
      · exact List.mem_append_right _ List.mem_cons_self
      · exact List.mem_append_left _ (hs e he)
  · exact fun e he => absurd he List.not_mem_nil

end
end JsonParser

namespace Profile

open JsonElement

/-- `toJson()`, the members that are always put. -/
def serverMembers (p : Profile) : List (Text × JsonElement) :=
  [(Field.server.name, .string p.host), (Field.serverPort.name, .number (intToString p.remotePort)),
    (Field.password.name, .string p.password), (Field.method.name, .string p.method)]

/-- `PluginConfiguration(plugin ?: "").getOptions()`. -/
def selectedOptions (p : Profile) (defaultConfig : Text) : Except Thrown PluginOptions :=
  match PluginConfiguration.ofText (p.plugin.getD []) with
  | .error e => .error e
  | .ok c    => c.getOptions c.selected defaultConfig

def pluginMembers (runtime : Runtime) (o : PluginOptions) : List (Text × JsonElement) :=
  if o.id = [] then []
  else [(Field.plugin.name, .string o.id), (Field.pluginOpts.name, .string (o.toString runtime.hash true))]

/-- `put` does nothing for `null`. -/
def remarksMembers (p : Profile) : List (Text × JsonElement) :=
  match p.name with
  | none      => []
  | some name => [(Field.remarks.name, .string name)]

def appsMembers (p : Profile) : List (Text × JsonElement) :=
  (Field.enabled.name, .boolean p.proxyApps) ::
    if p.proxyApps then
      [(Field.bypass.name, .boolean p.bypass), (Field.androidList.name, .array ((p.individual.splitOn '\n').map .string))]
    else []

def settingsMembers (p : Profile) : List (Text × JsonElement) :=
  [(Field.route.name, .string p.route), (Field.remoteDns.name, .string p.remoteDns), (Field.ipv6.name, .boolean p.ipv6),
    (Field.metered.name, .boolean p.metered), (Field.proxyApps.name, .object p.appsMembers),
    (Field.udpdns.name, .boolean p.udpdns)]

/-- The fallback that is written with a profile: one of the profiles, without a plugin. -/
def exportedFallback (lookup : Nat → Option Profile) (p : Profile) : Option Profile :=
  (p.udpFallback.bind lookup).filter (fun fallback => fallback.plugin = none ∨ fallback.plugin = some [])

def fallbackMembers (fallback : Option Profile) : List (Text × JsonElement) :=
  match fallback with
  | none          => []
  | some fallback => [(Field.udpFallback.name, .object fallback.serverMembers)]

section
variable (runtime : Runtime)

def members (p : Profile) (o : PluginOptions) (fallback : Option Profile) : List (Text × JsonElement) :=
  p.serverMembers ++ pluginMembers runtime o ++ p.remarksMembers ++ p.settingsMembers ++ fallbackMembers fallback

/-- `toJson(profiles)`. -/
def toJson (p : Profile) (lookup : Nat → Option Profile) (defaultConfig : Text) : Except Thrown JsonElement :=
  (p.selectedOptions defaultConfig).map (fun o => .object (p.members runtime o (p.exportedFallback lookup)))

/-- The profiles by their ids; of two with one id the last is found. -/
def lookup (profiles : List Profile) (id : Nat) : Option Profile := profiles.reverse.find? (fun p => p.id = id)

def serializeAll (lookup : Nat → Option Profile) (defaultConfig : Text) : List Profile → Except Thrown (List JsonElement)
  | []            => .ok []
  | p :: profiles =>
    match p.toJson runtime lookup defaultConfig with
    | .error e => .error e
    | .ok json => (serializeAll lookup defaultConfig profiles).map (json :: ·)

/-- `serializeToJson(profiles)`. -/
def serializeToJson (profiles : List Profile) (defaultConfig : Text) : Except Thrown JsonElement :=
  (serializeAll runtime (lookup profiles) defaultConfig profiles).map .array

end

end Profile

namespace JsonElement

def Field.all : List Field :=
  [.server, .serverPort, .password, .method, .plugin, .pluginOpts, .remarks, .route, .remoteDns, .ipv6, .metered, .proxyApps,
    .enabled, .bypass, .androidList, .udpdns, .udpFallback]

theorem Field.mem_all (f : Field) : f ∈ all := by
  cases f <;> decide

theorem Field.name_inj {f g : Field} : f.name = g.name ↔ f = g := by
  have hnodup : (all.map name).Nodup := by decide
  exact ⟨List.inj_on_of_nodup_map hnodup f.mem_all g.mem_all, congrArg name⟩

theorem member_append (l r : List (Text × JsonElement)) (f : Field) : member (l ++ r) f = (member l f).or (member r f) := by
  rw [member, List.find?_append, Option.map_or]
  rfl

theorem member_cons (f g : Field) (v : JsonElement) (l : List (Text × JsonElement)) :
    member ((f.name, v) :: l) g = if f = g then some v else member l g := by
  unfold member
  by_cases h : f = g
  · rw [List.find?_cons_of_pos (by simpa using Field.name_inj.2 h), if_pos h]
    rfl
  · rw [List.find?_cons_of_neg (by simpa [Field.name_inj] using h), if_neg h]

theorem member_nil (f : Field) : member [] f = none := rfl

end JsonElement

namespace Profile

open JsonElement

theorem member_pluginMembers (runtime : Runtime) (o : PluginOptions) (f : Field) : member (pluginMembers runtime o) f =
    if o.id = [] then none else if .plugin = f then some (.string o.id)
      else if .pluginOpts = f then some (.string (o.toString runtime.hash true)) else none := by
  unfold pluginMembers
  split
  · rfl
  · simp only [member_cons, member_nil]

theorem member_remarksMembers (p : Profile) (f : Field) : member p.remarksMembers f =
    if .remarks = f then p.name.map .string else none := by
  unfold remarksMembers
  cases p.name with
  | none => simp [member_nil]
  | some name => simp [member_cons, member_nil]

theorem member_fallbackMembers (fallback : Option Profile) (f : Field) : member (fallbackMembers fallback) f =
    if .udpFallback = f then fallback.map (fun q => .object q.serverMembers) else none := by
  unfold fallbackMembers
  cases fallback with
  | none => simp [member_nil]
  | some q => simp [member_cons, member_nil]

theorem member_members (runtime : Runtime) (p : Profile) (o : PluginOptions) (fallback : Option Profile) (f : Field) :
    member (p.members runtime o fallback) f = match f with
      | .server      => some (.string p.host)
      | .serverPort  => some (.number (intToString p.remotePort))
      | .password    => some (.string p.password)
      | .method      => some (.string p.method)
      | .plugin      => if o.id = [] then none else some (.string o.id)
      | .pluginOpts  => if o.id = [] then none else some (.string (o.toString runtime.hash true))
      | .remarks     => p.name.map .string
      | .route       => some (.string p.route)
      | .remoteDns   => some (.string p.remoteDns)
      | .ipv6        => some (.boolean p.ipv6)
      | .metered     => some (.boolean p.metered)
      | .proxyApps   => some (.object p.appsMembers)
      | .udpdns      => some (.boolean p.udpdns)
      | .udpFallback => fallback.map (fun q => .object q.serverMembers)
      | .enabled     => none
      | .bypass      => none
      | .androidList => none := by
  cases f <;>
    simp [members, member_append, serverMembers, settingsMembers, member_cons, member_pluginMembers, member_remarksMembers,
      member_fallbackMembers]

theorem member_serverMembers (p : Profile) (f : Field) :
    member p.serverMembers f = match f with
      | .server     => some (.string p.host)
      | .serverPort => some (.number (intToString p.remotePort))
      | .password   => some (.string p.password)
      | .method     => some (.string p.method)
      | _           => none := by
  cases f <;> simp [serverMembers, member_cons, member_nil]

theorem member_appsMembers (p : Profile) (f : Field) :
    member p.appsMembers f = match f with
      | .enabled     => some (.boolean p.proxyApps)
      | .bypass      => if p.proxyApps then some (.boolean p.bypass) else none
      | .androidList => if p.proxyApps then some (.array ((p.individual.splitOn '\n').map .string)) else none
      | _            => none := by
  unfold appsMembers
  cases p.proxyApps <;> cases f <;> simp [member_cons, member_nil]

/-! ## What is read back -/

/-- The profiles that the parser takes for such. -/
structure Complete (p : Profile) : Prop where
  host     : p.host ≠ []
  port     : 0 < p.remotePort
  password : p.password ≠ []
  method   : p.method ≠ []

instance (p : Profile) : Decidable p.Complete :=
  decidable_of_iff (p.host ≠ [] ∧ 0 < p.remotePort ∧ p.password ≠ [] ∧ p.method ≠ [])
    ⟨fun h => ⟨h.1, h.2.1, h.2.2.1, h.2.2.2⟩, fun h => ⟨h.host, h.port, h.password, h.method⟩⟩

/-- The server of a profile, with the settings of another one. -/
def restoredServer (feature : Option Profile) (p : Profile) : Profile :=
  { featured feature with
    host := p.host, remotePort := p.remotePort, password := p.password, method := p.method, plugin := none, name := none }

/-- The profile as it is read: without its id, its place and its traffic, with the plugin `plugin` alone. -/
def restored (feature : Option Profile) (p : Profile) (plugin : Option Text) : Profile :=
  { p.restoredServer feature with
    plugin     := plugin
    name       := p.name
    route      := p.route
    remoteDns  := p.remoteDns
    ipv6       := p.ipv6
    metered    := p.metered
    proxyApps  := p.proxyApps
    bypass     := if p.proxyApps then p.bypass else (featured feature).bypass
    individual := if p.proxyApps then p.individual else (featured feature).individual
    udpdns     := p.udpdns }

/-- The text of the options that are read back, whose entries were put in the order in which they were written. -/
def pluginText (runtime : Runtime) (o : PluginOptions) : Option Text :=
  if o.id = [] then none else some ((o.through runtime.hash).toString runtime.hash false)

section
open JsonParser
variable {runtime : Runtime} {feature : Option Profile}

theorem nonEmpty_eq_some {t u : Text} : nonEmpty (some t) = some u ↔ t ≠ [] ∧ t = u := by
  cases t <;> simp [nonEmpty]

/-- **An object with a server, a port, a password and a method is a profile just when the profile is complete.** -/
theorem tryParseServer_eq {json : List (Text × JsonElement)} {p : Profile}
    (hhost : member json .server = some (.string p.host))
    (hport : member json .serverPort = some (.number (intToString p.remotePort)))
    (hpassword : member json .password = some (.string p.password)) (hmethod : member json .method = some (.string p.method))
    (hlower : -2147483648 ≤ p.remotePort) (hupper : p.remotePort ≤ 2147483647) :
    tryParseServer runtime feature json = if p.Complete then (readPlugin runtime json).map (fun plugin => some
      { p.restoredServer feature with
        plugin := plugin
        name   := optString (member json .remarks)
        route  := (optString (member json .route)).getD (featured feature).route }) else .ok none := by
  unfold tryParseServer
  rw [hhost, hport, hpassword, hmethod]
  simp only [optString, optInt, runtime.intValue_ofInt p.remotePort hlower hupper, TextReader.filter_some]
  by_cases h : p.Complete
  · have hhost' := nonEmpty_eq_some.2 ⟨h.host, rfl⟩
    have hpassword' := nonEmpty_eq_some.2 ⟨h.password, rfl⟩
    have hmethod' := nonEmpty_eq_some.2 ⟨h.method, rfl⟩
    rw [hhost', hpassword', hmethod', if_pos h.port, if_pos h]
    rfl
  · rw [if_neg h]
    split
    · rename_i h₁ h₂ h₃ h₄
      have hpos : 0 < p.remotePort := by
        by_contra hnot
        rw [if_neg hnot] at h₂
        cases h₂
      exact absurd ⟨(nonEmpty_eq_some.1 h₁).1, hpos, (nonEmpty_eq_some.1 h₃).1, (nonEmpty_eq_some.1 h₄).1⟩ h
    · rfl

/-- A port as Kotlin has it. -/
def PortInRange (p : Profile) : Prop := -2147483648 ≤ p.remotePort ∧ p.remotePort ≤ 2147483647

/-- Options that can be written: none, or with a line of their own. -/
def Writable (o : PluginOptions) : Prop := o.id ≠ [] → o.Clean ∧ o.options.get [] ≠ some none

/-- What was read back is written with the same options, though its entries may come in another order. -/
theorem pluginText_same {o : PluginOptions} (ho : Writable o) {text : Text} (htext : text ∈ pluginText runtime o) :
    ∃ p, PluginOptions.ofLine text = .ok p ∧ PluginConfiguration.Same o p := by
  unfold pluginText at htext
  split at htext
  · cases htext
  · rename_i hid
    cases htext
    obtain ⟨hclean, hnamed⟩ := ho hid
    rw [← PluginOptions.get_through runtime.hash] at hnamed
    have hsettled := PluginOptions.settled_of_clean ((PluginOptions.clean_through runtime.hash).2 hclean) hnamed
    obtain ⟨p, hp, hsame, hget⟩ := hsettled.inLine runtime.hash hid
    exact ⟨p, hp, hsame, fun key => (hget key).trans (PluginOptions.get_through runtime.hash o key)⟩

theorem readPlugin_members (p : Profile) {o : PluginOptions} (ho : Writable o) (fallback : Option Profile) :
    readPlugin runtime (p.members runtime o fallback) = .ok (pluginText runtime o) := by
  unfold readPlugin pluginText
  rw [member_members, member_members]
  by_cases hid : o.id = []
  · rw [if_pos hid, if_pos hid, if_pos hid]
    rfl
  · simp only [if_neg hid, optString, nonEmpty_eq_some.2 ⟨hid, rfl⟩, Option.getD_some,
      PluginOptions.ofOptions_toString_through runtime.hash (ho hid).1 (ho hid).2]
    rfl

theorem readSettings_members (p q : Profile) (o : PluginOptions) (fallback : Option Profile) :
    readSettings (p.members runtime o fallback) q = { q with
      remoteDns  := p.remoteDns
      ipv6       := p.ipv6
      metered    := p.metered
      proxyApps  := p.proxyApps
      bypass     := if p.proxyApps then p.bypass else q.bypass
      individual := if p.proxyApps then p.individual else q.individual
      udpdns     := p.udpdns } := by
  unfold readSettings
  simp only [member_members, optObject, Option.bind_some, member_appsMembers]
  cases p.proxyApps with
  | false => simp [optString, optBoolean, optArray]
  | true => simp [optString, optBoolean, optArray, List.intercalate_splitOn]

theorem tryParseServer_serverMembers {p : Profile} (hport : p.PortInRange) :
    tryParseServer runtime feature p.serverMembers = .ok (if p.Complete then some (p.restoredServer feature) else none) := by
  rw [tryParseServer_eq (member_serverMembers p _) (member_serverMembers p _) (member_serverMembers p _)
    (member_serverMembers p _) hport.1 hport.2]
  simp only [member_serverMembers, optString, readPlugin, nonEmpty, Option.getD_none]
  split <;> rfl

theorem tryParseServer_members {p : Profile} (hport : p.PortInRange) {o : PluginOptions} (ho : Writable o)
    (fallback : Option Profile) : tryParseServer runtime feature (p.members runtime o fallback) = .ok (if p.Complete then
      some { p.restoredServer feature with plugin := pluginText runtime o, name := p.name, route := p.route } else none) := by
  have hname : optString (p.name.map JsonElement.string) = p.name := by cases p.name <;> rfl
  have hmember := member_members runtime p o fallback
  rw [tryParseServer_eq (hmember _) (hmember _) (hmember _) (hmember _) hport.1 hport.2, readPlugin_members p ho]
  have hroute : optString (some (.string p.route)) = some p.route := rfl
  simp only [member_members, hname, hroute, Option.getD_some]
  split <;> rfl

/-- The profile and its fallback, as the parser finds them. -/
theorem tryParse_members {p : Profile} (hport : p.PortInRange) {o : PluginOptions} (ho : Writable o)
    {fallback : Option Profile} (hfallback : ∀ q ∈ fallback, q.PortInRange) :
    tryParse runtime feature (p.members runtime o fallback) =
      .ok (if p.Complete then some (p.restored feature (pluginText runtime o),
        (fallback.filter (fun q => q.Complete)).map (restoredServer feature)) else none) := by
  unfold tryParse
  rw [tryParseServer_members hport ho]
  by_cases h : p.Complete
  · rw [if_pos h, if_pos h]
    simp only [readSettings_members, member_members]
    cases fallback with
    | none => rfl
    | some q =>
      simp only [Option.map_some, optObject, tryParseServer_serverMembers (hfallback q rfl), TextReader.filter_some]
      by_cases hq : q.Complete
      · rw [if_pos hq, if_pos hq]
        rfl
      · rw [if_neg hq, if_neg hq]
        rfl
  · rw [if_neg h, if_neg h]

theorem tryParse_serverMembers {p : Profile} (hport : p.PortInRange) :
    tryParse runtime feature p.serverMembers = .ok (if p.Complete then some (p.restoredServer feature, none) else none) := by
  unfold tryParse
  rw [tryParseServer_serverMembers hport]
  by_cases h : p.Complete
  · rw [if_pos h, if_pos h]
    simp only [readSettings, member_serverMembers, optObject, optString, optBoolean, Option.bind_none, Option.getD_none,
      Option.map_none]
  · rw [if_neg h, if_neg h]

/-! ## Whole exports -/

/-- The values of an incomplete profile in which the parser looks for others. -/
theorem processMembers_append (s : JsonParser) : ∀ (l r : List (Text × JsonElement)),
    processMembers runtime feature s (l ++ r) = (processMembers runtime feature s l).bind
      (fun s => processMembers runtime feature s r)
  | [], r => by
    rw [processMembers]
    rfl
  | (name, value) :: l, r => by
    rw [List.cons_append, processMembers, processMembers]
    cases process runtime feature s value with
    | error e => rfl
    | ok s => exact processMembers_append s l r

theorem processElements_strings (s : JsonParser) : ∀ texts : List Text,
    processElements runtime feature s (texts.map .string) = .ok s
  | [] => by rw [List.map_nil, processElements]
  | t :: texts => by
    rw [List.map_cons, processElements, process]
    · exact processElements_strings s texts
    all_goals simp

theorem processMembers_idle {members : List (Text × JsonElement)}
    (h : ∀ m ∈ members, ∀ s, process runtime feature s m.2 = .ok s) (s : JsonParser) :
    processMembers runtime feature s members = .ok s := by
  induction members with
  | nil => rw [processMembers]
  | cons m members ih =>
    obtain ⟨hm, hrest⟩ := List.forall_mem_cons.1 h
    rw [processMembers, hm]
    exact ih hrest

theorem process_primitive (s : JsonParser) {json : JsonElement} (hobject : ∀ members, json ≠ .object members)
    (harray : ∀ elements, json ≠ .array elements) : process runtime feature s json = .ok s := by
  cases json with
  | object members => exact absurd rfl (hobject members)
  | array elements => exact absurd rfl (harray elements)
  | null | boolean value | number text | string value => rw [process] <;> simp

theorem process_apps (p : Profile) (s : JsonParser) : process runtime feature s (.object p.appsMembers) = .ok s := by
  have hparse : tryParse runtime feature p.appsMembers = .ok none := by
    unfold tryParse tryParseServer
    simp only [member_appsMembers, optString, nonEmpty]
  rw [process, hparse]
  refine processMembers_idle (fun m hm s => ?_) s
  unfold appsMembers at hm
  rcases List.mem_cons.1 hm with rfl | hm
  · exact process_primitive s (by simp) (by simp)
  · split at hm
    · rcases List.mem_cons.1 hm with rfl | hm
      · exact process_primitive s (by simp) (by simp)
      · rw [List.mem_singleton] at hm
        rw [hm, process]
        exact processElements_strings s _
    · exact absurd hm List.not_mem_nil

theorem process_serverMembers (p : Profile) {m : Text × JsonElement} (hm : m ∈ p.serverMembers) (s : JsonParser) :
    process runtime feature s m.2 = .ok s := by
  simp only [serverMembers, List.mem_cons, List.not_mem_nil, or_false] at hm
  rcases hm with rfl | rfl | rfl | rfl <;> exact process_primitive s (by simp) (by simp)

theorem process_server {q : Profile} (hport : q.PortInRange) (s : JsonParser) :
    process runtime feature s (.object q.serverMembers) =
      .ok (if q.Complete then s.add (q.restoredServer feature, none) else s) := by
  rw [process, tryParse_serverMembers hport]
  by_cases h : q.Complete
  · rw [if_pos h, if_pos h]
  · rw [if_neg h, if_neg h]
    exact processMembers_idle (fun _ => process_serverMembers q) s

/-- What the parser finds in the export of one profile; an incomplete one is passed over, not its fallback. -/
def found (runtime : Runtime) (feature : Option Profile) (p : Profile) (o : PluginOptions) (fallback : Option Profile) :
    List (Profile × Option Profile) :=
  if p.Complete then
    [(p.restored feature (pluginText runtime o), (fallback.filter (fun q => q.Complete)).map (restoredServer feature))]
  else ((fallback.filter (fun q => q.Complete)).map (fun q => (q.restoredServer feature, none))).toList

/-- No member but the fallback is an object that could be a profile. -/
theorem process_idle (p : Profile) (o : PluginOptions) {m : Text × JsonElement}
    (hm : m ∈ p.serverMembers ++ pluginMembers runtime o ++ p.remarksMembers ++ p.settingsMembers) (s : JsonParser) :
    process runtime feature s m.2 = .ok s := by
  simp only [List.mem_append] at hm
  rcases hm with ((hm | hm) | hm) | hm
  · exact process_serverMembers p hm s
  · unfold pluginMembers at hm
    split at hm
    · exact absurd hm List.not_mem_nil
    · simp only [List.mem_cons, List.not_mem_nil, or_false] at hm
      rcases hm with rfl | rfl <;> exact process_primitive s (by simp) (by simp)
  · unfold remarksMembers at hm
    split at hm
    · exact absurd hm List.not_mem_nil
    · rw [List.mem_singleton] at hm
      rw [hm]
      exact process_primitive s (by simp) (by simp)
  · simp only [settingsMembers, List.mem_cons, List.not_mem_nil, or_false] at hm
    rcases hm with rfl | rfl | rfl | rfl | rfl | rfl
    · exact process_primitive s (by simp) (by simp)
    · exact process_primitive s (by simp) (by simp)
    · exact process_primitive s (by simp) (by simp)
    · exact process_primitive s (by simp) (by simp)
    · exact process_apps p s
    · exact process_primitive s (by simp) (by simp)

theorem processMembers_fallback {fallback : Option Profile} (hfallback : ∀ q ∈ fallback, q.PortInRange) (s : JsonParser) :
    processMembers runtime feature s (fallbackMembers fallback) =
      .ok (((fallback.filter (fun q => q.Complete)).map (fun q => (q.restoredServer feature, none))).toList.foldl add s) := by
  cases fallback with
  | none =>
    rw [fallbackMembers, processMembers]
    rfl
  | some q =>
    rw [fallbackMembers, processMembers, process_server (hfallback q rfl), TextReader.filter_some]
    simp only
    rw [processMembers]
    by_cases hq : q.Complete
    · rw [if_pos hq, if_pos hq]
      rfl
    · rw [if_neg hq, if_neg hq]
      rfl

theorem process_members {p : Profile} (hport : p.PortInRange) {o : PluginOptions} (ho : Writable o)
    {fallback : Option Profile} (hfallback : ∀ q ∈ fallback, q.PortInRange) (s : JsonParser) :
    process runtime feature s (.object (p.members runtime o fallback)) =
      .ok ((p.found runtime feature o fallback).foldl add s) := by
  rw [process, tryParse_members hport ho hfallback, found]
  by_cases h : p.Complete
  · rw [if_pos h, if_pos h]
    rfl
  · rw [if_neg h, if_neg h]
    simp only
    rw [members, processMembers_append, processMembers_idle (fun _ => process_idle p o)]
    exact processMembers_fallback hfallback s

/-- The options of the selected plugin. -/
def optionsOf (p : Profile) (defaultConfig : Text) : PluginOptions := (p.selectedOptions defaultConfig).toOption.getD .new

theorem selectedOptions_of_clear {p : Profile} (h : PluginConfiguration.ClearLines (p.plugin.getD []))
    (defaultConfig : Text) :
    p.selectedOptions defaultConfig = .ok (p.optionsOf defaultConfig) ∧ Writable (p.optionsOf defaultConfig) := by
  obtain ⟨c, hc, hsound⟩ := PluginConfiguration.ofText_sound h
  have hselected : ∃ o, c.getOptions c.selected defaultConfig = .ok o ∧ Writable o := by
    unfold PluginConfiguration.getOptions
    by_cases hnone : c.selected = []
    · rw [if_pos hnone]
      exact ⟨.new, rfl, fun hid => absurd rfl hid⟩
    · have hhas := hsound.selected.resolve_left hnone
      obtain ⟨o, ho⟩ := Option.ne_none_iff_exists'.1 (LinkedMap.has_iff.1 hhas)
      obtain ⟨-, hline, -⟩ := hsound.keyed _ (LinkedMap.get_eq_some.1 ho)
      rw [if_neg hnone, ho]
      refine ⟨o, rfl, fun hid => ?_⟩
      rcases hline with hnew | ⟨-, hclean, hnamed⟩
      · exact absurd (congrArg PluginOptions.id hnew) hid
      · exact ⟨hclean, hnamed⟩
  obtain ⟨o, ho, hreads⟩ := hselected
  have hoptions : p.selectedOptions defaultConfig = .ok o := by
    rw [selectedOptions, hc]
    exact ho
  have heq : p.optionsOf defaultConfig = o := by
    rw [optionsOf, hoptions]
    rfl
  rw [heq]
  exact ⟨hoptions, hreads⟩

/-- What the parser finds in the export of profiles. -/
def foundAll (runtime : Runtime) (feature : Option Profile) (defaultConfig : Text) (lookup : Nat → Option Profile)
    (ps : List Profile) : List (Profile × Option Profile) :=
  ps.flatMap (fun p => p.found runtime feature (p.optionsOf defaultConfig) (p.exportedFallback lookup))

theorem processElements_serializeAll {lookup : Nat → Option Profile} (defaultConfig : Text) : ∀ {ps : List Profile},
    (∀ p ∈ ps, p.PortInRange ∧ PluginConfiguration.ClearLines (p.plugin.getD []) ∧
      ∀ q ∈ p.exportedFallback lookup, q.PortInRange) → ∀ s : JsonParser,
    ∃ jsons, serializeAll runtime lookup defaultConfig ps = .ok jsons ∧
      processElements runtime feature s jsons = .ok ((foundAll runtime feature defaultConfig lookup ps).foldl add s)
  | [], _, s => ⟨[], rfl, by rw [processElements]; rfl⟩
  | p :: ps, h, s => by
    obtain ⟨⟨hport, hclear, hfallback⟩, hrest⟩ := List.forall_mem_cons.1 h
    obtain ⟨hoptions, hreads⟩ := selectedOptions_of_clear hclear defaultConfig
    have hjson : p.toJson runtime lookup defaultConfig =
        .ok (.object (p.members runtime (p.optionsOf defaultConfig) (p.exportedFallback lookup))) := by
      rw [toJson, hoptions]
      rfl
    have hprocess : process runtime feature s
        (.object (p.members runtime (p.optionsOf defaultConfig) (p.exportedFallback lookup))) =
        .ok ((p.found runtime feature (p.optionsOf defaultConfig) (p.exportedFallback lookup)).foldl add s) :=
      process_members hport hreads hfallback s
    obtain ⟨jsons, hjsons, helements⟩ := processElements_serializeAll defaultConfig hrest
      ((p.found runtime feature (p.optionsOf defaultConfig) (p.exportedFallback lookup)).foldl add s)
    refine ⟨_ :: jsons, by rw [serializeAll, hjson, hjsons]; rfl, ?_⟩
    rw [processElements, hprocess, foundAll, List.flatMap_cons, List.foldl_append]
    exact helements

/-- The entries of `fallbackMap`. -/
def fallbackEntries (found : List (Profile × Option Profile)) : List (Profile × Profile) :=
  found.filterMap (fun f => f.2.map (fun fallback => (f.1, fallback)))

theorem foldl_add : ∀ (found : List (Profile × Option Profile)) (s : JsonParser),
    found.foldl add s = ⟨s.profiles ++ found.map Prod.fst, s.fallbackMap.putAll (fallbackEntries found)⟩
  | [], s => by simp [fallbackEntries, LinkedMap.putAll]
  | (p, fallback) :: found, s => by
    rw [List.foldl_cons, foldl_add found, add]
    cases fallback with
    | none => simp [fallbackEntries]
    | some fallback =>
      simp only [fallbackEntries, List.filterMap_cons, Option.map_some, List.map_cons, List.append_assoc,
        List.singleton_append]
      rfl

theorem mem_of_exportedFallback {ps : List Profile} {p q : Profile} (h : q ∈ p.exportedFallback (lookup ps)) : q ∈ ps := by
  obtain ⟨hq, -⟩ := Option.filter_eq_some_iff.1 h
  obtain ⟨id, -, hlookup⟩ := Option.bind_eq_some_iff.1 hq
  exact List.mem_reverse.1 (List.mem_of_find?_eq_some hlookup)

end

/-- What the parser finds in an export. -/
theorem process_serialized (runtime : Runtime) (feature : Option Profile) (defaultConfig : Text) {ps : List Profile}
    (h : ∀ p ∈ ps, p.PortInRange ∧ PluginConfiguration.ClearLines (p.plugin.getD [])) :
    ∃ json, serializeToJson runtime ps defaultConfig = .ok json ∧ JsonParser.process runtime feature .new json =
      .ok ⟨(foundAll runtime feature defaultConfig (lookup ps) ps).map Prod.fst,
        LinkedMap.empty.putAll (fallbackEntries (foundAll runtime feature defaultConfig (lookup ps) ps))⟩ := by
  have hall : ∀ p ∈ ps, p.PortInRange ∧ PluginConfiguration.ClearLines (p.plugin.getD []) ∧
      ∀ q ∈ p.exportedFallback (lookup ps), q.PortInRange :=
    fun p hp => ⟨(h p hp).1, (h p hp).2, fun q hq => (h q (mem_of_exportedFallback hq)).1⟩
  have hread : ∃ jsons, serializeAll runtime (lookup ps) defaultConfig ps = .ok jsons ∧
      JsonParser.processElements runtime feature .new jsons =
        .ok ((foundAll runtime feature defaultConfig (lookup ps) ps).foldl JsonParser.add .new) :=
    processElements_serializeAll defaultConfig hall .new
  obtain ⟨jsons, hjsons, hprocess⟩ := hread
  refine ⟨.array jsons, by rw [serializeToJson, hjsons]; rfl, ?_⟩
  rw [JsonParser.process, hprocess, foldl_add]
  rfl

/-- **What an export is read back as.**  Profiles whose plugins have no control characters are always written, and what was
written is read without an exception, whatever the settings that new profiles take over: each complete profile once and in
order, with all its settings but the list of apps of a profile that has it switched off, and with the selected one of its
plugins, with the same options; and with the server of its fallback, if that is among the profiles and has no plugin.  An
incomplete profile is lost, and its fallback takes its place. -/
theorem export_read_back (runtime : Runtime) (feature : Option Profile) (defaultConfig : Text) {ps : List Profile}
    (h : ∀ p ∈ ps, p.PortInRange ∧ PluginConfiguration.ClearLines (p.plugin.getD [])) :
    (∃ json, serializeToJson runtime ps defaultConfig = .ok json ∧ JsonParser.process runtime feature .new json =
      .ok ⟨(foundAll runtime feature defaultConfig (lookup ps) ps).map Prod.fst,
        LinkedMap.empty.putAll (fallbackEntries (foundAll runtime feature defaultConfig (lookup ps) ps))⟩) ∧
      ∀ p ∈ ps, ∀ text ∈ pluginText runtime (p.optionsOf defaultConfig),
        ∃ o, PluginOptions.ofLine text = .ok o ∧ PluginConfiguration.Same (p.optionsOf defaultConfig) o := by
  refine ⟨process_serialized runtime feature defaultConfig h, ?_⟩
  intro p hp text htext
  exact pluginText_same (selectedOptions_of_clear (h p hp).2 defaultConfig).2 htext

/-- Numbers without a fraction, and zero for the others; a map goes through its entries as they were put. -/
def plainRuntime : Runtime where
  intValue text := (TextReader.toInt text).getD 0
  intValue_ofInt k hlower hupper := by
    have hread : TextReader.toInt (intToString k) = _ := TextReader.toInt_signed k
    rw [hread, if_pos ⟨hlower, hupper⟩]
    rfl
  hash := ⟨fun entries => entries, List.Perm.refl⟩

/-- A profile with a plugin and apps that are switched off, its fallback, and one without a password. -/
def exportSample : List Profile :=
  [{ id := 1, host := "a".toList, remotePort := 1, password := "p".toList, method := "m".toList,
     plugin := some "v;x=1".toList, bypass := true, udpFallback := some 2, tx := 9 },
   { id := 2, host := "b".toList, remotePort := 2, password := "q".toList, method := "m".toList },
   { id := 3, host := "c".toList, remotePort := 3, method := "m".toList, udpFallback := some 2 }]

theorem export_read_back_sample :
    ∃ json, serializeToJson plainRuntime exportSample [] = .ok json ∧
      ∃ s, JsonParser.process plainRuntime none .new json = .ok s ∧
        s.profiles.map (fun p => (p.host, p.plugin, p.bypass, p.tx)) =
          [("a".toList, some "v;x=1".toList, false, 0), ("b".toList, none, false, 0), ("b".toList, none, false, 0)] := by
  have h : ∀ p ∈ exportSample, p.PortInRange ∧ PluginConfiguration.ClearLines (p.plugin.getD []) := by
    intro p hp
    simp only [exportSample, List.mem_cons, List.not_mem_nil, or_false] at hp
    rcases hp with rfl | rfl | rfl <;> exact ⟨⟨by decide, by decide⟩, by decide⟩
  obtain ⟨⟨json, hjson, hread⟩, -⟩ := export_read_back plainRuntime none [] h
  exact ⟨json, hjson, _, hread, by decide +kernel⟩

end Profile
end Riddles
