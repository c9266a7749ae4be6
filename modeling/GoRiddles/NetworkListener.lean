import GoRiddles.Machine
/-!
# NetworkListener — who hears of the default network

`DefaultNetworkListener.kt`: an actor that takes one message after the other, the callbacks of the system among them.
`VpnService.kt` starts it with itself as the key (`preInit`) and stops it in `killProcesses` from inside a coroutine, where
`this` is the coroutine.  So a stop never names a key that was started: every service that has ever been prepared goes on
listening, and what it has heard last is the network.
-/
namespace Riddles
namespace NetworkListener

/-! ## The actor -/

/-- `NetworkMessage`. -/
inductive Message (κ L N : Type) where
  | start (key : κ) (listener : L)
  | get (request : Nat)
  | stop (key : κ)
  | put (network : N)
  | update (network : N)
  | lost (network : N)
  deriving DecidableEq, Repr

/-- The variables of the actor and the object around it, with the calls it has made of listeners and the requests it has
completed. -/
structure Actor (κ L N : Type) where
  listeners       : List (κ × L)
  network         : Option N
  pendingRequests : List Nat
  fallback        : Bool
  /-- `Callback` is registered with the system. -/
  registered      : Bool
  told            : List (L × Option N)
  responses       : List (Nat × N)
  deriving DecidableEq, Repr

/-- What ends the actor. -/
inductive Failure where
  | getWithoutListeners
  | registerRefused
  deriving DecidableEq, Repr

namespace Actor

variable {κ L N : Type} [DecidableEq κ] [DecidableEq N]

def created : Actor κ L N := ⟨[], none, [], false, false, [], []⟩

/-- `register`: only the branch for other versions catches the system's exception. -/
def register (sdk : Nat) (refused : Bool) (s : Actor κ L N) : Except Failure (Actor κ L N) :=
  if 24 ≤ sdk ∧ sdk < 31 then
    if refused then .error .registerRefused else .ok { s with registered := true }
  else .ok { s with fallback := refused, registered := !refused }

/-- `listeners[key] = listener`. -/
def setListener (listeners : List (κ × L)) (key : κ) (listener : L) : List (κ × L) :=
  if key ∈ listeners.map Prod.fst then listeners.map (fun p => if p.1 = key then (key, listener) else p)
  else listeners ++ [(key, listener)]

/-- `listeners.values.forEach { it(network) }`. -/
def tellAll (s : Actor κ L N) (network : Option N) : Actor κ L N :=
  { s with told := s.told ++ s.listeners.map (fun p => (p.2, network)) }

/-- The listener is put in the map, and told the network if one is known. -/
def listen (s : Actor κ L N) (key : κ) (listener : L) : Actor κ L N :=
  { s with
    listeners := setListener s.listeners key listener
    told := match s.network with
      | none => s.told
      | some network => s.told ++ [(listener, some network)] }

theorem mem_setListener {listeners : List (κ × L)} {key : κ} {listener : L} {p : κ × L} :
    p ∈ setListener listeners key listener ↔ p = (key, listener) ∨ p ∈ listeners ∧ p.1 ≠ key := by
  unfold setListener
  split
  · rename_i hkey
    rw [List.mem_map]
    constructor
    · rintro ⟨q, hq, rfl⟩
      by_cases hqk : q.1 = key
      · simp [hqk]
      · simp [hqk, hq]
    · rintro (rfl | ⟨hp, hne⟩)
      · obtain ⟨q, hq, hqk⟩ := List.mem_map.1 hkey
        exact ⟨q, hq, by simp [hqk]⟩
      · exact ⟨p, hp, by simp [hne]⟩
  · rename_i hkey
    rw [List.mem_append, List.mem_singleton, or_comm]
    have hne : p ∈ listeners → p.1 ≠ key := fun hp heq => hkey (List.mem_map.2 ⟨p, hp, heq⟩)
    constructor
    · rintro (rfl | hp)
      · exact .inl rfl
      · exact .inr ⟨hp, hne hp⟩
    · rintro (rfl | ⟨hp, -⟩)
      · exact .inl rfl
      · exact .inr hp

/-- One message; `refused` is what the system says to a registration. -/
def handle (sdk : Nat) (refused : Bool) (s : Actor κ L N) : Message κ L N → Except Failure (Actor κ L N)
  | .start key listener =>
    match if s.listeners = [] then s.register sdk refused else .ok s with
    | .error e => .error e
    | .ok s => .ok (s.listen key listener)
  | .get request =>
    if s.listeners = [] then .error .getWithoutListeners
    else
      .ok (match s.network with
        | none => { s with pendingRequests := s.pendingRequests ++ [request] }
        | some network => { s with responses := s.responses ++ [(request, network)] })
  | .stop key =>
    if s.listeners ≠ [] ∧ key ∈ s.listeners.map Prod.fst then
      let listeners := s.listeners.filter (fun p => p.1 ≠ key)
      if listeners = [] then .ok { s with listeners := [], network := none, registered := false }
      else .ok { s with listeners := listeners }
    else .ok s
  | .put network =>
    .ok ({ s with
      network := some network
      responses := s.responses ++ s.pendingRequests.map (fun request => (request, network))
      pendingRequests := [] }.tellAll (some network))
  | .update network => .ok (if s.network = some network then s.tellAll (some network) else s)
  | .lost network => .ok (if s.network = some network then { s with network := none }.tellAll none else s)

end Actor

/-! ## What a listener has heard last -/

section
variable {L N : Type} [DecidableEq L]

def lastTold (told : List (L × Option N)) (listener : L) : Option N :=
  (told.filter (fun p => p.1 = listener)).getLast?.bind Prod.snd

@[simp] theorem lastTold_nil (listener : L) : lastTold ([] : List (L × Option N)) listener = none := rfl

theorem lastTold_append_of_notMem {told new : List (L × Option N)} {listener : L} (h : listener ∉ new.map Prod.fst) :
    lastTold (told ++ new) listener = lastTold told listener := by
  have hnone : new.filter (fun p => p.1 = listener) = [] := by
    rw [List.filter_eq_nil_iff]
    intro p hp hl
    exact h (List.mem_map.2 ⟨p, hp, of_decide_eq_true hl⟩)
  unfold lastTold
  rw [List.filter_append, hnone, List.append_nil]

theorem lastTold_append_of_mem {told new : List (L × Option N)} {listener : L} {network : Option N}
    (h : listener ∈ new.map Prod.fst) (hall : ∀ p ∈ new, p.2 = network) : lastTold (told ++ new) listener = network := by
  obtain ⟨p, hp, rfl⟩ := List.mem_map.1 h
  have hmem : p ∈ new.filter (fun q => q.1 = p.1) := List.mem_filter.2 ⟨hp, by simp⟩
  obtain ⟨q, hq⟩ := Option.ne_none_iff_exists'.1 (mt List.getLast?_eq_none_iff.1 (List.ne_nil_of_mem hmem))
  unfold lastTold
  rw [List.filter_append, List.getLast?_append, hq, Option.some_or, Option.bind_some]
  exact hall q (List.mem_of_mem_filter (List.mem_of_getLast? hq))

end

/-! ## The services -/

/-- The keys the app's code uses: a service, or the coroutine that `killProcesses` launches. -/
inductive Key where
  | service (i : Nat)
  | coroutine (c : Nat)
  deriving DecidableEq, Repr

/-- The actor with the services around it; the listener of a service writes its field `underlyingNetwork`. -/
structure VpnNetwork (N : Type) where
  actor      : Actor Key Nat N
  /-- The services whose `preInit` has returned. -/
  prepared   : List Nat
  coroutines : Nat
  requests   : Nat
  crashed    : Bool
  deriving DecidableEq, Repr

inductive Event (N : Type) where
  | preInit (service : Nat) (refused : Bool)
  | killProcesses
  | openConnection (service : Nat)
  | onAvailable (network : N)
  | onCapabilitiesChanged (network : N)
  | onLost (network : N)
  deriving DecidableEq, Repr

namespace VpnNetwork

variable {N : Type}

def start : VpnNetwork N := ⟨Actor.created, [], 0, 0, false⟩

def underlyingNetwork (s : VpnNetwork N) (i : Nat) : Option N := lastTold s.actor.told i

section
variable [DecidableEq N]

/-- `networkActor.send`: an exception in the actor is nobody's, and ends the process. -/
def send (sdk : Nat) (refused : Bool) (s : VpnNetwork N) (message : Message Key Nat N) : VpnNetwork N :=
  match s.actor.handle sdk refused message with
  | .ok actor => { s with actor := actor }
  | .error _ => { s with crashed := true }

def step (sdk : Nat) (s : VpnNetwork N) (e : Event N) : Option (VpnNetwork N) :=
  if s.crashed then none
  else
    match e with
    | .preInit i refused => some (send sdk refused { s with prepared := s.prepared ++ [i] } (.start (.service i) i))
    | .killProcesses => some (send sdk false { s with coroutines := s.coroutines + 1 } (.stop (.coroutine s.coroutines)))
    | .openConnection i =>
      if i ∈ s.prepared then
        if s.actor.fallback then some s
        else some (send sdk false { s with requests := s.requests + 1 } (.get s.requests))
      else none
    | .onAvailable network => some (s.send sdk false (.put network))
    | .onCapabilitiesChanged network => some (s.send sdk false (.update network))
    | .onLost network => some (s.send sdk false (.lost network))

end

/-! ## What a step does -/

/-- Only services listen, each by its own field, and those that are prepared do. -/
structure Kept (s : VpnNetwork N) : Prop where
  own   : ∀ p ∈ s.actor.listeners, ∃ i, p = (.service i, i)
  ready : ∀ i ∈ s.prepared, (.service i, i) ∈ s.actor.listeners

theorem kept_start : Kept (start : VpnNetwork N) where
  own _ hp := absurd hp List.not_mem_nil
  ready _ hi := absurd hi List.not_mem_nil

variable {sdk : Nat} {s t : VpnNetwork N} {e : Event N}

/-- **What a step does**, among services. -/
inductive Turn (sdk : Nat) (s : VpnNetwork N) : Event N → VpnNetwork N → Prop
  | refused (i : Nat) (version : 24 ≤ sdk ∧ sdk < 31) :
      Turn sdk s (.preInit i true) { s with prepared := s.prepared ++ [i], crashed := true }
  | prepared (i : Nat) (refused registered fallback : Bool)
      (watched : s.actor.listeners = [] → (registered || fallback) = true)
      (same : s.actor.listeners ≠ [] → registered = s.actor.registered ∧ fallback = s.actor.fallback) :
      Turn sdk s (.preInit i refused)
        { s with
          prepared := s.prepared ++ [i]
          actor := { s.actor.listen (.service i) i with registered := registered, fallback := fallback } }
  | killed : Turn sdk s .killProcesses { s with coroutines := s.coroutines + 1 }
  | fallback (i : Nat) : Turn sdk s (.openConnection i) s
  | waits (i : Nat) (unknown : s.actor.network = none) :
      Turn sdk s (.openConnection i)
        { s with
          requests := s.requests + 1
          actor := { s.actor with pendingRequests := s.actor.pendingRequests ++ [s.requests] } }
  | answered (i : Nat) (network : N) (known : s.actor.network = some network) :
      Turn sdk s (.openConnection i)
        { s with
          requests := s.requests + 1
          actor := { s.actor with responses := s.actor.responses ++ [(s.requests, network)] } }
  | available (network : N) :
      Turn sdk s (.onAvailable network)
        { s with
          actor := { s.actor with
            network := some network
            responses := s.actor.responses ++ s.actor.pendingRequests.map (fun request => (request, network))
            pendingRequests := []
            told := s.actor.told ++ s.actor.listeners.map (fun p => (p.2, some network)) } }
  | changed (network : N) (current : s.actor.network = some network) :
      Turn sdk s (.onCapabilitiesChanged network)
        { s with
          actor := { s.actor with told := s.actor.told ++ s.actor.listeners.map (fun p => (p.2, some network)) } }
  | lost (network : N) (current : s.actor.network = some network) :
      Turn sdk s (.onLost network)
        { s with
          actor := { s.actor with
            network := none, told := s.actor.told ++ s.actor.listeners.map (fun p => (p.2, none)) } }
  | otherChanged (network : N) (another : s.actor.network ≠ some network) : Turn sdk s (.onCapabilitiesChanged network) s
  | otherLost (network : N) (another : s.actor.network ≠ some network) : Turn sdk s (.onLost network) s

section
variable [DecidableEq N]

/-- **A stop of `killProcesses` is in vain**: its key is a coroutine, and only services listen. -/
theorem handle_stop (h : Kept s) (c : Nat) (refused : Bool) :
    s.actor.handle sdk refused (.stop (.coroutine c)) = .ok s.actor := by
  have hkey : Key.coroutine c ∉ s.actor.listeners.map Prod.fst := by
    intro hc
    obtain ⟨p, hp, hpc⟩ := List.mem_map.1 hc
    obtain ⟨i, rfl⟩ := h.own p hp
    cases hpc
  unfold Actor.handle
  simp only [hkey, and_false, if_false]

theorem turn_preInit (i : Nat) (refused : Bool) :
    Turn sdk s (.preInit i refused)
      (send sdk refused { s with prepared := s.prepared ++ [i] } (.start (.service i) i)) := by
  unfold send Actor.handle Actor.register
  by_cases hl : s.actor.listeners = []
  · dsimp only
    rw [if_pos hl]
    by_cases hv : 24 ≤ sdk ∧ sdk < 31
    · rw [if_pos hv]
      cases refused with
      | true => exact .refused i hv
      | false => exact .prepared i false true s.actor.fallback (fun _ => rfl) (fun hne => absurd hl hne)
    · rw [if_neg hv]
      refine .prepared i refused (!refused) refused (fun _ => ?_) (fun hne => absurd hl hne)
      cases refused <;> rfl
  · dsimp only
    rw [if_neg hl]
    exact .prepared i refused s.actor.registered s.actor.fallback (fun h => absurd h hl) (fun _ => ⟨rfl, rfl⟩)

theorem turn_openConnection (h : Kept s) {i : Nat} (hi : i ∈ s.prepared) :
    Turn sdk s (.openConnection i) (send sdk false { s with requests := s.requests + 1 } (.get s.requests)) := by
  have hl : s.actor.listeners ≠ [] := List.ne_nil_of_mem (h.ready i hi)
  unfold send Actor.handle
  dsimp only
  rw [if_neg hl]
  dsimp only
  split
  · rename_i hn
    exact .waits i hn
  · rename_i network hn
    exact .answered i network hn

theorem turn_of_step (h : Kept s) (hs : step sdk s e = some t) : s.crashed = false ∧ Turn sdk s e t := by
  unfold step at hs
  by_cases hc : s.crashed = true
  · rw [if_pos hc] at hs
    cases hs
  rw [if_neg hc] at hs
  refine ⟨Bool.not_eq_true _ ▸ hc, ?_⟩
  cases e with
  | preInit i refused =>
    cases hs
    exact turn_preInit i refused
  | killProcesses =>
    have hstop : s.actor.handle sdk false (.stop (.coroutine s.coroutines)) = .ok s.actor := handle_stop h s.coroutines false
    cases hs
    unfold send
    rw [hstop]
    exact .killed
  | openConnection i =>
    simp only at hs
    split at hs
    · rename_i hi
      split at hs
      · cases hs
        exact .fallback i
      · cases hs
        exact turn_openConnection h hi
    · cases hs
  | onAvailable network =>
    cases hs
    exact .available network
  | onCapabilitiesChanged network =>
    cases hs
    unfold send Actor.handle
    by_cases hn : s.actor.network = some network
    · simp only [hn, if_true]
      exact .changed network hn
    · simp only [hn, if_false]
      exact .otherChanged network hn
  | onLost network =>
    cases hs
    unfold send Actor.handle
    by_cases hn : s.actor.network = some network
    · simp only [hn, if_true]
      exact .lost network hn
    · simp only [hn, if_false]
      exact .otherLost network hn

end

/-! ## The services go on listening -/

theorem mem_listen {i j : Nat} :
    (Key.service j, j) ∈ (s.actor.listen (.service i) i).listeners ↔ j = i ∨ (.service j, j) ∈ s.actor.listeners := by
  show _ ∈ Actor.setListener s.actor.listeners (.service i) i ↔ _
  rw [Actor.mem_setListener]
  by_cases hij : j = i
  · simp [hij]
  · simp [hij]

theorem Kept.turn (h : Kept s) (ht : Turn sdk s e t) (hc : t.crashed = false) : Kept t := by
  cases ht with
  | refused i version => cases hc
  | prepared i refused registered fallback watched same =>
    refine ⟨fun p hp => ?_, fun j hj => ?_⟩
    · rcases Actor.mem_setListener.1 hp with rfl | ⟨hp, -⟩
      · exact ⟨i, rfl⟩
      · exact h.own p hp
    · refine mem_listen.2 ?_
      rcases List.mem_append.1 hj with hj | hj
      · exact .inr (h.ready j hj)
      · exact .inl (List.mem_singleton.1 hj)
  | killed | fallback | waits | answered | available | changed | lost | otherChanged | otherLost => exact ⟨h.own, h.ready⟩

/-- Where a run without a crash is, after these events. -/
structure Heard (past : List (Event N)) (s : VpnNetwork N) : Prop where
  kept     : Kept s
  alive    : s.crashed = false
  listens  : ∀ i, (Key.service i, i) ∈ s.actor.listeners ↔ ∃ refused, .preInit i refused ∈ past
  hears    : ∀ i, (Key.service i, i) ∈ s.actor.listeners → s.underlyingNetwork i = s.actor.network
  unheard  : ∀ i, (Key.service i, i) ∉ s.actor.listeners → s.underlyingNetwork i = none
  watched  : (s.actor.registered || s.actor.fallback) = true ↔ s.actor.listeners ≠ []

/-- What is told to all is heard by those who listen. -/
theorem lastTold_all (h : Kept s) (network : Option N) (i : Nat) :
    lastTold (s.actor.told ++ s.actor.listeners.map (fun p => (p.2, network))) i =
      if (Key.service i, i) ∈ s.actor.listeners then network else s.underlyingNetwork i := by
  by_cases hi : (Key.service i, i) ∈ s.actor.listeners
  · rw [if_pos hi]
    refine lastTold_append_of_mem ?_ (fun p hp => ?_)
    · rw [List.map_map]
      exact List.mem_map.2 ⟨_, hi, rfl⟩
    · obtain ⟨q, -, rfl⟩ := List.mem_map.1 hp
      rfl
  · rw [if_neg hi]
    refine lastTold_append_of_notMem (fun hmem => hi ?_)
    rw [List.map_map] at hmem
    obtain ⟨p, hp, hpi⟩ := List.mem_map.1 hmem
    obtain ⟨j, rfl⟩ := h.own p hp
    cases hpi
    exact hp

/-- A service that starts to listen has heard the network; nobody else hears anything. -/
theorem lastTold_listen {past : List (Event N)} (h : Heard past s) (i j : Nat) :
    lastTold (s.actor.listen (.service i) i).told j = if j = i then s.actor.network else s.underlyingNetwork j := by
  show lastTold (match s.actor.network with
    | none => s.actor.told
    | some network => s.actor.told ++ [(i, some network)]) j = _
  by_cases hij : j = i
  · subst hij
    rw [if_pos rfl]
    cases hn : s.actor.network with
    | none =>
      by_cases hj : (Key.service j, j) ∈ s.actor.listeners
      · exact (h.hears j hj).trans hn
      · exact h.unheard j hj
    | some network => exact lastTold_append_of_mem (List.mem_singleton.2 rfl) (by simp)
  · rw [if_neg hij]
    cases s.actor.network with
    | none => rfl
    | some network => exact lastTold_append_of_notMem (by simp [hij])

theorem exists_preInit_snoc {past : List (Event N)} (hne : ∀ i refused, e ≠ .preInit i refused) (i : Nat) :
    (∃ refused, Event.preInit i refused ∈ past ++ [e]) ↔ ∃ refused, Event.preInit i refused ∈ past := by
  refine exists_congr (fun refused => ?_)
  rw [List.mem_append, List.mem_singleton]
  exact or_iff_left (hne i refused).symm

/-- A step that leaves the listeners and what they know of the network. -/
theorem Heard.same {past : List (Event N)} (h : Heard past s) (hkept : Kept t) (hne : ∀ i refused, e ≠ .preInit i refused)
    (halive : t.crashed = false) (hlisteners : t.actor.listeners = s.actor.listeners)
    (hwatched : (t.actor.registered || t.actor.fallback) = (s.actor.registered || s.actor.fallback))
    (htold : ∀ i, t.underlyingNetwork i =
      if (Key.service i, i) ∈ s.actor.listeners then t.actor.network else s.underlyingNetwork i) :
    Heard (past ++ [e]) t := by
  refine ⟨hkept, halive, fun i => ?_, fun i hi => ?_, fun i hi => ?_, ?_⟩
  · rw [hlisteners, exists_preInit_snoc hne]
    exact h.listens i
  · rw [hlisteners] at hi
    rw [htold, if_pos hi]
  · rw [hlisteners] at hi
    rw [htold, if_neg hi]
    exact h.unheard i hi
  · rw [hwatched, hlisteners]
    exact h.watched

theorem Heard.turn {past : List (Event N)} (h : Heard past s) (ht : Turn sdk s e t) (halive : t.crashed = false) :
    Heard (past ++ [e]) t := by
  have hkept := h.kept.turn ht halive
  -- nothing is told, and the network stays
  have hsilent : ∀ i, s.underlyingNetwork i =
      if (Key.service i, i) ∈ s.actor.listeners then s.actor.network else s.underlyingNetwork i := by
    intro i
    by_cases hi : (Key.service i, i) ∈ s.actor.listeners
    · rw [if_pos hi, h.hears i hi]
    · rw [if_neg hi]
  cases ht with
  | refused i version => cases halive
  | prepared i refused registered fallback watched same =>
    have hheard : ∀ j, lastTold (s.actor.listen (.service i) i).told j =
        if j = i then s.actor.network else s.underlyingNetwork j := lastTold_listen h i
    refine ⟨hkept, halive, fun j => ?_, fun j hj => ?_, fun j hj => ?_, ?_⟩
    · show (Key.service j, j) ∈ (s.actor.listen (.service i) i).listeners ↔ _
      rw [mem_listen, h.listens]
      constructor
      · rintro (rfl | ⟨r, hr⟩)
        · exact ⟨refused, by simp⟩
        · exact ⟨r, by simp [hr]⟩
      · rintro ⟨r, hr⟩
        rcases List.mem_append.1 hr with hr | hr
        · exact .inr ⟨r, hr⟩
        · rw [List.mem_singleton] at hr
          cases hr
          exact .inl rfl
    · rcases mem_listen.1 hj with rfl | hj
      · exact (hheard j).trans (if_pos rfl)
      · refine (hheard j).trans ?_
        rw [h.hears j hj]
        exact ite_self _
    · have hne : j ≠ i := fun heq => hj (mem_listen.2 (.inl heq))
      refine (hheard j).trans ((if_neg hne).trans ?_)
      exact h.unheard j (fun hmem => hj (mem_listen.2 (.inr hmem)))
    · have hnonempty : (s.actor.listen (.service i) i).listeners ≠ [] := List.ne_nil_of_mem (mem_listen.2 (.inl rfl))
      refine iff_of_true ?_ hnonempty
      by_cases hl : s.actor.listeners = []
      · exact watched hl
      · obtain ⟨rfl, rfl⟩ := same hl
        exact h.watched.2 hl
  | killed | fallback | waits | answered | otherChanged | otherLost =>
    exact h.same hkept (by simp) h.alive rfl rfl hsilent
  | available network =>
    exact h.same hkept (by simp) h.alive rfl rfl (lastTold_all h.kept (some network))
  | changed network current =>
    refine h.same hkept (by simp) h.alive rfl rfl (fun i => ?_)
    refine (lastTold_all h.kept (some network) i).trans ?_
    rw [← current]
  | lost network current =>
    exact h.same hkept (by simp) h.alive rfl rfl (lastTold_all h.kept none)

theorem Turn.refused_of_crashed (ht : Turn sdk s e t) (hs : s.crashed = false) (hc : t.crashed = true) :
    (24 ≤ sdk ∧ sdk < 31) ∧ ∃ i, e = .preInit i true := by
  cases ht with
  | refused i version => exact ⟨version, i, rfl⟩
  | prepared | killed | fallback | waits | answered | available | changed | lost | otherChanged | otherLost =>
    rw [hs] at hc
    cases hc

theorem heard_start : Heard [] (start : VpnNetwork N) where
  kept    := kept_start
  alive   := rfl
  listens i := by simp [start, Actor.created]
  hears i hi := absurd hi List.not_mem_nil
  unheard i _ := rfl
  watched := by simp [start, Actor.created]

/-- **Every service that was ever prepared still listens**: its network is the actor's, whatever was stopped in between, and
the callback stays registered from the first of them on. -/
structure StillListening (es : List (Event N)) (s : VpnNetwork N) : Prop where
  agrees  : ∀ i refused, .preInit i refused ∈ es → s.underlyingNetwork i = s.actor.network
  listens : ∀ i, (Key.service i, i) ∈ s.actor.listeners ↔ ∃ refused, .preInit i refused ∈ es
  watched : (s.actor.registered || s.actor.fallback) = true ↔ ∃ i refused, .preInit i refused ∈ es

theorem Heard.stillListening {es : List (Event N)} (h : Heard es s) : StillListening es s := by
  refine ⟨fun i refused hi => h.hears i ((h.listens i).2 ⟨refused, hi⟩), h.listens, ?_⟩
  rw [h.watched]
  constructor
  · intro hne
    obtain ⟨p, hp⟩ := List.exists_mem_of_ne_nil _ hne
    obtain ⟨i, rfl⟩ := h.kept.own p hp
    exact ⟨i, (h.listens i).1 hp⟩
  · rintro ⟨i, hi⟩
    exact List.ne_nil_of_mem ((h.listens i).2 hi)

variable [DecidableEq N]

/-- What is known after some events: who listens, or why the app went down. -/
def Known (sdk : Nat) (past : List (Event N)) (s : VpnNetwork N) : Prop :=
  Heard past s ∨ s.crashed = true ∧ (24 ≤ sdk ∧ sdk < 31) ∧ ∃ i, .preInit i true ∈ past

theorem Known.step {past : List (Event N)} (h : Known sdk past s) (hs : step sdk s e = some t) :
    Known sdk (past ++ [e]) t := by
  rcases h with hheard | ⟨hcrashed, -⟩
  · obtain ⟨-, hturn⟩ := turn_of_step hheard.kept hs
    cases hc : t.crashed with
    | false => exact .inl (hheard.turn hturn hc)
    | true =>
      obtain ⟨hversion, i, rfl⟩ := hturn.refused_of_crashed hheard.alive hc
      exact .inr ⟨hc, hversion, i, by simp⟩
  · unfold VpnNetwork.step at hs
    rw [if_pos hcrashed] at hs
    cases hs

/-- **Nobody who listens is dropped.**  In every run of services that are prepared and killed, of callbacks and of requests
in any order; the app goes down only when the system refuses a registration on a version that does not catch it. -/
theorem listeners_kept (sdk : Nat) (es : List (Event N)) (s : VpnNetwork N)
    (h : Machine.run (step sdk) start es = some s) :
    (s.crashed = false → StillListening es s) ∧
      (s.crashed = true → (24 ≤ sdk ∧ sdk < 31) ∧ ∃ i, .preInit i true ∈ es) := by
  have hinv : Known sdk ([] ++ es) s :=
    Machine.run_of_past (fun _ _ _ _ hknown hs => Known.step hknown hs) es [] start (.inl heard_start) h
  rw [List.nil_append] at hinv
  rcases hinv with hheard | ⟨hcrashed, hrefused⟩
  · refine ⟨fun _ => hheard.stillListening, fun hc => ?_⟩
    rw [hheard.alive] at hc
    cases hc
  · refine ⟨fun hc => ?_, fun _ => hrefused⟩
    rw [hcrashed] at hc
    cases hc

/-- A service is killed, another one is prepared, and both have heard of the network that came in between. -/
theorem listeners_kept_two :
    ∃ s, Machine.run (step 30) (start : VpnNetwork Nat)
      [.preInit 1 false, .killProcesses, .onAvailable 7, .preInit 2 false] = some s ∧
        s.crashed = false ∧ s.underlyingNetwork 1 = some 7 ∧ s.underlyingNetwork 2 = some 7 ∧
          StillListening [.preInit 1 false, .killProcesses, .onAvailable 7, .preInit 2 false] s := by
  refine ⟨_, rfl, rfl, rfl, rfl, ?_⟩
  exact (listeners_kept 30 [.preInit 1 false, .killProcesses, .onAvailable 7, .preInit 2 false] _ rfl).1 rfl

/-! ## Requests -/

omit [DecidableEq N]

/-- **Each request is answered once or waits**, and it waits only while there is no network. -/
structure Requests (s : VpnNetwork N) : Prop where
  once  : (s.actor.responses.map Prod.fst ++ s.actor.pendingRequests).Perm (List.range s.requests)
  waits : s.actor.pendingRequests ≠ [] → s.actor.network = none

/-- A step answers with the network it leaves, and a new network leaves nobody waiting. -/
def Answers (s : VpnNetwork N) (e : Event N) (t : VpnNetwork N) : Prop :=
  (∃ new, t.actor.responses = s.actor.responses ++ new ∧ ∀ r ∈ new, t.actor.network = some r.2) ∧
    ∀ network, e = .onAvailable network → t.actor.pendingRequests = []

theorem Requests.congr (h : Requests s) (hresponses : t.actor.responses = s.actor.responses)
    (hpending : t.actor.pendingRequests = s.actor.pendingRequests) (hrequests : t.requests = s.requests)
    (hnetwork : t.actor.network = s.actor.network ∨ t.actor.network = none) : Requests t := by
  refine ⟨?_, fun hne => ?_⟩
  · rw [hresponses, hpending, hrequests]
    exact h.once
  · rw [hpending] at hne
    rcases hnetwork with hnetwork | hnetwork
    · rw [hnetwork]
      exact h.waits hne
    · exact hnetwork

theorem Requests.turn (h : Requests s) (ht : Turn sdk s e t) : Requests t := by
  cases ht with
  | refused | prepared | killed | fallback | changed | otherChanged | otherLost => exact h.congr rfl rfl rfl (.inl rfl)
  | lost => exact h.congr rfl rfl rfl (.inr rfl)
  | waits i unknown =>
    refine ⟨?_, fun _ => unknown⟩
    show (s.actor.responses.map Prod.fst ++ (s.actor.pendingRequests ++ [s.requests])).Perm (List.range (s.requests + 1))
    rw [← List.append_assoc, List.range_succ]
    exact h.once.append_right _
  | answered i network known =>
    have hnone : s.actor.pendingRequests = [] := by
      by_contra hne
      rw [h.waits hne] at known
      cases known
    refine ⟨?_, fun hne => absurd hnone hne⟩
    show ((s.actor.responses ++ [(s.requests, network)]).map Prod.fst ++ s.actor.pendingRequests).Perm
      (List.range (s.requests + 1))
    have honce := h.once
    rw [hnone, List.append_nil] at honce ⊢
    rw [List.map_append, List.range_succ]
    exact honce.append_right _
  | available network =>
    refine ⟨?_, fun hne => absurd rfl hne⟩
    show ((s.actor.responses ++ s.actor.pendingRequests.map (fun request => (request, network))).map Prod.fst ++ []).Perm
      (List.range s.requests)
    rw [List.append_nil, List.map_append, List.map_map]
    have hfst : s.actor.pendingRequests.map (Prod.fst ∘ fun request => (request, network)) = s.actor.pendingRequests :=
      List.map_id _
    rw [hfst]
    exact h.once

theorem Turn.answers (ht : Turn sdk s e t) : Answers s e t := by
  cases ht with
  | refused | prepared | killed | fallback | waits | changed | lost | otherChanged | otherLost =>
    exact ⟨⟨[], by simp [Actor.listen], by simp⟩, by simp⟩
  | answered i network known => exact ⟨⟨_, rfl, by simp [known]⟩, by simp⟩
  | available network => exact ⟨⟨_, rfl, by simp⟩, fun _ _ => rfl⟩

/-- **No request is lost or answered twice**, and each is answered with the network of that moment. -/
theorem requests_answered [DecidableEq N] (sdk : Nat) (es : List (Event N)) :
    Machine.always (step sdk) Requests (start : VpnNetwork N) es ∧
      Machine.along (step sdk) Answers (start : VpnNetwork N) es := by
  have hkeep : ∀ (s : VpnNetwork N) (e : Event N) (t : VpnNetwork N),
      (s.crashed = false → Kept s) ∧ Requests s → step sdk s e = some t →
      ((t.crashed = false → Kept t) ∧ Requests t) ∧ Answers s e t := by
    rintro s e t ⟨hkept, hreq⟩ hs
    have halive : s.crashed = false := by
      unfold step at hs
      split at hs
      · cases hs
      · exact Bool.not_eq_true _ ▸ ‹_›
    obtain ⟨-, hturn⟩ := turn_of_step (hkept halive) hs
    exact ⟨⟨(hkept halive).turn hturn, hreq.turn hturn⟩, hturn.answers⟩
  have hstart : ((start : VpnNetwork N).crashed = false → Kept (start : VpnNetwork N)) ∧
      Requests (start : VpnNetwork N) :=
    ⟨fun _ => kept_start, List.Perm.refl _, fun _ => rfl⟩
  constructor
  · have hall := Machine.always_of_inv (fun s e t h hs => (hkeep s e t h hs).1) es _ hstart
    exact Machine.always_mono (fun _ h => h.2) es _ hall
  · exact Machine.along_of_inv (fun s e t h hs => (hkeep s e t h hs).1) (fun s e t h hs => (hkeep s e t h hs).2) es _ hstart

end VpnNetwork
end NetworkListener
end Riddles
