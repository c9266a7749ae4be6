import GoRiddles.Cache
import GoRiddles.Service
/-!
# Bandwidth — the traffic monitor and those who are shown its numbers

`TrafficMonitor.kt` and the part of `BaseService.Binder` that tells clients about it.  A thread reads the totals from a
socket and writes them one field at a time, while the main thread copies them; the binder keeps a loop going as long as
somebody listens, and the loop asks the monitor for an update every now and then.  Times are numbers that come with the
events, and what a client shows is what its last `trafficUpdated` said.
-/
namespace Riddles

/-- Two's complement at 64 bits. -/
def wrapLong (n : Int) : Int := n.bmod (2 ^ 64)

structure TrafficStats where
  txRate  : Int
  rxRate  : Int
  txTotal : Int
  rxTotal : Int
  deriving DecidableEq, Repr

namespace TrafficStats

/-- `TrafficStats()`. -/
def zero : TrafficStats := ⟨0, 0, 0, 0⟩

def plus (a other : TrafficStats) : TrafficStats :=
  ⟨wrapLong (a.txRate + other.txRate), wrapLong (a.rxRate + other.rxRate), wrapLong (a.txTotal + other.txTotal),
    wrapLong (a.rxTotal + other.rxTotal)⟩

end TrafficStats

/-- Where the thread is in `acceptInternal`. -/
inductive Writer where
  | idle
  /-- It has written `txTotal`, and is about to set `dirty`. -/
  | raiseTx (rx : Int)
  | compareRx (rx : Int)
  /-- It has written `rxTotal`, and is about to set `dirty`. -/
  | raiseRx
  deriving DecidableEq, Repr

structure TrafficMonitor where
  current       : TrafficStats
  out           : TrafficStats
  timestampLast : Int
  dirty         : Bool
  writer        : Writer
  deriving DecidableEq, Repr

/-- A step of the thread. -/
inductive Write where
  /-- The 16 bytes of a message arrive. -/
  | read (tx rx : Int)
  | go
  deriving DecidableEq, Repr

/-- The steps the thread makes while the main thread updates: between the two reads of the copy, and from the copy to
`dirty = false`. -/
structure Window where
  torn  : List Write
  after : List Write
  deriving DecidableEq, Repr

def Window.all (w : Window) : List Write := w.torn ++ w.after

namespace TrafficMonitor

def created : TrafficMonitor := ⟨.zero, .zero, 0, false, .idle⟩

/-- `acceptInternal`, one access at a time. -/
def write (m : TrafficMonitor) : Write → TrafficMonitor
  | .read tx rx =>
    match m.writer with
    | .idle =>
      if m.current.txTotal ≠ tx then { m with current := { m.current with txTotal := tx }, writer := .raiseTx rx }
      else { m with writer := .compareRx rx }
    -- the next message is read when this one is done with
    | .raiseTx _ | .compareRx _ | .raiseRx => m
  | .go =>
    match m.writer with
    | .idle => m
    | .raiseTx rx => { m with dirty := true, writer := .compareRx rx }
    | .compareRx rx =>
      if m.current.rxTotal ≠ rx then { m with current := { m.current with rxTotal := rx }, writer := .raiseRx }
      else { m with writer := .idle }
    | .raiseRx => { m with dirty := true, writer := .idle }

/-- The totals of the thread that `copy` finds: it reads `txTotal`, the thread makes the steps `torn`, it reads `rxTotal`. -/
def copy (torn : List Write) (m : TrafficMonitor) : Int × Int := (m.current.txTotal, (torn.foldl write m).current.rxTotal)

/-- `current.copy().apply { ... }`. -/
def copied (delta : Int) (torn : List Write) (m : TrafficMonitor) : TrafficMonitor :=
  { torn.foldl write m with
    out :=
      { txRate  := (wrapLong (wrapLong ((m.copy torn).1 - m.out.txTotal) * 1000)).tdiv delta
        rxRate  := (wrapLong (wrapLong ((m.copy torn).2 - m.out.rxTotal) * 1000)).tdiv delta
        txTotal := (m.copy torn).1
        rxTotal := (m.copy torn).2 } }

/-- `requestUpdate` after the clock was read, with the steps that the thread makes meanwhile. -/
def update (delta : Int) (window : Window) (m : TrafficMonitor) : TrafficMonitor × Bool :=
  if delta = 0 then (window.all.foldl write m, false)
  else if m.dirty then ({ window.after.foldl write (m.copied delta window.torn) with dirty := false }, true)
  else
    (window.all.foldl write { m with out := { m.out with txRate := 0, rxRate := 0 } },
      decide (m.out.txRate ≠ 0 ∨ m.out.rxRate ≠ 0))

def requestUpdate (now : Int) (window : Window) (m : TrafficMonitor) : TrafficMonitor × Bool :=
  update (wrapLong (now - m.timestampLast)) window { m with timestampLast := now }

/-! ## Updates that are missed -/

/-- `out` has the totals. -/
def Agrees (m : TrafficMonitor) : Prop := m.out.txTotal = m.current.txTotal ∧ m.out.rxTotal = m.current.rxTotal

/-- The thread is between a total and its flag. -/
def Raises (m : TrafficMonitor) : Prop := (∃ rx, m.writer = .raiseTx rx) ∨ m.writer = .raiseRx

/-- A total that `out` does not have is going to be noticed. -/
def Fresh (m : TrafficMonitor) : Prop := m.Agrees ∨ m.dirty = true ∨ m.Raises

variable {m t : TrafficMonitor}

theorem write_out (m : TrafficMonitor) (w : Write) : (m.write w).out = m.out := by
  cases w <;> simp only [write] <;> split <;> (try split) <;> rfl

theorem writes_out (window : List Write) : ∀ m : TrafficMonitor, (window.foldl write m).out = m.out := by
  induction window with
  | nil => exact fun _ => rfl
  | cons w window ih => exact fun m => (ih (m.write w)).trans (write_out m w)

theorem fresh_write (h : Fresh m) (w : Write) : Fresh (m.write w) := by
  cases w with
  | read tx rx =>
    simp only [write]
    split
    · rename_i hidle
      split
      · exact .inr (.inr (.inl ⟨rx, rfl⟩))
      · rcases h with h | h | ⟨rx', h⟩ | h
        · exact .inl h
        · exact .inr (.inl h)
        · rw [hidle] at h
          cases h
        · rw [hidle] at h
          cases h
    · exact h
    · exact h
    · exact h
  | go =>
    simp only [write]
    split
    · exact h
    · exact .inr (.inl rfl)
    · rename_i rx hcompare
      split
      · exact .inr (.inr (.inr rfl))
      · rcases h with h | h | ⟨rx', h⟩ | h
        · exact .inl h
        · exact .inr (.inl h)
        · rw [hcompare] at h
          cases h
        · rw [hcompare] at h
          cases h
    · exact .inr (.inl rfl)

theorem fresh_writes (window : List Write) : ∀ {m : TrafficMonitor}, Fresh m → Fresh (window.foldl write m) := by
  induction window with
  | nil => exact fun h => h
  | cons w window ih => exact fun h => ih (fresh_write h w)

/-- What happens to a monitor. -/
inductive Access where
  | write (w : Write)
  | request (now : Int) (window : Window)
  deriving DecidableEq, Repr

def access (m : TrafficMonitor) : Access → Option TrafficMonitor
  | .write w => some (m.write w)
  | .request now window => some (m.requestUpdate now window).1

/-- `dirty = false` finds the totals that were copied, or the thread between a total and its flag. -/
def Apart (m : TrafficMonitor) : Access → Prop
  | .write _ => True
  | .request now window =>
    wrapLong (now - m.timestampLast) ≠ 0 → m.dirty = true →
      (m.copy window.torn = ((window.all.foldl write m).current.txTotal, (window.all.foldl write m).current.rxTotal) ∨
        (window.all.foldl write m).Raises)

theorem write_congr (hcurrent : t.current = m.current) (hwriter : t.writer = m.writer) (w : Write) :
    (t.write w).current = (m.write w).current ∧ (t.write w).writer = (m.write w).writer := by
  cases w with
  | read tx rx =>
    cases hm : m.writer with
    | idle =>
      simp only [write, hm, hwriter.trans hm, hcurrent]
      split <;> simp
    | raiseTx _ | compareRx _ | raiseRx => simp [write, hm, hwriter.trans hm, hcurrent]
  | go =>
    cases hm : m.writer with
    | compareRx rx =>
      simp only [write, hm, hwriter.trans hm, hcurrent]
      split <;> simp
    | idle | raiseTx _ | raiseRx => simp [write, hm, hwriter.trans hm, hcurrent]

/-- **The thread does not look at what the main thread writes.** -/
theorem writes_congr (window : List Write) : ∀ {m t : TrafficMonitor}, t.current = m.current → t.writer = m.writer →
    (window.foldl write t).current = (window.foldl write m).current ∧
      (window.foldl write t).writer = (window.foldl write m).writer := by
  induction window with
  | nil => exact fun hcurrent hwriter => ⟨hcurrent, hwriter⟩
  | cons w window ih =>
    intro m t hcurrent hwriter
    obtain ⟨hcurrent', hwriter'⟩ := write_congr hcurrent hwriter w
    exact ih hcurrent' hwriter'

theorem fresh_cleared_iff (m : TrafficMonitor) : Fresh { m with dirty := false } ↔ m.Agrees ∨ m.Raises := by
  simp [Fresh, Agrees, Raises]

/-- The thread at `dirty = false` is where its steps lead from the beginning of the update. -/
theorem copied_window (delta now : Int) (window : Window) :
    (window.after.foldl write (copied delta window.torn { m with timestampLast := now })).current =
        (window.all.foldl write m).current ∧
      (window.after.foldl write (copied delta window.torn { m with timestampLast := now })).writer =
        (window.all.foldl write m).writer := by
  obtain ⟨hcurrent, hwriter⟩ := writes_congr window.torn (m := m) (t := { m with timestampLast := now }) rfl rfl
  unfold Window.all
  rw [List.foldl_append]
  exact writes_congr window.after hcurrent hwriter

theorem agrees_window (delta now : Int) (window : Window) :
    (window.after.foldl write (copied delta window.torn { m with timestampLast := now })).Agrees ↔
      m.copy window.torn = ((window.all.foldl write m).current.txTotal, (window.all.foldl write m).current.rxTotal) := by
  have htorn := (writes_congr window.torn (m := m) (t := { m with timestampLast := now }) rfl rfl).1
  unfold Agrees
  rw [writes_out, (copied_window delta now window).1, Prod.ext_iff]
  simp only [copied, copy, htorn]

theorem raises_window (delta now : Int) (window : Window) :
    (window.after.foldl write (copied delta window.torn { m with timestampLast := now })).Raises ↔
      (window.all.foldl write m).Raises := by
  unfold Raises
  rw [(copied_window delta now window).2]

theorem fresh_request_iff (h : Fresh m) (now : Int) (window : Window) :
    Fresh (m.requestUpdate now window).1 ↔ m.Apart (.request now window) := by
  unfold requestUpdate update Apart
  by_cases hdelta : wrapLong (now - m.timestampLast) = 0
  · rw [if_pos hdelta]
    exact ⟨fun _ hne => absurd hdelta hne, fun _ => fresh_writes window.all h⟩
  rw [if_neg hdelta]
  cases hdirty : m.dirty with
  | false =>
    rw [if_neg (by simp)]
    refine ⟨fun _ _ hd => absurd hd (by simp), fun _ => fresh_writes window.all ?_⟩
    exact h.imp id (Or.imp (fun hd => hdirty ▸ hd) id)
  | true =>
    rw [if_pos rfl, fresh_cleared_iff, ← hdirty, agrees_window, raises_window]
    exact ⟨fun h _ _ => h, fun h => h hdelta rfl⟩

theorem update_out (delta : Int) (window : Window) (m : TrafficMonitor) (h : (m.update delta window).2 = false) :
    (m.update delta window).1.out = m.out := by
  unfold update at h ⊢
  split
  · exact writes_out window.all m
  · rename_i hdelta
    rw [if_neg hdelta] at h
    split
    · rename_i hdirty
      rw [if_pos hdirty] at h
      cases h
    · rename_i hdirty
      rw [if_neg hdirty, decide_eq_false_iff_not] at h
      rw [writes_out]
      have hrates : m.out.txRate = 0 ∧ m.out.rxRate = 0 := by omega
      show TrafficStats.mk 0 0 m.out.txTotal m.out.rxTotal = ⟨m.out.txRate, m.out.rxRate, m.out.txTotal, m.out.rxTotal⟩
      rw [hrates.1, hrates.2]

/-- **No update, nothing new**: `out` is what it was. -/
theorem requestUpdate_out (now : Int) (window : Window) (h : (m.requestUpdate now window).2 = false) :
    (m.requestUpdate now window).1.out = m.out :=
  update_out _ window _ h

/-- The messages of an access repeat the totals. -/
def Repeats (tx rx : Int) : Access → Prop
  | .write w => w = .read tx rx ∨ w = .go
  | .request _ window => ∀ w ∈ window.all, w = .read tx rx ∨ w = .go

/-- The thread has nothing to write. -/
def Quiet (m : TrafficMonitor) : Prop := m.writer = .idle ∨ m.writer = .compareRx m.current.rxTotal

theorem quiet_write (h : Quiet m) {w : Write} (hw : w = .read m.current.txTotal m.current.rxTotal ∨ w = .go) :
    Quiet (m.write w) ∧ (m.write w).current = m.current ∧ (m.write w).dirty = m.dirty := by
  rcases hw with rfl | rfl <;> rcases h with h | h <;> simp [write, h, Quiet]

/-- An update was missed: `out` does not have the totals, and nothing is going to say so. -/
structure Stale (m : TrafficMonitor) : Prop where
  behind : ¬ m.Agrees
  clean  : m.dirty = false
  quiet  : m.Quiet

theorem stale_write (h : Stale m) {w : Write} (hw : w = .read m.current.txTotal m.current.rxTotal ∨ w = .go) :
    Stale (m.write w) ∧ (m.write w).current = m.current := by
  obtain ⟨hquiet, hcurrent, hdirty⟩ := quiet_write h.quiet hw
  have hbehind : ¬ (m.write w).Agrees := by
    unfold Agrees
    rw [write_out, hcurrent]
    exact h.behind
  exact ⟨⟨hbehind, hdirty.trans h.clean, hquiet⟩, hcurrent⟩

theorem stale_writes (window : List Write) : ∀ {m : TrafficMonitor}, Stale m →
    (∀ w ∈ window, w = .read m.current.txTotal m.current.rxTotal ∨ w = .go) →
      Stale (window.foldl write m) ∧ (window.foldl write m).current = m.current := by
  induction window with
  | nil => exact fun h _ => ⟨h, rfl⟩
  | cons w window ih =>
    intro m h hall
    obtain ⟨hstale, hcurrent⟩ := stale_write h (hall w List.mem_cons_self)
    have hrest : ∀ x ∈ window, x = .read (m.write w).current.txTotal (m.write w).current.rxTotal ∨ x = .go := by
      intro x hx
      rw [hcurrent]
      exact hall x (List.mem_cons_of_mem w hx)
    obtain ⟨hstale', hcurrent'⟩ := ih hstale hrest
    exact ⟨hstale', hcurrent'.trans hcurrent⟩

theorem stale_access (h : Stale m) {a : Access} (ha : Repeats m.current.txTotal m.current.rxTotal a)
    (ht : m.access a = some t) :
    Stale t ∧ t.current = m.current ∧ t.out.txTotal = m.out.txTotal ∧ t.out.rxTotal = m.out.rxTotal := by
  cases a with
  | write w =>
    cases ht
    obtain ⟨hstale, hcurrent⟩ := stale_write h ha
    exact ⟨hstale, hcurrent, by rw [write_out], by rw [write_out]⟩
  | request now window =>
    cases ht
    unfold requestUpdate update
    by_cases hdelta : wrapLong (now - m.timestampLast) = 0
    · rw [if_pos hdelta]
      have hstale : Stale { m with timestampLast := now } := ⟨h.behind, h.clean, h.quiet⟩
      obtain ⟨hstale', hcurrent⟩ := stale_writes window.all hstale ha
      exact ⟨hstale', hcurrent, by rw [writes_out], by rw [writes_out]⟩
    · rw [if_neg hdelta, if_neg (by simp [h.clean])]
      -- only the rates of `out` are put back
      have hstale : Stale { m with out := { m.out with txRate := 0, rxRate := 0 }, timestampLast := now } :=
        ⟨h.behind, h.clean, h.quiet⟩
      obtain ⟨hstale', hcurrent⟩ := stale_writes window.all hstale ha
      exact ⟨hstale', hcurrent, by rw [writes_out], by rw [writes_out]⟩

/-- **A missed update stays missed** as long as the messages repeat the totals. -/
theorem stale_run (h : Stale m) (later : List Access)
    (hrepeats : ∀ a ∈ later, Repeats m.current.txTotal m.current.rxTotal a) :
    Machine.always access (fun t => t.Stale ∧ t.out.txTotal = m.out.txTotal ∧ t.out.rxTotal = m.out.rxTotal) m later := by
  have hrun : Machine.always access (fun t => t.Stale ∧ t.current = m.current ∧ t.out.txTotal = m.out.txTotal ∧
      t.out.rxTotal = m.out.rxTotal) m later := by
    refine Machine.always_of_events ?_ later m ⟨h, rfl, rfl, rfl⟩ hrepeats
    rintro s a t ⟨hstale, hcurrent, htx, hrx⟩ ha ht
    obtain ⟨hstale', hcurrent', htx', hrx'⟩ := stale_access hstale (by rwa [hcurrent]) ht
    exact ⟨hstale', hcurrent'.trans hcurrent, htx'.trans htx, hrx'.trans hrx⟩
  exact Machine.always_mono (fun _ ht => ⟨ht.1, ht.2.2⟩) later m hrun

/-- **Which updates are missed.**  In a run of the thread and the main thread, a total that `out` does not have is always
going to be noticed just when no `dirty = false` comes upon a total that differs from the copied one with its flag raised.
A missed update stays missed until the totals change again. -/
theorem missed_updates (accesses : List Access) :
    (Machine.always access Fresh created accesses ↔ Machine.along access (fun m a _ => m.Apart a) created accesses) ∧
      ∀ m, Machine.run access created accesses = some m → m.Stale → ∀ later : List Access,
        (∀ a ∈ later, Repeats m.current.txTotal m.current.rxTotal a) →
          Machine.always access (fun t => t.Stale ∧ t.out.txTotal = m.out.txTotal ∧ t.out.rxTotal = m.out.rxTotal)
            m later := by
  refine ⟨?_, fun m _ hstale later hrepeats => stale_run hstale later hrepeats⟩
  refine Machine.always_iff_along (I := fun _ => True) (fun _ _ _ _ _ => trivial) ?_ accesses created trivial
    (.inl ⟨rfl, rfl⟩)
  intro m a t _ h ht
  cases a with
  | write w =>
    cases ht
    exact ⟨fun _ => trivial, fun _ => fresh_write h w⟩
  | request now window =>
    cases ht
    exact fresh_request_iff h now window

/-- The second message of a session comes while the first is being copied. -/
def overtaken : List Access := [.write (.read 10 0), .write .go, .request 1000 ⟨[], [.go, .read 20 0, .go, .go]⟩]

/-- Ten of twenty bytes are shown, and the same message once more does not help. -/
theorem missed_updates_overtaken : ∃ m, Machine.run access created overtaken = some m ∧ m.Stale ∧
    Machine.always access (fun t => t.Stale ∧ t.out.txTotal = m.out.txTotal ∧ t.out.rxTotal = m.out.rxTotal) m
      [.write (.read 20 0), .write .go, .request 2000 ⟨[], []⟩] := by
  have hstale : Stale ⟨⟨0, 0, 20, 0⟩, ⟨10, 0, 10, 0⟩, 1000, false, .idle⟩ := ⟨by simp [Agrees], rfl, .inl rfl⟩
  refine ⟨⟨⟨0, 0, 20, 0⟩, ⟨10, 0, 10, 0⟩, 1000, false, .idle⟩, rfl, hstale, (missed_updates overtaken).2 _ rfl hstale _ ?_⟩
  simp [Repeats]
  decide

end TrafficMonitor

/-! ## The binder -/

/-- A `ProxyInstance`, of which the binder reads the profile's id and the monitor. -/
structure MonitoredProxy where
  id             : Int
  trafficMonitor : Option TrafficMonitor
  deriving DecidableEq, Repr

/-- What the binder reads of `BaseService.Data`. -/
structure ServiceData where
  state : State
  proxy : Option MonitoredProxy
  deriving DecidableEq, Repr

/-- `BaseService.Binder`, among clients `C`. -/
structure Binder (C : Type) where
  /-- `none` once the binder was closed. -/
  data               : Option ServiceData
  callbacks          : List C
  bandwidthListeners : List (C × Nat)
  looper             : Bool
  /-- The `delay` at which the coroutine of `loop` is suspended, if there is one. -/
  sleeps             : Option Nat
  /-- What the last `trafficUpdated` of an id said to a client. -/
  shown              : C → Int → Option TrafficStats
  /-- A coroutine of the binder has thrown. -/
  failed             : Bool

namespace Binder

inductive Event (C : Type) where
  | registerCallback (cb : C)
  | unregisterCallback (cb : C)
  | callbackDied (cb : C)
  /-- `dead` says whether calls of the callback throw by now. -/
  | startListening (cb : C) (timeout : Nat) (dead : Bool)
  | stopListening (cb : C)
  /-- The delay of `loop` is over; calls of the callbacks in `dead` throw. -/
  | wakes (now : Int) (window : Window) (dead : List C)
  /-- A step of the monitor's thread. -/
  | writes (w : Write)
  /-- `data.proxy = ProxyInstance(profile)`. -/
  | created (id : Int)
  /-- `ProxyInstance.start`. -/
  | started
  | changeState (state : State)
  /-- `data.proxy = null`. -/
  | shutdown
  | close

section
variable {C : Type} [DecidableEq C]

def start : Binder C := ⟨some ⟨.stopped, none⟩, [], [], false, none, fun _ _ => none, false⟩

/-- `trafficUpdated`, as a client has it. -/
def trafficUpdated (view : Int → Option TrafficStats) (profileId : Int) (stats : TrafficStats) : Int → Option TrafficStats :=
  fun id => if id = profileId then some stats else view id

/-- The stats of one instance, and the sum over all of them. -/
def tell (view : Int → Option TrafficStats) (id : Int) (stats sum : TrafficStats) : Int → Option TrafficStats :=
  trafficUpdated (trafficUpdated view id stats) 0 sum

def listens (s : Binder C) (cb : C) : Bool := s.bandwidthListeners.any (fun p => p.1 = cb)

/-- `bandwidthListeners.values.minOrNull()`. -/
def shortest (s : Binder C) : Option Nat := (s.bandwidthListeners.map Prod.snd).min?

/-- `stopListeningForBandwidth`; without a looper `looper!!` throws. -/
def stopListening (s : Binder C) (cb : C) : Binder C :=
  if s.data = none then s
  else if s.listens cb then
    if s.bandwidthListeners.filter (fun p => p.1 ≠ cb) = [] then
      if s.looper then { s with bandwidthListeners := [], looper := false, sleeps := none }
      else { s with bandwidthListeners := [], failed := true }
    else { s with bandwidthListeners := s.bandwidthListeners.filter (fun p => p.1 ≠ cb) }
  else s

/-- The first half of `startListeningForBandwidth`: the map, and the loop of the first entry. -/
def enlist (s : Binder C) (cb : C) (timeout : Nat) : Binder C :=
  if s.bandwidthListeners = [] then
    if s.looper then { s with bandwidthListeners := [(cb, timeout)], failed := true }
    else { s with bandwidthListeners := [(cb, timeout)], looper := true, sleeps := some timeout }
  else { s with bandwidthListeners := s.bandwidthListeners.filter (fun p => p.1 ≠ cb) ++ [(cb, timeout)] }

/-- The second half: what a client is told at once. -/
def greet (s : Binder C) (cb : C) (dead : Bool) : Binder C :=
  match s.data with
  | some ⟨.connected, some proxy⟩ =>
    if dead then { s with failed := true }
    else
      { s with
        shown := fun c =>
          if c = cb then
            match proxy.trafficMonitor with
            | none => tell (s.shown cb) proxy.id .zero .zero
            | some m => tell (s.shown cb) proxy.id m.out (TrafficStats.zero.plus m.out)
          else s.shown c }
  | _ => s

def startListening (s : Binder C) (cb : C) (timeout : Nat) (dead : Bool) : Binder C :=
  if s.data = none then s
  else if (s.enlist cb timeout).failed then s.enlist cb timeout
  else (s.enlist cb timeout).greet cb dead

/-- `broadcast { item -> ... }` of `loop`. -/
def broadcast (s : Binder C) (dead : List C) (id : Int) (stats : TrafficStats) : Binder C :=
  { s with
    shown := fun c =>
      if c ∈ s.callbacks ∧ s.listens c ∧ c ∉ dead then tell (s.shown c) id stats (TrafficStats.zero.plus stats)
      else s.shown c }

/-- One turn of `loop`, up to the next `delay`; without a listener it returns. -/
def turn (s : Binder C) (now : Int) (window : Window) (dead : List C) : Binder C :=
  match s.data with
  | some ⟨state, some ⟨id, some m⟩⟩ =>
    if (m.requestUpdate now window).2 ∧ state = .connected ∧ s.bandwidthListeners ≠ [] then
      { s with
        data := some ⟨state, some ⟨id, some (m.requestUpdate now window).1⟩⟩
        sleeps := s.shortest }.broadcast dead id (m.requestUpdate now window).1.out
    else
      { s with
        data := some ⟨state, some ⟨id, some (m.requestUpdate now window).1⟩⟩
        sleeps := s.shortest }
  | _ => { s with sleeps := s.shortest }

/-- What the service does to its data. -/
def onProxy (s : Binder C) (f : ServiceData → ServiceData) : Binder C := { s with data := s.data.map f }

def step (s : Binder C) (e : Event C) : Option (Binder C) :=
  if s.failed then none
  else
    match e with
    | .registerCallback cb => some (if s.data = none then s else { s with callbacks := s.callbacks.filter (· ≠ cb) ++ [cb] })
    | .unregisterCallback cb | .callbackDied cb =>
      some { s.stopListening cb with callbacks := s.callbacks.filter (· ≠ cb) }
    | .startListening cb timeout dead => some (s.startListening cb timeout dead)
    | .stopListening cb => some (s.stopListening cb)
    | .wakes now window dead => if s.sleeps = none then none else some (s.turn now window dead)
    | .writes w =>
      match s.data with
      | some ⟨state, some ⟨id, some m⟩⟩ => some { s with data := some ⟨state, some ⟨id, some (m.write w)⟩⟩ }
      | _ => none
    | .created id => some (s.onProxy (fun d => { d with proxy := some ⟨id, none⟩ }))
    | .started => some (s.onProxy (fun d =>
        { d with proxy := d.proxy.map (fun p => { p with trafficMonitor := some .created }) }))
    | .changeState state => some (s.onProxy (fun d => { d with state := state }))
    | .shutdown => some (s.onProxy (fun d => { d with proxy := none }))
    | .close => some { s with data := none, callbacks := [], sleeps := none }

/-! ## The loop -/

/-- The loop goes on as long as somebody listens. -/
structure Looping (s : Binder C) : Prop where
  looper : s.looper = true ↔ s.bandwidthListeners ≠ []
  sleeps : s.sleeps ≠ none ↔ s.data ≠ none ∧ s.looper = true
  alive  : s.failed = false

variable {s t : Binder C} {cb : C}

omit [DecidableEq C] in
theorem Looping.congr (h : Looping s) (hlisteners : t.bandwidthListeners = s.bandwidthListeners)
    (hlooper : t.looper = s.looper) (hsleeps : t.sleeps = s.sleeps) (hdata : t.data = none ↔ s.data = none)
    (halive : t.failed = s.failed) : Looping t where
  looper := by rw [hlooper, hlisteners, h.looper]
  sleeps := by rw [hsleeps, hlooper, h.sleeps, Ne, Ne, hdata]
  alive := halive.trans h.alive

/-- What is left as it is by those who start and stop listening. -/
structure Same (s t : Binder C) : Prop where
  data      : t.data = s.data
  callbacks : t.callbacks = s.callbacks
  shown     : t.shown = s.shown

theorem stopListening_same (s : Binder C) (cb : C) : Same s (s.stopListening cb) := by
  unfold stopListening
  split
  · exact ⟨rfl, rfl, rfl⟩
  · split
    · split
      · split <;> exact ⟨rfl, rfl, rfl⟩
      · exact ⟨rfl, rfl, rfl⟩
    · exact ⟨rfl, rfl, rfl⟩

theorem enlist_same (s : Binder C) (cb : C) (timeout : Nat) : Same s (s.enlist cb timeout) := by
  unfold enlist
  split
  · split <;> exact ⟨rfl, rfl, rfl⟩
  · exact ⟨rfl, rfl, rfl⟩

theorem stopListening_looping (h : Looping s) (cb : C) : Looping (s.stopListening cb) := by
  unfold stopListening
  by_cases hdata : s.data = none
  · rw [if_pos hdata]
    exact h
  rw [if_neg hdata]
  by_cases hlistens : s.listens cb = true
  · rw [if_pos hlistens]
    have hlooper : s.looper = true := by
      refine h.looper.2 (fun hnil => ?_)
      simp [listens, hnil] at hlistens
    by_cases hlast : s.bandwidthListeners.filter (fun p => p.1 ≠ cb) = []
    · rw [if_pos hlast, if_pos hlooper]
      exact ⟨by simp, by simp, h.alive⟩
    · rw [if_neg hlast]
      exact ⟨⟨fun _ => hlast, fun _ => hlooper⟩, h.sleeps, h.alive⟩
  · rw [if_neg hlistens]
    exact h

theorem enlist_looping (h : Looping s) (hdata : s.data ≠ none) (cb : C) (timeout : Nat) : Looping (s.enlist cb timeout) := by
  unfold enlist
  by_cases hnil : s.bandwidthListeners = []
  · have hlooper : s.looper ≠ true := fun hl => h.looper.1 hl hnil
    rw [if_pos hnil, if_neg hlooper]
    exact ⟨by simp, by simp [hdata], h.alive⟩
  · rw [if_neg hnil]
    exact ⟨by simp [h.looper.2 hnil], h.sleeps, h.alive⟩

omit [DecidableEq C] in
theorem shortest_ne_none (h : s.bandwidthListeners ≠ []) : s.shortest ≠ none := by
  unfold shortest
  rw [Ne, List.min?_eq_none_iff, List.map_eq_nil_iff]
  exact h

/-- The loop is woken only while somebody listens, so it comes to its next `delay`. -/
theorem turn_looping (h : Looping s) (hsleeps : s.sleeps ≠ none) (now : Int) (window : Window) (dead : List C) :
    Looping (s.turn now window dead) := by
  obtain ⟨hdata, hlooper⟩ := h.sleeps.1 hsleeps
  have hshortest := shortest_ne_none (h.looper.1 hlooper)
  unfold turn
  split
  · rename_i hsome
    split <;> exact ⟨h.looper, by simp [broadcast, hshortest, hlooper], h.alive⟩
  · exact ⟨h.looper, by simp [hshortest, hlooper, hdata], h.alive⟩

/-- A client that is gone is not noticed in time. -/
theorem greet_looping (h : Looping s) (cb : C) (dead : Bool) :
    Looping (s.greet cb dead) ∨ dead = true ∧ (s.greet cb dead).failed = true := by
  unfold greet
  split
  · cases dead with
    | true => exact .inr ⟨rfl, rfl⟩
    | false => exact .inl (h.congr rfl rfl rfl Iff.rfl rfl)
  · exact .inl h

theorem alive_of_step {e : Event C} (hs : s.step e = some t) : s.failed = false := by
  cases hf : s.failed with
  | true => simp [step, hf] at hs
  | false => rfl

theorem looping_step (h : Looping s) {e : Event C} (hs : s.step e = some t) :
    Looping t ∨ t.failed = true ∧ ∃ cb timeout, e = .startListening cb timeout true := by
  unfold step at hs
  rw [if_neg (by simp [h.alive])] at hs
  cases e with
  | registerCallback cb =>
    cases hs
    left
    split
    · exact h
    · exact h.congr rfl rfl rfl Iff.rfl rfl
  | unregisterCallback cb | callbackDied cb =>
    cases hs
    exact .inl ((stopListening_looping h cb).congr rfl rfl rfl Iff.rfl rfl)
  | startListening cb timeout dead =>
    cases hs
    unfold startListening
    by_cases hdata : s.data = none
    · rw [if_pos hdata]
      exact .inl h
    · have henlist := enlist_looping h hdata cb timeout
      rw [if_neg hdata, if_neg (by simp [henlist.alive])]
      rcases greet_looping henlist cb dead with hgreet | ⟨rfl, hfailed⟩
      · exact .inl hgreet
      · exact .inr ⟨hfailed, cb, timeout, rfl⟩
  | stopListening cb =>
    cases hs
    exact .inl (stopListening_looping h cb)
  | wakes now window dead =>
    simp only [Option.ite_none_left_eq_some, Option.some.injEq] at hs
    obtain ⟨hsleeps, rfl⟩ := hs
    exact .inl (turn_looping h hsleeps now window dead)
  | writes w =>
    simp only at hs
    split at hs
    · rename_i hdata
      cases hs
      exact .inl (h.congr rfl rfl rfl (by simp [hdata]) rfl)
    · cases hs
  | created id | started | changeState state | shutdown =>
    cases hs
    exact .inl (h.congr rfl rfl rfl (by simp [onProxy]) rfl)
  | close =>
    cases hs
    exact .inl ⟨h.looper, by simp, h.alive⟩

theorem looping_of_alive {es : List (Event C)} (hrun : Machine.run step start es = some s) (halive : s.failed = false) :
    Looping s := by
  have hinv : Machine.always step (fun s : Binder C => s.failed = false → Looping s) start es := by
    refine Machine.always_of_inv (fun s e t h hs halive => ?_) es start (fun _ => ⟨by simp [start], by simp [start], rfl⟩)
    rcases looping_step (h (alive_of_step hs)) hs with h' | ⟨hfailed, -⟩
    · exact h'
    · rw [halive] at hfailed
      cases hfailed
  exact Machine.always_last es start hinv hrun halive

/-- **The loop runs just while somebody listens.**  In any order of calls, deaths and wake-ups neither `check(looper == null)`
nor `looper!!` throws, and the loop does not run out of listeners; a coroutine of the binder throws only when a client is gone
by the time it is told for the first time. -/
theorem loop_while_listening (es : List (Event C)) (s : Binder C) (hrun : Machine.run step start es = some s) :
    (s.failed = false → Looping s) ∧ (s.failed = true → ∃ cb timeout, .startListening cb timeout true ∈ es) := by
  refine ⟨looping_of_alive hrun, ?_⟩
  rcases List.eq_nil_or_concat es with rfl | ⟨before, e, rfl⟩
  · cases hrun
    intro hfailed
    cases hfailed
  · rw [List.concat_eq_append] at hrun ⊢
    obtain ⟨u, hu, hs⟩ := Machine.run_snoc_eq_some.1 hrun
    intro hfailed
    rcases looping_step (looping_of_alive hu (alive_of_step hs)) hs with h | ⟨-, cb, timeout, rfl⟩
    · rw [h.alive] at hfailed
      cases hfailed
    · exact ⟨cb, timeout, by simp⟩

/-- The notification listens, and stops when the screen goes off. -/
def screenOff : List (Event Nat) :=
  [.registerCallback 0, .startListening 0 1000 false, .wakes 1000 ⟨[], []⟩ [], .unregisterCallback 0]

theorem loop_while_listening_screenOff : ∃ s, Machine.run step start screenOff = some s ∧ Looping s :=
  ⟨_, rfl, (loop_while_listening screenOff _ rfl).1 rfl⟩

/-! ## What a client shows -/

/-- A client that listens in a session shows the monitor's numbers. -/
structure InSync (c : C) (s : Binder C) (id : Int) (m : TrafficMonitor) : Prop where
  session    : s.data = some ⟨.connected, some ⟨id, some m⟩⟩
  registered : c ∈ s.callbacks
  listens    : s.listens c = true
  own        : id ≠ 0 → s.shown c id = some m.out
  sum        : s.shown c 0 = some (TrafficStats.zero.plus m.out)

/-- The session goes on, and the client neither leaves nor dies. -/
def Stays (c : C) : Event C → Prop
  | .registerCallback _ | .startListening _ _ _ | .writes _ => True
  | .unregisterCallback cb | .callbackDied cb | .stopListening cb => cb ≠ c
  | .wakes _ _ dead => c ∉ dead
  | .created _ | .started | .changeState _ | .shutdown | .close => False

variable {c : C} {id : Int} {m : TrafficMonitor}

theorem listens_stopListening (hne : cb ≠ c) : (s.stopListening cb).listens c = s.listens c := by
  unfold stopListening
  split
  · rfl
  · split
    · have hother : ∀ l : List (C × Nat),
          (l.filter (fun p => p.1 ≠ cb)).any (fun p => p.1 = c) = l.any (fun p => p.1 = c) := by
        intro l
        rw [List.any_filter]
        congr 1
        funext p
        by_cases hp : p.1 = c
        · simp [hp, hne.symm]
        · simp [hp]
      split
      · rename_i hlast
        have hnone := hother s.bandwidthListeners
        rw [hlast] at hnone
        split <;> exact hnone
      · exact hother s.bandwidthListeners
    · rfl

theorem listens_enlist (timeout : Nat) (h : cb = c ∨ s.listens c = true) : (s.enlist cb timeout).listens c = true := by
  unfold enlist
  split
  · rename_i hnil
    rcases h with rfl | h
    · split <;> simp [listens]
    · simp [listens, hnil] at h
  · by_cases hcb : cb = c
    · simp [listens, hcb]
    · obtain ⟨p, hp, hpc⟩ := List.any_eq_true.1 (h.resolve_left hcb)
      rw [decide_eq_true_iff] at hpc
      refine List.any_eq_true.2 ⟨p, List.mem_append_left _ (List.mem_filter.2 ⟨hp, ?_⟩), by simp [hpc]⟩
      simp [hpc, Ne.symm hcb]

omit [DecidableEq C] in
theorem tell_own (view : Int → Option TrafficStats) (stats sum : TrafficStats) (hne : id ≠ 0) :
    tell view id stats sum id = some stats := by
  simp [tell, trafficUpdated, hne]

omit [DecidableEq C] in
theorem tell_sum (view : Int → Option TrafficStats) (stats sum : TrafficStats) : tell view id stats sum 0 = some sum := by
  simp [tell, trafficUpdated]

theorem InSync.congr (h : InSync c s id m) (hsame : Same s t) (hlistens : t.listens c = true) : InSync c t id m where
  session := hsame.data.trans h.session
  registered := hsame.callbacks ▸ h.registered
  listens := hlistens
  own hne := hsame.shown ▸ h.own hne
  sum := hsame.shown ▸ h.sum

/-- A client that asks is told; the others go on showing what they show. -/
theorem inSync_greet (hdata : s.data = some ⟨.connected, some ⟨id, some m⟩⟩) (hregistered : c ∈ s.callbacks)
    (hlistens : s.listens c = true) {dead : Bool} (h : cb = c ∧ dead = false ∨ InSync c s id m) :
    InSync c (s.greet cb dead) id m := by
  have hgreet : s.greet cb dead =
      if dead then { s with failed := true }
      else { s with
        shown := fun d => if d = cb then tell (s.shown cb) id m.out (TrafficStats.zero.plus m.out) else s.shown d } := by
    unfold greet
    rw [hdata]
  rw [hgreet]
  cases dead with
  | true =>
    rcases h with ⟨-, h⟩ | h
    · cases h
    · exact h.congr ⟨rfl, rfl, rfl⟩ hlistens
  | false =>
    by_cases hcb : c = cb
    · subst hcb
      exact ⟨hdata, hregistered, hlistens, fun hne => by simp [tell_own _ _ _ hne], by simp [tell_sum]⟩
    · have hsync := h.resolve_left (fun h => hcb h.1.symm)
      exact ⟨hdata, hregistered, hlistens, fun hne => by simp [hcb, hsync.own hne], by simp [hcb, hsync.sum]⟩

theorem inSync_startListening (h : InSync c s id m) (cb : C) (timeout : Nat) (dead : Bool) :
    InSync c (s.startListening cb timeout dead) id m := by
  have hsame := enlist_same s cb timeout
  have henlist := h.congr hsame (listens_enlist timeout (.inr h.listens))
  unfold startListening
  split
  · exact h
  · split
    · exact henlist
    · exact inSync_greet henlist.session henlist.registered henlist.listens (.inr henlist)

/-- **A turn of the loop** tells those who listen what is new, and there is something to tell whenever `out` changes. -/
theorem inSync_turn (h : InSync c s id m) (now : Int) (window : Window) {dead : List C} (hdead : c ∉ dead) :
    InSync c (s.turn now window dead) id (m.requestUpdate now window).1 := by
  have hne : s.bandwidthListeners ≠ [] := by
    intro hnil
    have hlistens := h.listens
    simp [Binder.listens, hnil] at hlistens
  unfold turn
  rw [h.session]
  by_cases hupdated : (m.requestUpdate now window).2 = true
  · have hcond : c ∈ s.callbacks ∧ s.listens c = true ∧ c ∉ dead := ⟨h.registered, h.listens, hdead⟩
    simp only [hupdated, hne, ne_eq, not_false_eq_true, and_self, if_true]
    refine ⟨rfl, h.registered, h.listens, fun hid => ?_, ?_⟩
    · exact (congrFun (if_pos hcond) id).trans (tell_own _ _ _ hid)
    · exact (congrFun (if_pos hcond) 0).trans (tell_sum _ _ _)
  · have hsame := m.requestUpdate_out now window (Bool.not_eq_true _ ▸ hupdated)
    dsimp only
    rw [if_neg (fun hc => hupdated hc.1)]
    exact ⟨rfl, h.registered, h.listens, fun hid => hsame ▸ h.own hid, hsame ▸ h.sum⟩

theorem inSync_step (h : InSync c s id m) {e : Event C} (he : Stays c e) (hs : s.step e = some t) :
    ∃ m', InSync c t id m' := by
  unfold step at hs
  split at hs
  · cases hs
  cases e with
  | registerCallback cb =>
    cases hs
    refine ⟨m, ?_⟩
    split
    · exact h
    · refine ⟨h.session, ?_, h.listens, h.own, h.sum⟩
      by_cases hcb : c = cb
      · simp [hcb]
      · simp [h.registered, hcb]
  | unregisterCallback cb | callbackDied cb =>
    cases hs
    have hstop := h.congr (stopListening_same s cb) ((listens_stopListening he).trans h.listens)
    exact ⟨m, hstop.session, by simp [h.registered, Ne.symm he], hstop.listens, hstop.own, hstop.sum⟩
  | startListening cb timeout dead =>
    cases hs
    exact ⟨m, inSync_startListening h cb timeout dead⟩
  | stopListening cb =>
    cases hs
    exact ⟨m, h.congr (stopListening_same s cb) ((listens_stopListening he).trans h.listens)⟩
  | wakes now window dead =>
    simp only [Option.ite_none_left_eq_some, Option.some.injEq] at hs
    obtain ⟨-, rfl⟩ := hs
    exact ⟨_, inSync_turn h now window he⟩
  | writes w =>
    simp only [h.session, Option.some.injEq] at hs
    subst hs
    exact ⟨m.write w, rfl, h.registered, h.listens, fun hid => m.write_out w ▸ h.own hid, m.write_out w ▸ h.sum⟩
  | created id' | started | changeState state | shutdown | close => cases he

/-- **A client shows the monitor's numbers from the moment it asks for them.**  In every state of every run, a registered
client that starts to listen in a session is told `out` and its sum, and whatever happens then, until it leaves or the session
ends, what it shows is `out`. -/
theorem shown_in_sync (es : List (Event C)) {s t : Binder C} (hrun : Machine.run step start es = some s) {c : C} {id : Int}
    {m : TrafficMonitor} (hdata : s.data = some ⟨.connected, some ⟨id, some m⟩⟩) (hregistered : c ∈ s.callbacks) (timeout : Nat)
    (hs : s.step (.startListening c timeout false) = some t) (later : List (Event C)) (hlater : ∀ e ∈ later, Stays c e) :
    Machine.always step (fun u => ∃ m', InSync c u id m') t later := by
  have hlooping : Looping s := looping_of_alive hrun (alive_of_step hs)
  have henlist := enlist_looping hlooping (by simp [hdata]) c timeout
  have hsame := enlist_same s c timeout
  have ht : t = (s.enlist c timeout).greet c false := by
    simp [step, hlooping.alive, startListening, hdata, henlist.alive] at hs
    exact hs.symm
  have hsync : InSync c t id m := by
    rw [ht]
    exact inSync_greet (hsame.data.trans hdata) (hsame.callbacks ▸ hregistered) (listens_enlist timeout (.inl rfl))
      (.inl ⟨rfl, rfl⟩)
  refine Machine.always_of_events ?_ later t ⟨m, hsync⟩ hlater
  rintro u e v ⟨m', h⟩ he hv
  exact inSync_step h he hv

/-- A session with server 7. -/
def session : List (Event Nat) := [.created 7, .started, .changeState .connected, .registerCallback 0]

theorem shown_in_sync_session :
    ∃ s t, Machine.run step start session = some s ∧ s.step (.startListening 0 1000 false) = some t ∧
      Machine.always step (fun u => ∃ m, InSync 0 u 7 m) t
        [.writes (.read 10 20), .writes .go, .wakes 1000 ⟨[.go], [.go]⟩ []] := by
  refine ⟨_, _, rfl, rfl, shown_in_sync session rfl rfl List.mem_cons_self 1000 rfl _ ?_⟩
  simp [Stays]

end
end Binder
end Riddles
