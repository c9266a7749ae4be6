import GoRiddles.Tunnel
import GoRiddles.HomeMoves
import GoRiddles.ServiceEffect
/-!
# TunnelServer — is the server shown the server used?

A start is in flight from the click that asks for it until its `Connected` has arrived.  If there is one at a time, and
no row of the server list changes the address of the selected server while the app is connected or a start is in flight
(the dialog, which disconnects, may), the service runs the selected server whenever the home screen is idle and
connected.  The list itself does not see to either: it compares ips and not ports, and it takes a pick while a start is
under way.
-/
namespace Riddles
namespace Tunnel

variable {info : ServerInfoManager} {table : ProfileTable} {s t : Tunnel} {e : Event} {h : Home} {v : Service}

/-- The starts that reached the service and whose `Connected` did not arrive. -/
def landing (s : Tunnel) : Nat :=
  s.service.jobs.length + s.reports.count .connected + (if s.bound ∨ s.service.state ≠ .connected then 0 else 1)

def inFlight (s : Tunnel) : Nat := s.home.server.connects + s.starts + s.landing

/-- The service, if it runs, runs a profile at the address of the effective server. -/
def RunsSelected (s : Tunnel) : Prop := ∀ p, s.service.proxy = some p → p.profile.address = s.home.server.address

/-- **The server shown is the server used**, whenever the home screen is idle and connected. -/
def ShownIsUsed (s : Tunnel) : Prop :=
  s.home.canClick = true → s.home.result = none → s.home.server.isConnected = true → s.RunsSelected

/-- One start is in flight at a time. -/
def OneStart (s : Tunnel) : Prop := s.inFlight ≤ 1

/-- A server that is taken at once, while the app is connected or a start is in flight, has the effective address. -/
def PicksKeep (info : ServerInfoManager) (s : Tunnel) : Event → Prop
  | .home (.row position) => ∀ bean ∈ info.adapterList[position]?, s.home.asksFirst bean = false →
      s.home.server.isConnected = true ∨ s.inFlight ≠ 0 →
        ({ s.home.server with currentServer := bean } : ConnectServer).address = s.home.server.address
  | _ => True

instance : Decidable (OneStart s) := inferInstanceAs (Decidable (_ ≤ _))

instance : Decidable (PicksKeep info s e) := by
  unfold PicksKeep
  split <;> infer_instance

/-- The app is connected, or about to disconnect. -/
def Settled (h : Home) : Prop :=
  h.server.isConnected = true ∨ (∃ bean, h.chooser = .dialog bean) ∨ h.result = some .disconnect

/-- **Where the start in flight is, and what it is for.** -/
structure Flight (table : ProfileTable) (s : Tunnel) : Prop where
  guarded : s.home.Guarded
  one     : s.inFlight ≤ 1
  settled : Settled s.home → s.inFlight = 0
  heading : s.starts ≠ 0 → ∀ p, table.getProfile s.profileId = some p → p.address = s.home.server.address
  running : s.home.server.isConnected = true ∨ s.landing ≠ 0 → s.home.result = some .disconnect ∨ s.RunsSelected

theorem Flight.shownIsUsed (hf : Flight table s) : s.ShownIsUsed := by
  intro _ hr hc
  rcases hf.running (.inl hc) with hd | hrun
  · rw [hr] at hd
    cases hd
  · exact hrun

theorem flight_initial (table : ProfileTable) (profileId : Nat) (hjobs : v.jobs = []) (hstate : v.state ≠ .connected) :
    Flight table (initial profileId v) := by
  have hlanding : (initial profileId v).landing = 0 := by
    show v.jobs.length + 0 + (if false = true ∨ v.state ≠ .connected then 0 else 1) = 0
    rw [hjobs, if_pos (.inr hstate)]
    rfl
  have hflight : (initial profileId v).inFlight = 0 := by
    show 0 + 0 + (initial profileId v).landing = 0
    rw [hlanding]
  refine ⟨Home.guarded_initial, hflight ▸ Nat.zero_le 1, fun _ => hflight, fun hst => absurd rfl hst, fun hrun => ?_⟩
  rcases hrun with hc | hl
  · cases hc
  · exact absurd hlanding hl

/-! ## The home screen moves -/

theorem Flight.keeps (hf : Flight table s) (hg : h.Guarded) (server : Home.Kept s.home.server h.server)
    (dialog : ∀ bean, h.chooser = .dialog bean → s.home.chooser = .dialog bean ∨ s.home.server.isConnected = true)
    (leaves : h.result = some .disconnect → s.home.result = some .disconnect)
    (stays : s.home.result = some .disconnect → h.result = some .disconnect ∨ s.home.server.isConnected = false) :
    Flight table { s with home := h } := by
  have hflight : inFlight { s with home := h } = s.inFlight := by
    show h.server.connects + s.starts + s.landing = _
    rw [server.connects]
    rfl
  have hconn : h.server.isConnected = s.home.server.isConnected := by
    unfold ConnectServer.isConnected
    rw [server.state]
  refine ⟨hg, hflight ▸ hf.one, fun hset => ?_, ?_, fun hrun => ?_⟩
  · rw [hflight]
    refine hf.settled ?_
    rcases hset with hc | ⟨bean, hd⟩ | hl
    · exact .inl (hconn ▸ hc)
    · exact (dialog bean hd).elim (fun hd => .inr (.inl ⟨bean, hd⟩)) .inl
    · exact .inr (.inr (leaves hl))
  · show s.starts ≠ 0 → ∀ p, table.getProfile s.profileId = some p → p.address = h.server.address
    rw [server.address]
    exact hf.heading
  · show h.result = _ ∨ ∀ p, s.service.proxy = some p → p.profile.address = h.server.address
    rw [server.address]
    have hrun' : s.home.server.isConnected = true ∨ s.landing ≠ 0 := hconn ▸ hrun
    rcases hf.running hrun' with hd | hr
    · rcases stays hd with hd' | hnc
      · exact .inl hd'
      · -- a pending disconnect leaves nothing in flight
        rcases hrun' with hc | hl
        · rw [hnc] at hc
          cases hc
        · have hzero := hf.settled (.inr (.inr hd))
          unfold inFlight at hzero
          omega
    · exact .inr hr

theorem flight_connects (hg : h.Guarded) (server : h.server = s.home.server.connect)
    (hnone : s.inFlight = 0) (chooser : h.chooser = .closed) (result : h.result = none) :
    Flight table { s with home := h } := by
  have hzero : s.home.server.connects = 0 ∧ s.starts = 0 ∧ s.landing = 0 := by
    unfold inFlight at hnone
    omega
  have hconn : h.server.isConnected = false := by
    rw [server]
    rfl
  refine ⟨hg, ?_, fun hset => ?_, fun hst => absurd hzero.2.1 hst, fun hrun => ?_⟩
  · show h.server.connects + s.starts + s.landing ≤ 1
    rw [server, hzero.2.1, hzero.2.2]
    show s.home.server.connects + 1 ≤ 1
    rw [hzero.1]
  · unfold Settled at hset
    rw [hconn, chooser, result] at hset
    rcases hset with hc | ⟨_, hd⟩ | hl
    · cases hc
    · cases hd
    · cases hl
  · rcases hrun with hc | hl
    · rw [hconn] at hc
      cases hc
    · exact absurd hzero.2.2 hl

theorem Flight.disconnects (hf : Flight table s) (hg : h.Guarded) (hconn : s.home.server.isConnected = true)
    (server : h.server = s.home.server.disconnect) : Flight table { s with home := h } := by
  have hnone := hf.settled (.inl hconn)
  have hflight : inFlight { s with home := h } = 0 := by
    rw [← hnone]
    show h.server.connects + s.starts + s.landing = _
    rw [server]
    rfl
  have hnc : h.server.isConnected = false := by
    rw [server]
    rfl
  refine ⟨hg, hflight ▸ Nat.zero_le 1, fun _ => hflight, ?_, fun hrun => ?_⟩
  · show s.starts ≠ 0 → ∀ p, table.getProfile s.profileId = some p → p.address = h.server.address
    rw [server]
    exact hf.heading
  · rcases hrun with hc | hl
    · rw [hnc] at hc
      cases hc
    · refine absurd ?_ hl
      have hl' : h.server.connects + s.starts + s.landing = 0 := hflight
      show s.landing = 0
      omega

/-- A server is chosen: in the dialog nothing is in flight, in the list the address stays if it matters. -/
theorem Flight.chosen {bean : ServerBean} {action : Action} (hf : Flight table s) (hg : h.Guarded)
    (how : (s.home.server.isConnected = true ∨ s.inFlight ≠ 0 → h.server.address = s.home.server.address) ∧
      action ≠ .disconnect ∨ s.home.chooser = .dialog bean ∧ action = .disconnect)
    (was : s.home.result = none) (server : h.server = { s.home.server with currentServer := bean })
    (chooser : h.chooser = .closed) (result : h.result = some action) : Flight table { s with home := h } := by
  have hflight : inFlight { s with home := h } = s.inFlight := by
    show h.server.connects + s.starts + s.landing = _
    rw [server]
    rfl
  have hconn : h.server.isConnected = s.home.server.isConnected := by
    rw [server]
    rfl
  have hstarts : s.starts ≠ 0 → s.inFlight ≠ 0 := by
    unfold inFlight
    omega
  have hlanding : s.landing ≠ 0 → s.inFlight ≠ 0 := by
    unfold inFlight
    omega
  refine ⟨hg, hflight ▸ hf.one, fun hset => ?_, fun hst => ?_, fun hrun => ?_⟩
  · rw [hflight]
    refine hf.settled ?_
    unfold Settled at hset
    rw [hconn, chooser, result] at hset
    rcases hset with hc | ⟨_, hd⟩ | hl
    · exact .inl hc
    · cases hd
    · cases hl
      rcases how with ⟨-, hne⟩ | ⟨hd, -⟩
      · exact absurd rfl hne
      · exact .inr (.inl ⟨bean, hd⟩)
  · have hne := hstarts hst
    rcases how with ⟨hkeep, -⟩ | ⟨hd, -⟩
    · show ∀ p, table.getProfile s.profileId = some p → p.address = h.server.address
      rw [hkeep (.inr hne)]
      exact hf.heading hst
    · exact absurd (hf.settled (.inr (.inl ⟨bean, hd⟩))) hne
  · have hrun' : s.home.server.isConnected = true ∨ s.landing ≠ 0 := hconn ▸ hrun
    rcases how with ⟨hkeep, -⟩ | ⟨-, hdis⟩
    · right
      show ∀ p, s.service.proxy = some p → p.profile.address = h.server.address
      rw [hkeep (hrun'.imp_right hlanding)]
      rcases hf.running hrun' with hd | hr
      · rw [was] at hd
        cases hd
      · exact hr
    · left
      rw [← hdis]
      exact result

theorem flight_home {e : Home.Event} (hf : Flight table s) (hm : Home.Move info e s.home h)
    (hone : OneStart { s with home := h }) (hkeep : PicksKeep info s (.home e)) : Flight table { s with home := h } := by
  have hg := hm.guarded hf.guarded
  have hnext : h.server = s.home.server.connect → s.inFlight = 0 := by
    intro server
    have hle : h.server.connects + s.starts + s.landing ≤ 1 := hone
    have hadd : h.server.connects = s.home.server.connects + 1 := by
      rw [server]
      rfl
    unfold inFlight
    omega
  cases hm with
  | screens server _ _ _ result _ dialog =>
    exact hf.keeps hg server dialog (fun hl => result ▸ hl) (fun hd => .inl (result.trans hd))
  | dropped was server _ _ _ chooser result =>
    refine hf.keeps hg (server ▸ .rfl) (fun _ hd => ?_) (fun hl => ?_) (fun hd => ?_)
    · rw [chooser] at hd
      cases hd
    · rw [result] at hl
      cases hl
    · rw [was] at hd
      cases hd
  | denied _ server _ _ _ chooser result | ended _ server _ _ _ chooser result =>
    exact hf.keeps hg (server ▸ .rfl) (fun bean hd => .inl (chooser ▸ hd)) (fun hl => result ▸ hl)
      (fun hd => .inl (result.trans hd))
  | granted was server _ _ _ chooser result =>
    obtain ⟨-, hclosed, hnone⟩ := hf.guarded.waiting was
    exact flight_connects hg server (hnext server) (chooser.trans hclosed) (result.trans hnone)
  | chosen bean action was how server _ _ _ chooser result =>
    refine hf.chosen hg ?_ (hf.guarded.chooser was).2 server chooser result
    rcases how with ⟨⟨position, rfl, hrow, hask⟩, hne⟩ | hd
    · refine .inl ⟨fun hwhen => ?_, hne⟩
      rw [server]
      exact hkeep bean hrow hask hwhen
    · exact .inr hd
  | clicked click chooser result =>
    have hlist : ∀ bean, h.chooser = .dialog bean →
        s.home.chooser = .dialog bean ∨ s.home.server.isConnected = true := fun bean hd => by
      rw [chooser] at hd
      cases hd
    have hnone : h.result = some .disconnect → s.home.result = some .disconnect := fun hl => by
      rw [result] at hl
      cases hl
    cases click with
    | ignored blocked server =>
      refine hf.keeps hg (server ▸ .rfl) hlist hnone (fun hd => ?_)
      have hcan := hf.guarded.result (by rw [hd]; exact fun hc => by cases hc)
      rw [blocked] at hcan
      cases hcan
    | disconnects _ connected server => exact hf.disconnects hg connected server
    | refused _ connected server | asks _ connected server =>
      exact hf.keeps hg (server ▸ .rfl) hlist hnone (fun _ => .inr connected)
    | connects _ _ server => exact flight_connects hg server (hnext server) chooser result

/-! ## Reports -/

/-- A report that is not `Connected`, or one whose start has nothing else in flight. -/
theorem Flight.reported {state : State} (hf : Flight table s) (hr : Home.Reported state s.home h) (home : t.home = h)
    (profileId : t.profileId = s.profileId) (starts : t.starts = s.starts) (service : t.service = s.service)
    (hle : t.landing ≤ s.landing) (hlands : state = .connected → t.landing < s.landing) : Flight table t := by
  have hflight : t.inFlight + s.landing = s.inFlight + t.landing := by
    unfold inFlight
    rw [home, hr.connects, starts]
    omega
  have hone := hf.one
  have hsplit : s.inFlight = s.home.server.connects + s.starts + s.landing := rfl
  have hconn : h.server.isConnected = true → state = .connected := fun hc => hr.state ▸ of_decide_eq_true hc
  subst home
  refine ⟨hr.guarded hf.guarded, by omega, fun hset => ?_, ?_, fun hrun => ?_⟩
  · unfold Settled at hset
    rw [hr.chooser, hr.result] at hset
    rcases hset with hc | hset
    · have := hlands (hconn hc)
      omega
    · have := hf.settled (.inr hset)
      omega
  · rw [starts, profileId, hr.address]
    exact hf.heading
  · have hland : s.landing ≠ 0 := by
      rcases hrun with hc | hl
      · have := hlands (hconn hc)
        omega
      · omega
    unfold RunsSelected
    rw [hr.result, service, hr.address]
    exact hf.running (.inr hland)

theorem flight_bind (hf : Flight table s) (hunbound : s.bound = false)
    (hr : Home.Reported s.service.state s.home h) : Flight table { s with home := h, bound := true } := by
  have hs : s.landing = s.service.jobs.length + s.reports.count .connected +
      (if s.service.state ≠ .connected then 0 else 1) := by
    unfold landing
    rw [hunbound]
    simp
  have ht : landing { s with home := h, bound := true } = s.service.jobs.length + s.reports.count .connected := by
    unfold landing
    simp
  refine hf.reported hr rfl rfl rfl rfl ?_ (fun hc => ?_)
  · omega
  · rw [if_neg (not_not.2 hc)] at hs
    omega

theorem flight_report {state : State} {reports : List State} (hf : Flight table s) (hreports : s.reports = state :: reports)
    (hr : Home.Reported state s.home h) : Flight table { s with home := h, reports := reports } := by
  have hcount : s.landing = landing { s with home := h, reports := reports } + if state = .connected then 1 else 0 := by
    unfold landing
    rw [hreports, List.count_cons]
    simp only [beq_iff_eq]
    omega
  refine hf.reported hr rfl rfl rfl rfl (by omega) (fun hc => ?_)
  rw [if_pos hc] at hcount
  omega

/-! ## The coroutine of `connect` -/

theorem connectBody_spec {c d : ConnectServer} {draw id : Nat} (hs : c.connectBody info table draw = .ok (d, id)) :
    d.state = c.state ∧ d.connects = c.connects ∧ ∀ p, table.getProfile id = some p → p.address = d.address := by
  unfold ConnectServer.connectBody at hs
  split at hs
  · rename_i hfast
    split at hs
    · cases hs
    · rename_i fastServer _
      cases hs
      refine ⟨rfl, rfl, fun p hp => ?_⟩
      unfold ConnectServer.address ConnectServer.effective
      rw [if_pos hfast]
      exact ServerBean.address_of_getServerId hp
  · rename_i hslow
    cases hs
    refine ⟨rfl, rfl, fun p hp => ?_⟩
    unfold ConnectServer.address ConnectServer.effective
    rw [if_neg hslow]
    exact ServerBean.address_of_getServerId hp

theorem flight_connectRuns {server : ConnectServer} {draw id : Nat} (hf : Flight table s)
    (hlaunched : s.home.server.connects ≠ 0) (hs : s.home.server.connectBody info table draw = .ok (server, id)) :
    Flight table { s with
      home := { s.home with server := { server with connects := server.connects - 1 } }
      profileId := id, starts := s.starts + 1 } := by
  obtain ⟨hstate, hconnects, haddr⟩ := connectBody_spec hs
  have hone := hf.one
  have hsplit : s.inFlight = s.home.server.connects + s.starts + s.landing := rfl
  have hconn : server.isConnected = false := by
    by_contra hc
    rw [Bool.not_eq_false] at hc
    unfold ConnectServer.isConnected at hc
    rw [hstate] at hc
    have := hf.settled (.inl hc)
    omega
  refine ⟨hf.guarded.congr rfl rfl rfl rfl rfl, ?_, fun hset => ?_, fun _ => haddr, fun hrun => ?_⟩
  · show server.connects - 1 + (s.starts + 1) + s.landing ≤ 1
    omega
  · rcases hset with hc | hset
    · have hc' : server.isConnected = true := hc
      rw [hconn] at hc'
      cases hc'
    · have := hf.settled (.inr hset)
      omega
  · rcases hrun with hc | hl
    · have hc' : server.isConnected = true := hc
      rw [hconn] at hc'
      cases hc'
    · have hl' : s.landing ≠ 0 := hl
      omega

/-! ## The service -/

theorem reports_serve {as : List Announcement} (h : v.announced = s.service.announced ++ as) :
    (s.serve v).reports = if s.bound then s.reports ++ as.map Announcement.state else s.reports := by
  unfold serve
  rw [h, List.drop_left]

theorem landing_quiet (hq : Service.Quiet s.service v) : (s.serve v).landing ≤ s.landing := by
  obtain ⟨as, has, hne⟩ := hq.announced
  have hnone : (as.map Announcement.state).count .connected = 0 := by
    refine List.count_eq_zero.2 (fun hm => ?_)
    obtain ⟨a, ha, hc⟩ := List.mem_map.1 hm
    exact hne a ha hc
  have hjobs := hq.jobs
  unfold landing
  rw [reports_serve has]
  show v.jobs.length + _ + (if s.bound = true ∨ v.state ≠ .connected then 0 else 1) ≤ _
  by_cases hb : s.bound = true
  · rw [if_pos hb, if_pos (.inl hb), if_pos (.inl hb), List.count_append, hnone]
    omega
  · rw [if_neg hb]
    by_cases hc : v.state = .connected
    · rw [if_neg (by simp [hb, hc]), if_neg (by simp [hb, hq.connected hc])]
      omega
    · rw [if_pos (.inr hc)]
      omega

/-- A job that connects is on its way as a report instead. -/
theorem landing_landed (hl : Service.Landed s.service v) : (s.serve v).landing ≤ s.landing := by
  obtain ⟨a, ha, hc⟩ := hl.announced
  have hjobs := hl.jobs
  unfold landing
  rw [reports_serve ha]
  show v.jobs.length + _ + (if s.bound = true ∨ v.state ≠ .connected then 0 else 1) ≤ _
  by_cases hb : s.bound = true
  · rw [if_pos hb, if_pos (.inl hb), List.count_append, List.map_singleton, hc, List.count_singleton_self]
    omega
  · rw [if_neg hb]
    split <;> omega

theorem Flight.serves (hf : Flight table s) (hle : (s.serve v).landing ≤ s.landing)
    (hproxy : v.proxy = s.service.proxy ∨ v.proxy = none) : Flight table (s.serve v) := by
  have hflight : (s.serve v).inFlight ≤ s.inFlight := Nat.add_le_add_left hle _
  refine ⟨hf.guarded, hflight.trans hf.one, fun hset => ?_, hf.heading, fun hrun => ?_⟩
  · have := hf.settled hset
    omega
  · have hrun' : s.home.server.isConnected = true ∨ s.landing ≠ 0 := hrun.imp_right (fun hl => by omega)
    refine (hf.running hrun').imp_right (fun hr p hp => ?_)
    have hp' : v.proxy = some p := hp
    rcases hproxy with he | he
    · exact hr p (he ▸ hp')
    · rw [he] at hp'
      cases hp'

theorem Flight.own_step {e : Service.Event} (hf : Flight table s)
    (he : ∀ vpnMode prepared profile, e ≠ .onStartCommand vpnMode prepared profile)
    (hs : s.service.step e = some v) : Flight table (s.serve v) := by
  rcases Service.own_effect he hs with hq | hl
  · exact hf.serves (landing_quiet hq) hq.proxy
  · exact hf.serves (landing_landed hl) (.inl hl.proxy)

theorem Flight.delivered (hf : Flight table s) : Flight table { s with starts := s.starts - 1 } := by
  have hflight : inFlight { s with starts := s.starts - 1 } ≤ s.inFlight := by
    show s.home.server.connects + (s.starts - 1) + s.landing ≤ s.home.server.connects + s.starts + s.landing
    omega
  refine ⟨hf.guarded, hflight.trans hf.one, fun hset => ?_, fun hst => ?_, hf.running⟩
  · have := hf.settled hset
    omega
  · have hst' : s.starts - 1 ≠ 0 := hst
    exact hf.heading (by omega)

/-- **The start command finds the selected server.** -/
theorem Flight.launches {p : Profile} (hf : Flight table s) (hstarts : s.starts ≠ 0)
    (hp : table.getProfile s.profileId = some p) (hl : Service.Launched s.service v p) :
    Flight table { s.serve v with starts := s.starts - 1 } := by
  have hreports : (s.serve v).reports = s.reports := by
    have hnew : v.announced = s.service.announced ++ [] := by rw [hl.announced, List.append_nil]
    rw [reports_serve hnew]
    simp
  have hlanding : landing { s.serve v with starts := s.starts - 1 } = s.landing + 1 := by
    show v.jobs.length + (s.serve v).reports.count .connected +
      (if s.bound = true ∨ v.state ≠ .connected then 0 else 1) = _
    rw [hreports, hl.jobs, hl.state]
    unfold landing
    omega
  have hflight : inFlight { s.serve v with starts := s.starts - 1 } = s.inFlight := by
    show s.home.server.connects + (s.starts - 1) + landing { s.serve v with starts := s.starts - 1 } =
      s.home.server.connects + s.starts + s.landing
    omega
  have hruns : RunsSelected { s.serve v with starts := s.starts - 1 } := by
    intro q hq
    obtain ⟨id, hid⟩ := hl.proxy
    have hq' : v.proxy = some q := hq
    rw [hid] at hq'
    cases hq'
    exact hf.heading hstarts p hp
  exact ⟨hf.guarded, hflight ▸ hf.one, fun hset => hflight ▸ hf.settled hset, fun _ => hf.heading hstarts,
    fun _ => .inr hruns⟩

/-! ## Runs -/

/-- **A step keeps the selected server**, under the two conditions. -/
theorem flight_step (s : Tunnel) (e : Event) (t : Tunnel) (hf : Flight table s) (hq : OneStart t ∧ PicksKeep info s e)
    (hs : step info table s e = some t) : Flight table t := by
  obtain ⟨hone, hkeep⟩ := hq
  unfold step at hs
  split at hs
  · cases hs
  · cases e with
    | home e =>
      dsimp only at hs
      split at hs
      · cases hs
      · rename_i hrep
        obtain ⟨h, hh, rfl⟩ := Option.map_eq_some_iff.1 hs
        exact flight_home hf (Home.move_of_step hf.guarded (Bool.not_eq_true _ ▸ hrep) hh) hone hkeep
    | bind =>
      dsimp only at hs
      split at hs
      · cases hs
      · rename_i hb
        obtain ⟨h, hh, rfl⟩ := Option.map_eq_some_iff.1 hs
        exact flight_bind hf (Bool.not_eq_true _ ▸ hb) (Home.reported_of_bind hh)
    | report =>
      dsimp only at hs
      split at hs
      · cases hs
      · rename_i state reports hreports
        obtain ⟨h, hh, rfl⟩ := Option.map_eq_some_iff.1 hs
        exact flight_report hf hreports (Home.reported_of_report hh)
    | connectRuns draw =>
      dsimp only at hs
      split at hs
      · cases hs
      · rename_i hlaunched
        split at hs
        · cases hs
          exact ⟨hf.guarded, hf.one, hf.settled, hf.heading, hf.running⟩
        · rename_i server id hbody
          cases hs
          exact flight_connectRuns hf hlaunched hbody
    | disconnectRuns =>
      dsimp only at hs
      split at hs
      · cases hs
      · cases hs
        exact ⟨hf.guarded.congr rfl rfl rfl rfl rfl, hf.one, hf.settled, hf.heading, hf.running⟩
    | startDelivered prepared =>
      dsimp only at hs
      split at hs
      · cases hs
      · rename_i hstarts
        obtain ⟨v, hv, rfl⟩ := Option.map_eq_some_iff.1 hs
        rcases Service.start_effect hv with hq | ⟨p, hp, hl⟩
        · exact (hf.serves (landing_quiet hq) hq.proxy).delivered
        · exact hf.launches hstarts hp hl
    | closeDelivered =>
      dsimp only at hs
      split at hs
      · cases hs
      · split at hs
        · cases hs
          have hq : Service.Quiet s.service (s.service.stopRunner false none) := Service.quiet_stopRunner false none
          have hf' := hf.serves (landing_quiet hq) hq.proxy
          exact ⟨hf'.guarded, hf'.one, hf'.settled, hf'.heading, hf'.running⟩
        · cases hs
          exact ⟨hf.guarded, hf.one, hf.settled, hf.heading, hf.running⟩
    | service e =>
      dsimp only at hs
      split at hs
      · rename_i hown
        obtain ⟨v, hv, rfl⟩ := Option.map_eq_some_iff.1 hs
        refine hf.own_step (fun vpnMode prepared profile he => ?_) hv
        rw [he] at hown
        cases hown
      · cases hs

/-- **The server shown is the server used**, in every run of the home screen, the server list and a service that is not
connected or connecting at first, if one start is in flight at a time and no server of the list that is taken at once
changes the effective address while the app is connected or a start is in flight. -/
theorem shown_server_used (info : ServerInfoManager) (table : ProfileTable) (profileId : Nat) (service : Service)
    (hjobs : service.jobs = []) (hstate : service.state ≠ .connected) (es : List Event)
    (hruns : Machine.along (step info table) (fun s e t => OneStart t ∧ PicksKeep info s e)
      (initial profileId service) es) :
    Machine.always (step info table) ShownIsUsed (initial profileId service) es := by
  have hflight := Machine.always_of_along flight_step es _ (flight_initial table profileId hjobs hstate) hruns
  exact Machine.always_mono (fun _ hf => hf.shownIsUsed) es _ hflight

/-! ## Two servers on one ip -/

def threeServers : ServerInfoManager where
  cityList         := []
  localServerList  :=
    [⟨[], [], 1, "Here".toList, "A".toList, "10.0.0.1".toList⟩, ⟨[], [], 2, "Here".toList, "A".toList, "10.0.0.1".toList⟩,
      ⟨[], [], 1, "There".toList, "B".toList, "10.0.0.2".toList⟩]
  onlineServerList := []

def threeProfiles : ProfileTable where
  rows        :=
    [{ id := 1, name := none, host := "10.0.0.1".toList, remotePort := 1 },
      { id := 2, name := none, host := "10.0.0.1".toList, remotePort := 2, userOrder := 1 },
      { id := 3, name := none, host := "10.0.0.2".toList, remotePort := 1, userOrder := 2 }]
  ids_nodup   := by decide
  ids_ne_zero := by decide

/-- The first server is picked and its start command delivered. -/
def firstStarted : List Event :=
  [.bind, .home .onBackPressed, .home .chooseServerBtn, .home (.row 1), .home (.onActivityResult 0 true), .connectRuns 0,
    .startDelivered true]

/-- Job `j` runs through and its `Connected` arrives. -/
def connects (j : Nat) : List Event := [.service (.resume j .ok), .service (.resume j .ok), .service (.resume j .ok), .report]

/-- Once connected, the third server is picked in the list and confirmed in the dialog, and then connected to. -/
def switched : List Event :=
  firstStarted ++ connects 0 ++
    [.home (.animationEnd true), .home .chooseServerBtn, .home (.row 3), .home .sure, .home (.onActivityResult 0 true),
      .disconnectRuns, .closeDelivered, .report, .service (.stopResumed 0), .report, .home (.animationEnd true),
      .home (.connectBtn 0 true), .connectRuns 0, .startDelivered true] ++ connects 1 ++ [.home (.animationEnd true)]

/-- The pick in the dialog is one the theorem allows, and at its end the third server is shown and used. -/
theorem shown_server_used_switched :
    Machine.always (step threeServers threeProfiles) ShownIsUsed (initial 0 .created) switched ∧
    (Machine.run (step threeServers threeProfiles) (initial 0 .created) switched).map
      (fun s => (s.home.canClick, s.home.server.isConnected, s.service.proxy.map (fun p => p.profile.address))) =
      some (true, true, some ("10.0.0.2".toList, 1)) := by
  refine ⟨shown_server_used threeServers threeProfiles 0 .created rfl (fun hc => by cases hc) switched ?_, ?_⟩
  · decide +kernel
  · decide +kernel

/-- Once connected, the second server is picked, at another port of the same ip. -/
def otherPort : List Event :=
  firstStarted ++ connects 0 ++
    [.home (.animationEnd true), .home .chooseServerBtn, .home (.row 2), .home (.onActivityResult 0 true)]

/-- While the first server connects, the third is picked and its connect refused for want of a network. -/
def refusedPick : List Event :=
  firstStarted ++ [.home (.animationEnd true), .home .chooseServerBtn, .home (.row 3), .home (.onActivityResult 1 true)] ++
    connects 0

/-- The app's process starts over a service that runs the first server. -/
def startedOver : Option Tunnel :=
  (Machine.run Service.step .created [.onStartCommand true true (threeProfiles.getProfile 1), .resume 0 .ok, .resume 0 .ok,
    .resume 0 .ok]).bind (fun v => Machine.run (step threeServers threeProfiles) (initial 1 v) [.bind])

/-- Idle and connected, with the address the service was started with and the one that is selected. -/
def idleOn (s : Tunnel) : Option (Option (Text × Int) × (Text × Int)) :=
  if s.home.canClick ∧ s.home.result = none ∧ s.home.server.isConnected then
    some (s.service.proxy.map (fun p => p.profile.address), s.home.server.address)
  else none

/-- **The server shown is not the server used**, with one start in flight at a time: idle and connected, the home screen
has selected another port than the service was started with after the first run, another ip after the second, and no
server at all in a process that starts over a running service. -/
theorem shown_server_not_used :
    (Machine.along (step threeServers threeProfiles) (fun _ _ t => OneStart t) (initial 0 .created) otherPort ∧
      (Machine.run (step threeServers threeProfiles) (initial 0 .created) otherPort).bind idleOn =
        some (some ("10.0.0.1".toList, 1), ("10.0.0.1".toList, 2))) ∧
    (Machine.along (step threeServers threeProfiles) (fun _ _ t => OneStart t) (initial 0 .created) refusedPick ∧
      (Machine.run (step threeServers threeProfiles) (initial 0 .created) refusedPick).bind idleOn =
        some (some ("10.0.0.1".toList, 1), ("10.0.0.2".toList, 1))) ∧
    startedOver.bind idleOn = some (some ("10.0.0.1".toList, 1), ([], 0)) := by
  refine ⟨⟨?_, ?_⟩, ⟨?_, ?_⟩, ?_⟩
  all_goals decide +kernel

end Tunnel
end Riddles
