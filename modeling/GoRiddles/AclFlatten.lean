import GoRiddles.Acl
/-!
# AclFlatten — lists that import lists

`flatten` of `Acl.kt`, and what `BaseService.kt` saves for the native proxy.  A list reads the lists behind its URLs, which
read theirs, to a given depth; the hostnames of all of them go into one list, and the subnets of those that are in the mode
of the list that imports them.  Lists may import each other: the depth ends that.
-/
namespace Riddles
namespace Acl

variable {U : Type}

/-- What `flatten` takes from a list that it has read; subnets for the other mode are discarded. -/
def merge (a child : Acl U) : Acl U :=
  { a with
    bypassHostnames := SortedList.addAll stringSorter a.bypassHostnames child.bypassHostnames
    proxyHostnames  := SortedList.addAll stringSorter a.proxyHostnames child.proxyHostnames
    subnets         := SortedList.addAll subnetSorter a.subnets (if a.bypass ≠ child.bypass then [] else child.subnets) }

def clearUrls (a : Acl U) : Acl U := { a with urls := [] }

def importAll (child : U → Except AclFailure (Acl U)) : Acl U → List U → Except AclFailure (Acl U)
  | a, []      => .ok a
  | a, u :: us =>
    match child u with
    | .error e => .error e
    | .ok c    => importAll child (a.merge c) us

/-- `Acl().fromReader(connect(url), bypass)`. -/
def load (P : AclPlatform U) (connect : U → Except AclFailure Text) (bypass : Bool) (u : U) :
    Except AclFailure (Acl U) :=
  (connect u).bind (fun text => fromReader P text bypass)

def flatten (P : AclPlatform U) (connect : U → Except AclFailure Text) :
    Nat → Acl U → Except AclFailure (Acl U)
  | 0, a         => .ok a.clearUrls
  | depth + 1, a =>
    (importAll (fun u => (load P connect a.bypass u).bind (flatten P connect depth)) a a.urls).map clearUrls

/-- The getter of `customRules`; there may be no file. -/
def customRules (P : AclPlatform U) (file : Option Text) : Except AclFailure (Acl U) :=
  match file with
  | none => .ok ⟨[], [], [], [], true⟩
  | some text =>
    (fromReader P text true).map (fun a => if a.bypass then a else { a with bypass := true, subnets := [] })

/-- What `startRunner` saves under `CUSTOM_RULES`. -/
def savedRules (P : AclPlatform U) (connect : U → Except AclFailure Text) (file : Option Text) :
    Except AclFailure Text :=
  (customRules P file).bind (fun a => (flatten P connect 10 a).map (toString P))

/-! ## Imports -/

/-- `a`, with so much depth left, imports `b`, which has so much left; each list is related to the one it imports. -/
inductive Imports (P : AclPlatform U) (connect : U → Except AclFailure Text) (R : Acl U → Acl U → Prop) :
    Nat → Acl U → Nat → Acl U → Prop where
  | refl (depth : Nat) (a : Acl U) : Imports P connect R depth a depth a
  | step {depth left : Nat} {a child b : Acl U} {u : U} (url : u ∈ a.urls) (loaded : load P connect a.bypass u = .ok child)
      (related : R a child) (rest : Imports P connect R depth child left b) : Imports P connect R (depth + 1) a left b

def AnyMode (_ _ : Acl U) : Prop := True

def OneMode (a child : Acl U) : Prop := child.bypass = a.bypass

/-! ## The loop over the URLs -/

section
variable {a r : Acl U} {child : U → Except AclFailure (Acl U)}

theorem hosts_merge (a c : Acl U) (t : Target) (h : Text) : h ∈ (a.merge c).hosts t ↔ h ∈ a.hosts t ∨ h ∈ c.hosts t := by
  cases t <;> exact SortedList.mem_addAll_ofOrder

theorem subnets_merge (a c : Acl U) (s : Subnet) :
    s ∈ (a.merge c).subnets ↔ s ∈ a.subnets ∨ c.bypass = a.bypass ∧ s ∈ c.subnets := by
  unfold merge subnetSorter
  rw [SortedList.mem_addAll_ofOrder]
  by_cases hmode : c.bypass = a.bypass
  · simp [hmode]
  · simp [hmode, Ne.symm hmode]

theorem Legible.merge {P : AclPlatform U} {c : Acl U} (ha : Legible P a) (hc : Legible P c) : Legible P (a.merge c) := by
  constructor
  case hosts =>
    intro t h hmem
    exact ((hosts_merge a c t h).1 hmem).elim (ha.hosts t h) (hc.hosts t h)
  case hosts_apart =>
    rintro (_ | _)
    · exact SortedList.apart_addAll (ha.hosts_apart .bypassList)
    · exact SortedList.apart_addAll (ha.hosts_apart .proxyList)
  case subnets =>
    intro s hmem
    exact ((subnets_merge a c s).1 hmem).elim (ha.subnets s) (fun h => hc.subnets s h.2)
  case subnets_apart => exact SortedList.apart_addAll ha.subnets_apart
  case urls => exact ha.urls
  case urls_apart => exact ha.urls_apart

theorem hosts_clearUrls (a : Acl U) : a.clearUrls.hosts = a.hosts := by
  funext t
  cases t <;> rfl

theorem Legible.clearUrls {P : AclPlatform U} (ha : Legible P a) : Legible P a.clearUrls :=
  { ha with
    hosts       := by rw [hosts_clearUrls]; exact ha.hosts
    hosts_apart := by rw [hosts_clearUrls]; exact ha.hosts_apart
    urls        := fun _ hu => absurd hu List.not_mem_nil
    urls_apart  := SortedList.apart_nil }

structure Imported (child : U → Except AclFailure (Acl U)) (a : Acl U) (us : List U) (r : Acl U) : Prop where
  bypass  : r.bypass = a.bypass
  hosts   : ∀ t h, h ∈ r.hosts t ↔ h ∈ a.hosts t ∨ ∃ u ∈ us, ∃ c, child u = .ok c ∧ h ∈ c.hosts t
  subnets : ∀ s, s ∈ r.subnets ↔ s ∈ a.subnets ∨ ∃ u ∈ us, ∃ c, child u = .ok c ∧ c.bypass = a.bypass ∧ s ∈ c.subnets

theorem imported_of_importAll : ∀ {us : List U} {a : Acl U}, importAll child a us = .ok r → Imported child a us r
  | [], a, h => by
    cases h
    exact ⟨rfl, by simp, by simp⟩
  | u :: us, a, h => by
    rw [importAll] at h
    split at h
    · cases h
    · rename_i c hc
      have hrest := imported_of_importAll h
      have hbypass : (a.merge c).bypass = a.bypass := rfl
      constructor
      · exact hrest.bypass.trans hbypass
      · intro t x
        rw [hrest.hosts, hosts_merge]
        simp [hc, or_assoc]
      · intro s
        rw [hrest.subnets, subnets_merge, hbypass]
        simp [hc, or_assoc]

theorem legible_importAll {P : AclPlatform U} (hchild : ∀ u c, child u = .ok c → Legible P c) :
    ∀ {us : List U} {a : Acl U}, importAll child a us = .ok r → Legible P a → Legible P r
  | [], a, h, ha => by
    cases h
    exact ha
  | u :: us, a, h, ha => by
    rw [importAll] at h
    split at h
    · cases h
    · rename_i c hc
      exact legible_importAll hchild h (ha.merge (hchild u c hc))

theorem importAll_ok_iff : ∀ {us : List U} {a : Acl U}, (∃ r, importAll child a us = .ok r) ↔ ∀ u ∈ us, ∃ c, child u = .ok c
  | [], a => by simp [importAll]
  | u :: us, a => by
    rw [importAll, List.forall_mem_cons]
    cases hc : child u with
    | error e => simp
    | ok c => simp [importAll_ok_iff]

end

/-! ## The whole tree -/

section
variable {P : AclPlatform U} {connect : U → Except AclFailure Text} {a r : Acl U}

/-- What an item of the flattened list comes from: the list itself, or one of those it imports. -/
theorem exists_imports_succ {R : Acl U → Acl U → Prop} {Q : Acl U → Prop} {depth : Nat} :
    (∃ left b, Imports P connect R (depth + 1) a left b ∧ Q b) ↔
      Q a ∨ ∃ u ∈ a.urls, ∃ c, load P connect a.bypass u = .ok c ∧ R a c ∧
        ∃ left b, Imports P connect R depth c left b ∧ Q b := by
  constructor
  · rintro ⟨left, b, himports, hb⟩
    cases himports with
    | refl => exact .inl hb
    | step url loaded related rest => exact .inr ⟨_, url, _, loaded, related, left, b, rest, hb⟩
  · rintro (ha | ⟨u, hu, c, hc, hR, left, b, himports, hb⟩)
    · exact ⟨depth + 1, a, .refl _ _, ha⟩
    · exact ⟨left, b, .step hu hc hR himports, hb⟩

theorem exists_imports_zero {R : Acl U → Acl U → Prop} {Q : Acl U → Prop} :
    (∃ left b, Imports P connect R 0 a left b ∧ Q b) ↔ Q a := by
  constructor
  · rintro ⟨left, b, himports, hb⟩
    cases himports
    exact hb
  · exact fun ha => ⟨0, a, .refl _ _, ha⟩

theorem bind_eq_ok {ε α β : Type} {x : Except ε α} {f : α → Except ε β} {y : β} :
    x.bind f = .ok y ↔ ∃ z, x = .ok z ∧ f z = .ok y := by
  cases x <;> simp [Except.bind]

theorem map_eq_ok {ε α β : Type} {x : Except ε α} {f : α → β} {y : β} : x.map f = .ok y ↔ ∃ z, x = .ok z ∧ f z = y := by
  cases x <;> simp [Except.map]

/-- A list with what it imports in it. -/
structure Flattened (P : AclPlatform U) (connect : U → Except AclFailure Text) (depth : Nat) (a r : Acl U) : Prop where
  bypass  : r.bypass = a.bypass
  urls    : r.urls = []
  hosts   : ∀ t h, h ∈ r.hosts t ↔ ∃ left b, Imports P connect AnyMode depth a left b ∧ h ∈ b.hosts t
  subnets : ∀ s, s ∈ r.subnets ↔ ∃ left b, Imports P connect OneMode depth a left b ∧ s ∈ b.subnets

theorem flattened_of_flatten : ∀ {depth : Nat} {a r : Acl U}, flatten P connect depth a = .ok r →
    Flattened P connect depth a r
  | 0, a, r, h => by
    cases h
    refine ⟨rfl, rfl, fun t h => ?_, fun s => ?_⟩
    · rw [exists_imports_zero, hosts_clearUrls]
    · rw [exists_imports_zero]
      rfl
  | depth + 1, a, r, h => by
    rw [flatten, map_eq_ok] at h
    obtain ⟨r, himport, rfl⟩ := h
    have himported := imported_of_importAll himport
    have hchild : ∀ u ∈ a.urls, ∃ c r', load P connect a.bypass u = .ok c ∧ flatten P connect depth c = .ok r' ∧
        Flattened P connect depth c r' := by
      intro u hu
      obtain ⟨r', hr'⟩ := importAll_ok_iff.1 ⟨r, himport⟩ u hu
      obtain ⟨c, hload, hflat⟩ := bind_eq_ok.1 hr'
      exact ⟨c, r', hload, hflat, flattened_of_flatten hflat⟩
    refine ⟨himported.bypass, rfl, fun t h => ?_, fun s => ?_⟩
    · rw [hosts_clearUrls, himported.hosts, exists_imports_succ]
      refine or_congr_right (exists_congr fun u => and_congr_right fun hu => ?_)
      obtain ⟨c, r', hload, hflat, hspec⟩ := hchild u hu
      simp [hload, Except.bind, hflat, AnyMode, hspec.hosts]
    · rw [show r.clearUrls.subnets = r.subnets from rfl, himported.subnets, exists_imports_succ]
      refine or_congr_right (exists_congr fun u => and_congr_right fun hu => ?_)
      obtain ⟨c, r', hload, hflat, hspec⟩ := hchild u hu
      simp [hload, Except.bind, hflat, OneMode, hspec.subnets, hspec.bypass]

theorem legible_flatten : ∀ {depth : Nat} {a r : Acl U}, flatten P connect depth a = .ok r → Legible P a → Legible P r
  | 0, a, r, h, ha => by
    cases h
    exact ha.clearUrls
  | depth + 1, a, r, h, ha => by
    rw [flatten, map_eq_ok] at h
    obtain ⟨r, himport, rfl⟩ := h
    refine (legible_importAll (fun u c hc => ?_) himport ha).clearUrls
    obtain ⟨l, hload, hflat⟩ := bind_eq_ok.1 hc
    obtain ⟨text, -, hread⟩ := bind_eq_ok.1 hload
    exact legible_flatten hflat (legible_fromReader hread)

theorem legible_customRules {file : Option Text} (h : customRules P file = .ok a) : Legible P a := by
  unfold customRules at h
  split at h
  · cases h
    refine ⟨fun t => ?_, fun t => ?_, by simp, by simp, by simp, by simp⟩
    · cases t <;> simp [hosts]
    · cases t <;> simp [hosts]
  · rw [map_eq_ok] at h
    obtain ⟨b, hb, rfl⟩ := h
    have hlegible := legible_fromReader hb
    split
    · exact hlegible
    · refine ⟨fun t => ?_, fun t => ?_, by simp, by simp, hlegible.urls, hlegible.urls_apart⟩
      · cases t
        · exact hlegible.hosts .bypassList
        · exact hlegible.hosts .proxyList
      · cases t
        · exact hlegible.hosts_apart .bypassList
        · exact hlegible.hosts_apart .proxyList

theorem bypass_customRules {file : Option Text} (h : customRules P file = .ok a) : a.bypass = true := by
  unfold customRules at h
  split at h
  · cases h
    rfl
  · rw [map_eq_ok] at h
    obtain ⟨b, -, rfl⟩ := h
    split
    · assumption
    · rfl

theorem Flattened.same {depth : Nat} {b : Acl U} (h : Flattened P connect depth a r) (hsame : Same r b) :
    Flattened P connect depth a b where
  bypass      := hsame.bypass.trans h.bypass
  urls        := by
    have hurls := hsame.urls
    rw [h.urls] at hurls
    exact hurls.eq_nil
  hosts t x   := (hsame.hosts t).mem_iff.trans (h.hosts t x)
  subnets s   := hsame.subnets.mem_iff.trans (h.subnets s)

end

/-- **When a list is flattened at all**: each URL that is met before the depth is used up can be read. -/
theorem flatten_ok_iff (P : AclPlatform U) (connect : U → Except AclFailure Text) (depth : Nat) (a : Acl U) :
    (∃ r, flatten P connect depth a = .ok r) ↔ ∀ left b, Imports P connect AnyMode depth a (left + 1) b →
      ∀ u ∈ b.urls, ∃ c, load P connect b.bypass u = .ok c := by
  induction depth generalizing a with
  | zero =>
    constructor
    · rintro - left b himports
      cases himports
    · exact fun _ => ⟨_, rfl⟩
  | succ depth ih =>
    have hstep : (∃ r, flatten P connect (depth + 1) a = .ok r) ↔
        ∀ u ∈ a.urls, ∃ c, load P connect a.bypass u = .ok c ∧ ∃ r, flatten P connect depth c = .ok r := by
      rw [flatten]
      constructor
      · rintro ⟨r, hr⟩ u hu
        obtain ⟨r', himport, -⟩ := map_eq_ok.1 hr
        obtain ⟨x, hx⟩ := importAll_ok_iff.1 ⟨r', himport⟩ u hu
        obtain ⟨c, hc, hflat⟩ := bind_eq_ok.1 hx
        exact ⟨c, hc, x, hflat⟩
      · intro h
        obtain ⟨r, hr⟩ := importAll_ok_iff.2 (fun u hu => by
          obtain ⟨c, hc, x, hx⟩ := h u hu
          exact ⟨x, bind_eq_ok.2 ⟨c, hc, hx⟩⟩)
        exact ⟨_, map_eq_ok.2 ⟨r, hr, rfl⟩⟩
    rw [hstep]
    constructor
    · intro h left b himports
      cases himports with
      | refl =>
        intro u hu
        obtain ⟨c, hc, -⟩ := h u hu
        exact ⟨c, hc⟩
      | step url loaded related rest =>
        obtain ⟨c, hc, hflat⟩ := h _ url
        rw [loaded, Except.ok.injEq] at hc
        exact (ih c).1 hflat left b (hc ▸ rest)
    · intro h u hu
      obtain ⟨c, hc⟩ := h depth a (.refl _ _) u hu
      exact ⟨c, hc, (ih c).2 (fun left b himports => h left b (.step hu hc trivial himports))⟩

/-- **The rules the native proxy is given.**  What is saved is read as a list that bypasses by default and imports nothing;
it has the hostnames of every list that the user's rules import within ten steps, and the subnets of those that are reached
through lists in bypass mode alone. -/
theorem savedRules_flattened {P : AclPlatform U} (hP : P.Lawful) (connect : U → Except AclFailure Text)
    (file : Option Text) {text : Text} (h : savedRules P connect file = .ok text) (defaultBypass : Bool) :
    ∃ rules saved, customRules P file = .ok rules ∧ fromReader P text defaultBypass = .ok saved ∧ saved.bypass = true ∧
      Flattened P connect 10 rules saved := by
  obtain ⟨rules, hrules, h⟩ := bind_eq_ok.1 h
  obtain ⟨r, hr, rfl⟩ := map_eq_ok.1 h
  have hlegible := legible_flatten hr (legible_customRules hrules)
  have hflat := (flattened_of_flatten hr).same (same_rebuilt hlegible)
  exact ⟨rules, rebuilt P r, hrules, fromReader_written hP hlegible defaultBypass,
    hflat.bypass.trans (bypass_customRules hrules), hflat⟩

/-- A list in the other mode, which imports itself. -/
def selfImport (_ : Text) : Except AclFailure Text :=
  .ok "[proxy_all]\n[bypass_list]\n10.0.0.0\ny.org\n#IMPORT_URL <https://y.org/acl>".toList

/-- Its hostname is saved, its subnet is not. -/
theorem savedRules_flattened_selfImport :
    let file := some "x.org\n#IMPORT_URL <https://y.org/acl>".toList
    let text := "[bypass_all]\n[bypass_list]\ny.org\n[proxy_list]\nx.org\n".toList
    savedRules oneAddress selfImport file = .ok text ∧
      ∃ rules saved, customRules oneAddress file = .ok rules ∧ fromReader oneAddress text false = .ok saved ∧
        saved.bypass = true ∧ Flattened oneAddress selfImport 10 rules saved := by
  intro file text
  have htext : savedRules oneAddress selfImport file = .ok text := by decide +kernel
  exact ⟨htext, savedRules_flattened lawful_oneAddress selfImport file htext false⟩

end Acl
end Riddles
