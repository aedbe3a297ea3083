import BypassVpn.Packet.Jvm

/-!
# Which applications the TUN captures

The builder steps of `runVpn` that choose between an allowed and a disallowed list of applications.

* `VpnBuilder`, `addAllowedApplication`, `addDisallowedApplication`, `captures`: what Android does.
* `addEach`: the loop that skips a package that cannot be added; `routeApps`: the steps of `runVpn`.
* `Excludes`: the app stays out of its own tunnel and only selected packages are in it;
  **`routeApps_excludes_iff`**: exactly when that is so.
-/

namespace BypassVpn

/-- The application lists of a `VpnService.Builder`. -/
structure VpnBuilder where
  allowed : List String := []
  disallowed : List String := []
  deriving DecidableEq, Repr

section Builder

variable (installed : List String)

/-- Record a package; throws when it is not installed. -/
def addApplication (record : VpnBuilder → String → VpnBuilder) (b : VpnBuilder) (pkg : String) :
    Except Exn VpnBuilder :=
  if pkg ∈ installed then .ok (record b pkg) else .error (.other "NameNotFoundException")

/-- `addAllowedApplication`. -/
def addAllowedApplication : VpnBuilder → String → Except Exn VpnBuilder :=
  addApplication installed fun b pkg => { b with allowed := b.allowed ++ [pkg] }

/-- `addDisallowedApplication`. -/
def addDisallowedApplication : VpnBuilder → String → Except Exn VpnBuilder :=
  addApplication installed fun b pkg => { b with disallowed := b.disallowed ++ [pkg] }

/-- Traffic of `pkg` goes through the TUN: with an allowed list that of its packages, with a
disallowed list that of all others, with neither that of every package. -/
def captures (b : VpnBuilder) (pkg : String) : Prop :=
  pkg ∈ installed ∧ (if b.allowed ≠ [] then pkg ∈ b.allowed else pkg ∉ b.disallowed)

instance (b : VpnBuilder) (pkg : String) : Decidable (captures installed b pkg) :=
  inferInstanceAs (Decidable (_ ∧ _))

/-- `for (pkg in apps) { try { add(pkg) } catch (e: Exception) { } }`. -/
def addEach (add : VpnBuilder → String → Except Exn VpnBuilder) : List String → VpnBuilder → VpnBuilder
  | [], b => b
  | pkg :: apps, b =>
    match add b pkg with
    | .ok b' => addEach add apps b'
    | .error _ => addEach add apps b

/-- The applications whose traffic stays outside in disallowed mode. -/
def bypass : List String := ["com.google.android.gms", "com.google.android.gsf", "com.android.vending"]

/-- The application lists `runVpn` builds; `null` is `none`. -/
def routeApps (packageName : String) (allowedApps : Option (List String)) : VpnBuilder :=
  match allowedApps with
  | some (app :: apps) =>
    let filteredApps := (app :: apps).filter (· ≠ packageName)
    addEach (addAllowedApplication installed) filteredApps {}
  | _ =>
    addEach (addDisallowedApplication installed) [packageName]
      (addEach (addDisallowedApplication installed) bypass {})

/-! ### The lists -/

theorem addEach_eq (record : VpnBuilder → String → VpnBuilder) (apps : List String) (b : VpnBuilder) :
    addEach (addApplication installed record) apps b = (apps.filter (· ∈ installed)).foldl record b := by
  induction apps generalizing b with
  | nil => rfl
  | cons pkg apps ih =>
    rw [addEach, addApplication]
    by_cases h : pkg ∈ installed
    · rw [if_pos h, List.filter_cons_of_pos (by simpa using h), List.foldl_cons]
      exact ih _
    · rw [if_neg h, List.filter_cons_of_neg (by simpa using h)]
      exact ih b

theorem foldl_allowed (l : List String) (b : VpnBuilder) :
    l.foldl (fun b pkg => { b with allowed := b.allowed ++ [pkg] }) b =
      { b with allowed := b.allowed ++ l } := by
  induction l generalizing b with
  | nil => simp
  | cons pkg l ih => rw [List.foldl_cons, ih, List.append_assoc, List.singleton_append]

theorem foldl_disallowed (l : List String) (b : VpnBuilder) :
    l.foldl (fun b pkg => { b with disallowed := b.disallowed ++ [pkg] }) b =
      { b with disallowed := b.disallowed ++ l } := by
  induction l generalizing b with
  | nil => simp
  | cons pkg l ih => rw [List.foldl_cons, ih, List.append_assoc, List.singleton_append]

variable (packageName : String)

/-- In allowed mode the builder holds the selected packages that are installed, without the app. -/
theorem routeApps_cons (app : String) (apps : List String) :
    routeApps installed packageName (some (app :: apps)) =
      { allowed := ((app :: apps).filter (· ≠ packageName)).filter (· ∈ installed) } := by
  rw [routeApps, addAllowedApplication, addEach_eq, foldl_allowed]
  rfl

/-- In disallowed mode it holds no allowed list, and the app is on the other one. -/
theorem routeApps_nil (hown : packageName ∈ installed) {allowedApps : Option (List String)}
    (hempty : allowedApps.getD [] = []) :
    (routeApps installed packageName allowedApps).allowed = [] ∧
      packageName ∈ (routeApps installed packageName allowedApps).disallowed := by
  have hroute : routeApps installed packageName allowedApps = addEach (addDisallowedApplication installed)
      [packageName] (addEach (addDisallowedApplication installed) bypass {}) := by
    rcases allowedApps with _ | _ | ⟨app, apps⟩
    · rfl
    · rfl
    · exact absurd hempty (List.cons_ne_nil app apps)
  rw [hroute, addDisallowedApplication, addEach_eq, addEach_eq, foldl_disallowed, foldl_disallowed]
  exact ⟨rfl, by simp [hown]⟩

/-- The app's own traffic is not captured, and what is captured was selected. -/
def Excludes (allowedApps : Option (List String)) : Prop :=
  ¬ captures installed (routeApps installed packageName allowedApps) packageName ∧
    (allowedApps.getD [] ≠ [] → ∀ pkg, captures installed (routeApps installed packageName allowedApps) pkg →
      pkg ∈ allowedApps.getD [] ∧ pkg ≠ packageName)

/-- Nothing was selected, or some selected package other than the app is installed. -/
def SelectionUsable (allowedApps : Option (List String)) : Prop :=
  allowedApps.getD [] = [] ∨ ∃ pkg ∈ allowedApps.getD [], pkg ≠ packageName ∧ pkg ∈ installed

theorem excludes_of_selected {app : String} {apps : List String}
    (h : ∃ pkg ∈ app :: apps, pkg ≠ packageName ∧ pkg ∈ installed) :
    Excludes installed packageName (some (app :: apps)) := by
  obtain ⟨pkg, hmem, hne, hinst⟩ := h
  have hin : pkg ∈ ((app :: apps).filter (· ≠ packageName)).filter (· ∈ installed) := by
    simp only [List.mem_filter, decide_eq_true_eq]
    exact ⟨⟨hmem, hne⟩, hinst⟩
  have hallowed : ((app :: apps).filter (· ≠ packageName)).filter (· ∈ installed) ≠ [] :=
    List.ne_nil_of_mem hin
  have hcap : ∀ p, captures installed (routeApps installed packageName (some (app :: apps))) p →
      p ∈ app :: apps ∧ p ≠ packageName := by
    intro p hp
    rw [routeApps_cons, captures, if_pos hallowed, List.mem_filter, List.mem_filter] at hp
    exact ⟨hp.2.1.1, by simpa using hp.2.1.2⟩
  exact ⟨fun hown => (hcap _ hown).2 rfl, fun _ p hp => hcap p hp⟩

/-- **The app stays outside exactly when the selection is usable.** Where no selected package can be
added, the builder has neither list and captures everything, the app's own traffic included. -/
theorem routeApps_excludes_iff (hown : packageName ∈ installed) (allowedApps : Option (List String)) :
    Excludes installed packageName allowedApps ↔ SelectionUsable installed packageName allowedApps := by
  by_cases hempty : allowedApps.getD [] = []
  · obtain ⟨hall, hdis⟩ := routeApps_nil installed packageName hown hempty
    refine iff_of_true ⟨?_, fun hne => absurd hempty hne⟩ (.inl hempty)
    rw [captures, if_neg (not_not.mpr hall)]
    exact fun h => h.2 hdis
  · obtain ⟨app, apps, rfl⟩ : ∃ app apps, allowedApps = some (app :: apps) := by
      rcases allowedApps with _ | _ | ⟨app, apps⟩
      · exact absurd rfl hempty
      · exact absurd rfl hempty
      · exact ⟨app, apps, rfl⟩
    constructor
    · intro hex
      by_contra hun
      refine hex.1 ⟨hown, ?_⟩
      have hnone : ((app :: apps).filter (· ≠ packageName)).filter (· ∈ installed) = [] := by
        refine List.eq_nil_iff_forall_not_mem.mpr fun p hp => hun (.inr ⟨p, ?_⟩)
        simp only [List.mem_filter, decide_eq_true_eq] at hp
        exact ⟨hp.1.1, hp.1.2, hp.2⟩
      rw [routeApps_cons, hnone, if_neg (by simp)]
      exact List.not_mem_nil
    · rintro (h | h)
      · exact absurd h hempty
      · exact excludes_of_selected installed packageName h

end Builder

/-- The app's package. -/
def ownPackage : String := "com.makskbz.myvpnproject"

theorem routeApps_excludes_iff_selected :
    Excludes [ownPackage, "org.telegram.messenger"] ownPackage (some [ownPackage, "org.telegram.messenger"]) ↔
      SelectionUsable [ownPackage, "org.telegram.messenger"] ownPackage
        (some [ownPackage, "org.telegram.messenger"]) :=
  routeApps_excludes_iff [ownPackage, "org.telegram.messenger"] ownPackage (by decide)
    (some [ownPackage, "org.telegram.messenger"])

/-- Selecting only the app itself puts its own traffic, and that of every other package, into the
TUN. -/
theorem own_traffic_captured :
    ¬ ∀ (installed : List String) (packageName : String), packageName ∈ installed →
      ∀ allowedApps, Excludes installed packageName allowedApps := by
  intro h
  exact (h [ownPackage, "org.telegram.messenger"] ownPackage (by decide) (some [ownPackage])).1 (by decide)

end BypassVpn
