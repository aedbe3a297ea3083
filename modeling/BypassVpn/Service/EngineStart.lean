import BypassVpn.Service.Model

/-!
# `ProxyEngine.start`, one call at a time

`start` brings up three components in order, each with its own treatment of failure: a failure of
`ProtectSocketServer` is tolerated, one of ciadpi returned, one of tun2socks answered by `ciadpiStop`.
Each call may also find its component running and leave it alone.

* `Components`: what runs, and with which arguments; `Outcomes`: how the calls of one `start` turn out.
* `startProtect`, `ciadpiStart`, `ciadpiStop`, `tun2socksStart`; `start`, `stop`.
* `Event`, `after`: earlier calls, and engine threads that end by themselves.
* **`start_false_iff`**: exactly when a `start` that returns `false` leaves everything as it was.
-/

namespace BypassVpn.Service.Engine

/-- What `tun2socksStart` is given, beyond constants. -/
structure Tun2socksArgs where
  tunFd : ℕ
  socksPort : Int
  ipv6Enabled : Bool
  deriving DecidableEq, Repr

/-- The running components, `none` for one that does not run. -/
structure Components where
  /-- `ProtectSocketServer`, with the path it is bound to. -/
  protect : Option String := none
  ciadpi : Option CiadpiArgs := none
  tun2socks : Option Tun2socksArgs := none
  deriving DecidableEq

/-- How the call of a component that does not run yet turns out. -/
inductive CallOutcome where
  | success
  /-- A negative code, `false` for `ProtectSocketServer.start`. -/
  | negative
  | throws
  deriving DecidableEq, Repr

/-- How the starts of the three parts turn out. -/
structure Outcomes where
  protect : CallOutcome
  ciadpi : CallOutcome
  tun2socks : CallOutcome
  deriving DecidableEq, Repr

/-- How `ProxyEngine.start` ends. -/
inductive Result where
  | returns (b : Bool)
  | throws
  deriving DecidableEq, Repr

/-- `ProtectSocketServer.start`, with the exceptions that `ProxyEngine.start` catches: whether it
returned `true`. A failed attempt runs `stop()`, and there was nothing to stop. -/
def startProtect (path : String) (o : CallOutcome) (s : Components) : Bool × Components :=
  if s.protect.isSome then (true, s)
  else match o with
    | .success => (true, { s with protect := some path })
    | .negative => (false, s)
    | .throws => (false, s)

/-- `ciadpiStart` as the application sees it. -/
def ciadpiStart (args : CiadpiArgs) (o : CallOutcome) (s : Components) : CallOutcome × Components :=
  if s.ciadpi.isSome then (.success, s)
  else match o with
    | .success => (.success, { s with ciadpi := some args })
    | .negative => (.negative, s)
    | .throws => (.throws, s)

/-- `ciadpiStop`. -/
def ciadpiStop (s : Components) : Components := { s with ciadpi := none }

/-- `tun2socksStart` as the application sees it. -/
def tun2socksStart (args : Tun2socksArgs) (o : CallOutcome) (s : Components) : CallOutcome × Components :=
  if s.tun2socks.isSome then (.success, s)
  else match o with
    | .success => (.success, { s with tun2socks := some args })
    | .negative => (.negative, s)
    | .throws => (.throws, s)

/-- `ProxyEngine.start` from the call of `ciadpiStart` on. -/
def startEngines (args : CiadpiArgs) (a : Tun2socksArgs) (o : Outcomes) (s : Components) :
    Result × Components :=
  match ciadpiStart args o.ciadpi s with
  | (.throws, s) => (.throws, s)
  | (.negative, s) => (.returns false, s)
  | (.success, s) =>
    match tun2socksStart a o.tun2socks s with
    | (.throws, s) => (.throws, s)
    | (.negative, s) => (.returns false, ciadpiStop s)
    | (.success, s) => (.returns true, s)

/-- `ProxyEngine.start`. -/
def start (env : Env) (a : StartArgs) (o : Outcomes) (s : Components) : Result × Components :=
  if !env.nativeLibsLoaded then (.returns false, s)
  else
    let (protectServerOk, s) := startProtect env.protectPath o.protect s
    startEngines (ciadpiArgs a.config (if protectServerOk then env.protectPath else "") a.ipv6Enabled)
      ⟨a.tunFd, a.config.socksPort, a.ipv6Enabled⟩ o s

/-- `ProxyEngine.stop`. -/
def stop (env : Env) (s : Components) : Components := if !env.nativeLibsLoaded then s else {}

/-! ### Earlier calls -/

/-- What happens to the components. -/
inductive Event where
  | start (a : StartArgs) (o : Outcomes)
  | stop
  /-- An engine thread ends by itself. -/
  | ciadpiEnds
  | tun2socksEnds

/-- The components after an event. -/
def after (env : Env) (s : Components) : Event → Components
  | .start a o => (start env a o s).2
  | .stop => stop env s
  | .ciadpiEnds => { s with ciadpi := none }
  | .tun2socksEnds => { s with tun2socks := none }

/-- The components after any sequence of calls. -/
def Components.reached (env : Env) (history : List Event) : Components := history.foldl (after env) {}

/-! ### All or nothing -/

/-- The call of `ProtectSocketServer.start` leaves it as it was. -/
def ProtectKept (o : Outcomes) (s : Components) : Prop := s.protect.isSome = true ∨ o.protect ≠ .success

/-- `ciadpiStart` returns a negative code. -/
def CiadpiFails (o : Outcomes) (s : Components) : Prop := s.ciadpi = none ∧ o.ciadpi = .negative

/-- ciadpi runs, found or started, and `tun2socksStart` returns a negative code. -/
def Tun2socksFails (o : Outcomes) (s : Components) : Prop :=
  (s.ciadpi.isSome = true ∨ o.ciadpi = .success) ∧ s.tun2socks = none ∧ o.tun2socks = .negative

section Protect

variable (path : String) (o : CallOutcome) (s : Components)

theorem startProtect_ciadpi : (startProtect path o s).2.ciadpi = s.ciadpi := by
  unfold startProtect
  split_ifs
  · rfl
  · cases o <;> rfl

theorem startProtect_tun2socks : (startProtect path o s).2.tun2socks = s.tun2socks := by
  unfold startProtect
  split_ifs
  · rfl
  · cases o <;> rfl

theorem startProtect_eq_iff : (startProtect path o s).2 = s ↔ s.protect.isSome = true ∨ o ≠ .success := by
  unfold startProtect
  split_ifs with h
  · simp [h]
  · have hn : s.protect = none := by simpa using h
    cases o with
    | success =>
      have : ({ s with protect := some path } : Components) ≠ s := by
        intro he
        have := congrArg Components.protect he
        rw [hn] at this
        cases this
      simpa [h] using this
    | negative => simp
    | throws => simp

end Protect

theorem withoutCiadpi {s : Components} (h : s.ciadpi = none) : { s with ciadpi := none } = s := by
  cases s
  cases h
  rfl

section Engines

variable {args : CiadpiArgs} {targs : Tun2socksArgs} {o : Outcomes} {s : Components}

theorem startEngines_ciadpiFails (h : CiadpiFails o s) : startEngines args targs o s =
    (.returns false, s) := by
  simp [startEngines, ciadpiStart, h.1, h.2]

/-- A tun2socks that fails takes ciadpi with it, whoever started it. -/
theorem startEngines_tun2socksFails (h : Tun2socksFails o s) :
    startEngines args targs o s = (.returns false, { s with ciadpi := none }) := by
  obtain ⟨hc, ht, hn⟩ := h
  cases hs : s.ciadpi with
  | some c => simp [startEngines, ciadpiStart, tun2socksStart, ciadpiStop, hs, ht, hn]
  | none =>
    have ho : o.ciadpi = .success := by simpa [hs] using hc
    simp [startEngines, ciadpiStart, tun2socksStart, ciadpiStop, hs, ho, ht, hn]

theorem fails_of_startEngines (h : (startEngines args targs o s).1 = .returns false) :
    CiadpiFails o s ∨ Tun2socksFails o s := by
  have hrun : s.ciadpi.isSome = true ∨ o.ciadpi = .success → Tun2socksFails o s := by
    intro hc
    refine ⟨hc, ?_⟩
    cases hs : s.ciadpi <;> cases ht : s.tun2socks <;> cases ho : o.ciadpi <;> cases hn : o.tun2socks <;>
      simp_all [startEngines, ciadpiStart, tun2socksStart]
  cases hs : s.ciadpi with
  | some c => exact .inr (hrun (by simp [hs]))
  | none =>
    cases ho : o.ciadpi with
    | success => exact .inr (hrun (.inr ho))
    | negative => exact .inl ⟨hs, ho⟩
    | throws => simp [startEngines, ciadpiStart, hs, ho] at h

end Engines

/-- **All or nothing, and where not.** After any earlier calls, a `start` that returns `false` leaves
every component as it was if and only if: it returns `false` for want of the libraries; or where ciadpi
or tun2socks fails it has not started `ProtectSocketServer`, and where tun2socks fails ciadpi did not
run before. -/
theorem start_false_iff (env : Env) (history : List Event) (a : StartArgs) (o : Outcomes) :
    let s := Components.reached env history
    ((start env a o s).1 = .returns false → (start env a o s).2 = s) ↔
      (env.nativeLibsLoaded = true →
        (CiadpiFails o s → ProtectKept o s) ∧ (Tun2socksFails o s → ProtectKept o s ∧ s.ciadpi = none)) := by
  intro s
  by_cases hl : env.nativeLibsLoaded = true
  swap
  · simp [start, hl]
  have hp := startProtect_eq_iff env.protectPath o.protect s
  have hc := startProtect_ciadpi env.protectPath o.protect s
  have ht := startProtect_tun2socks env.protectPath o.protect s
  simp only [start, hl, Bool.not_true, Bool.false_eq_true, if_false, true_implies]
  generalize startProtect env.protectPath o.protect s = r at hp hc ht
  obtain ⟨protectServerOk, s1⟩ := r
  have hf : CiadpiFails o s ↔ CiadpiFails o s1 := by rw [CiadpiFails, CiadpiFails, hc]
  have hg : Tun2socksFails o s ↔ Tun2socksFails o s1 := by rw [Tun2socksFails, Tun2socksFails, hc, ht]
  constructor
  · intro h
    constructor
    · intro hfail
      rw [startEngines_ciadpiFails (hf.mp hfail)] at h
      exact hp.mp (h rfl)
    · intro hfail
      rw [startEngines_tun2socksFails (hg.mp hfail)] at h
      have he : { s1 with ciadpi := none } = s := h rfl
      have hnone : s.ciadpi = none := by rw [← he]
      exact ⟨hp.mp ((withoutCiadpi (hc.trans hnone)).symm.trans he), hnone⟩
  · intro h hfalse
    rcases fails_of_startEngines hfalse with hfail | hfail
    · rw [startEngines_ciadpiFails hfail]
      exact hp.mpr (h.1 (hf.mpr hfail))
    · obtain ⟨hkept, hnone⟩ := h.2 (hg.mpr hfail)
      rw [startEngines_tun2socksFails hfail]
      exact (withoutCiadpi (hc.trans hnone)).trans (hp.mpr hkept)

/-- ciadpi cannot be started: the call returns `false` and leaves `ProtectSocketServer` running. -/
theorem protect_left_running :
    ¬ ∀ (env : Env) (history : List Event) (a : StartArgs) (o : Outcomes),
      let s := Components.reached env history
      (start env a o s).1 = .returns false → (start env a o s).2 = s := by
  intro h
  have hs := h ⟨true, true, "protect_path"⟩ [] ⟨0, loadPreset "universal", true⟩
    ⟨.success, .negative, .success⟩ rfl
  cases congrArg Components.protect hs

end BypassVpn.Service.Engine
