import BypassVpn.Service.Steps

/-!
# Whose statement it is

Every thread keeps to its part of the program: the main thread to `onStartCommand`, a session to
`runVpn` with its `finally` block, the helpers to their tests and restarts, `ProxyEngineStop` to the
stop.

* `Kind`, `Pc.kind`; `Pc.inSession`: in the `try` block of `runVpn`; `Pc.fits`.
* **`code_keeps`**: no statement leads from one part to another; `code_isPrivate`: what only sessions
  do.
-/

namespace BypassVpn.Service

variable {env : Env} {s s' : State} {i j : ℕ} {o : Outcome} {a : Act} {pc pc' q : Pc}

/-- Whose restart of the engine it is. -/
def Site.restarts : Site → Bool
  | .asn | .monitor _ => true
  | _ => false

/-- Whose program point it is. -/
inductive Kind where
  | idle
  | main
  | session
  /-- `AsnAutoDetect` or `PresetMonitor`. -/
  | helper
  | async
  deriving DecidableEq, Repr

/-- What kind of thread runs a restart or a start there. -/
def Site.kind : Site → Kind
  | .session => .session
  | .asn | .monitor _ => .helper
  | .async => .async

/-- What kind of thread stands there. -/
def Pc.kind : Pc → Kind
  | .ended => .idle
  | .onStart _ => .main
  | .stopVpn _ | .runVpn _ => .session
  | .asn _ | .monitor _ _ => .helper
  | .restart site _ | .start site _ _ | .stopLibs site | .stopTun2socks site _ | .stopCiadpi site _
  | .stopProtect site _ | .undoCiadpi site _ | .undoProtect site _ _ => site.kind

/-- The session has not reached its `finally` block. -/
def Pc.inSession : Pc → Bool
  | .runVpn _ => true
  | .start site _ _ | .undoCiadpi site _ | .undoProtect site _ _ => site = .session
  | _ => false

/-- The caller fits the call: restarts are made by `AsnAutoDetect` and `PresetMonitor`, `runVpn` only
starts the engine, `ProxyEngineStop` only stops it. -/
def Pc.fits : Pc → Bool
  | .restart site _ => site.restarts
  | .start site _ _ | .undoCiadpi site _ | .undoProtect site _ _ => site ≠ .async
  | .stopLibs site | .stopTun2socks site _ | .stopCiadpi site _ | .stopProtect site _ => site ≠ .session
  | _ => true

theorem kind_of_inSession (hfit : pc.fits = true) (h : pc.inSession = true) : pc.kind = .session := by
  cases pc with
  | runVpn => rfl
  | start site | undoCiadpi site | undoProtect site =>
    simp only [Pc.inSession, decide_eq_true_eq] at h
    rw [h]
    rfl
  | _ => cases h

theorem main_of_kind (h : pc.kind = .main) : ∃ c, pc = .onStart c := by
  cases pc with
  | onStart c => exact ⟨c, rfl⟩
  | restart site | start site | stopLibs site | stopTun2socks site | stopCiadpi site | stopProtect site
  | undoCiadpi site | undoProtect site => cases site <;> cases h
  | _ => cases h

/-- A thread keeps to its part of the program. -/
def Keeps (pc pc' : Pc) : Prop := pc' = .ended ∨ pc'.kind = pc.kind ∧ pc'.fits = true

theorem Site.keeps_started (b : Bool) {site : Site} (hk : pc.kind = site.kind) :
    Keeps pc (site.started b) := by
  cases site <;> first | exact .inl rfl | exact .inr ⟨hk.symm, rfl⟩

theorem Site.keeps_stopped {site : Site} (hk : pc.kind = site.kind) : Keeps pc site.stopped := by
  cases site <;> first | exact .inl rfl | exact .inr ⟨hk.symm, rfl⟩

theorem code_keeps (hfit : pc.fits = true) (h : code env s i pc o = some (a, pc')) : Keeps pc pc' := by
  revert h
  cases pc with
  | ended => intro h; cases h
  | onStart c =>
    change OnStart.code s i c o = _ → _
    fun_cases OnStart.code s i c o <;> intro h <;> cases h <;>
      first | exact .inl rfl | exact .inr ⟨rfl, rfl⟩
  | stopVpn c =>
    change StopVpn.code s i c o = _ → _
    fun_cases StopVpn.code s i c o <;> intro h <;> cases h <;>
      first | exact .inl rfl | exact .inr ⟨rfl, rfl⟩
  | runVpn c =>
    change RunVpn.code env s i c o = _ → _
    fun_cases RunVpn.code env s i c o <;> intro h <;> cases h <;> exact .inr ⟨rfl, rfl⟩
  | asn c =>
    change AsnAutoDetect.code s i c o = _ → _
    fun_cases AsnAutoDetect.code s i c o <;> intro h <;> cases h <;>
      first | exact .inl rfl | exact .inr ⟨rfl, rfl⟩
  | monitor w c =>
    change PresetMonitor.code s i w c o = _ → _
    fun_cases PresetMonitor.code s i w c o <;> intro h <;> cases h <;>
      first | exact .inl rfl | exact .inr ⟨rfl, rfl⟩
  | restart site c =>
    change Restart.code s i site c o = _ → _
    cases site <;> cases hfit
    all_goals
      fun_cases Restart.code s i _ c o <;> intro h <;> cases h <;>
        first | exact .inl rfl | exact .inr ⟨rfl, rfl⟩
  | start site b c =>
    change Start.code env s site b c o = _ → _
    fun_cases Start.code env s site b c o <;> intro h <;> cases h <;>
      first | exact .inr ⟨rfl, hfit⟩ | exact site.keeps_started _ rfl
  | stopLibs site =>
    change stopLibs env site o = _ → _
    fun_cases stopLibs env site o <;> intro h <;> cases h <;>
      first | exact .inr ⟨rfl, hfit⟩ | exact site.keeps_stopped rfl
  | stopTun2socks site c =>
    change Stop.code s _ _ _ c o = _ → _
    fun_cases Stop.code s .tun2socks (.stopTun2socks site) (.stopCiadpi site .test) c o <;> intro h <;>
      cases h <;> exact .inr ⟨rfl, hfit⟩
  | stopCiadpi site c =>
    change Stop.code s _ _ _ c o = _ → _
    fun_cases Stop.code s .ciadpi (.stopCiadpi site) (.stopProtect site .clear) c o <;> intro h <;>
      cases h <;> exact .inr ⟨rfl, hfit⟩
  | stopProtect site c =>
    change StopServer.code _ _ c o = _ → _
    fun_cases StopServer.code (.stopProtect site) site.stopped c o <;> intro h <;> cases h <;>
      first | exact .inr ⟨rfl, hfit⟩ | exact site.keeps_stopped rfl
  | undoCiadpi site c =>
    change Stop.code s _ _ _ c o = _ → _
    fun_cases Stop.code s .ciadpi (.undoCiadpi site) (site.started false) c o <;> intro h <;> cases h <;>
      first | exact .inr ⟨rfl, hfit⟩ | exact site.keeps_started _ rfl
  | undoProtect site b c =>
    change StopServer.code _ _ c o = _ → _
    fun_cases StopServer.code (.undoProtect site b) (.start site b (.ciadpiTest false)) c o <;> intro h <;>
      cases h <;> exact .inr ⟨rfl, hfit⟩

theorem fits_after (h : ∀ j, (s.threads j).pc.fits = true) (hf : Fresh s)
    (hc : code env s i (s.threads i).pc o = some (a, pc)) (j : ℕ) :
    ((after s i a pc).threads j).pc.fits = true := by
  rcases after_cases hf (pc_ne_ended hc) a pc j with ⟨-, he⟩ | ⟨q, ha, -, he⟩ | ⟨-, he⟩
  · rw [he]
    rcases code_keeps (h i) hc with hk | hk
    · rw [hk]
      rfl
    · exact hk.2
  · rw [he]
    rcases code_spawns hc ha with ⟨-, rfl, -⟩ | ⟨-, rfl, -⟩ | ⟨b, -, rfl, -⟩ | ⟨b, -, rfl, -⟩ <;> rfl
  · rw [he]
    exact h j

theorem fits_of_reachable {guard : State → Label → Prop} (h : Transition.Reachable (step env) init guard s) :
    ∀ j, (s.threads j).pc.fits = true := by
  induction h with
  | init => exact fun _ => rfl
  | step hr _ hs ih =>
    intro j
    rcases step_cases hs with ⟨c, -, -, rfl⟩ | ⟨i, o, a, pc, -, hc, rfl⟩ | ⟨p, t, -, -, -, rfl⟩
    · rcases delivered_threads _ c _ j with ⟨-, he⟩ | ⟨-, he⟩
      · rw [he]
        cases c <;> rfl
      · rw [he]
        exact ih j
    · exact fits_after ih (fresh_of_reachable hr) hc j
    · exact ih j

theorem kind_cases (h : pc ≠ .ended) :
    pc.kind = .main ∨ pc.kind = .session ∨ pc.kind = .helper ∨ pc.kind = .async := by
  cases hk : pc.kind with
  | idle =>
    cases pc with
    | ended => exact absurd rfl h
    | restart site | start site | stopLibs site | stopTun2socks site | stopCiadpi site | stopProtect site
    | undoCiadpi site | undoProtect site => cases site <;> cases hk
    | _ => cases hk
  | main => exact .inl rfl
  | session => exact .inr (.inl rfl)
  | helper => exact .inr (.inr (.inl rfl))
  | async => exact .inr (.inr (.inr rfl))

theorem main_of_reachable {guard : State → Label → Prop} (h : Transition.Reachable (step env) init guard s) :
    ∀ j, (s.threads j).pc.kind = .main → j = 0 := by
  induction h with
  | init => exact fun _ hk => nomatch hk
  | step hr _ hs ih =>
    intro j hk
    rcases step_cases hs with ⟨c, -, -, rfl⟩ | ⟨i, o, a, pc, -, hc, rfl⟩ | ⟨p, t, -, -, -, rfl⟩
    · rcases delivered_threads _ c _ j with ⟨hj, -⟩ | ⟨-, he⟩
      · exact hj
      · exact ih j (he ▸ hk)
    · rcases after_cases (fresh_of_reachable hr) (pc_ne_ended hc) a pc j with ⟨rfl, he⟩ | ⟨q, ha, -, he⟩ | ⟨-, he⟩
      · rw [he] at hk
        rcases code_keeps (fits_of_reachable hr j) hc with rfl | hkeep
        · cases hk
        · exact ih j (hkeep.1.symm.trans hk)
      · rw [he] at hk
        rcases code_spawns hc ha with ⟨-, rfl, -⟩ | ⟨-, rfl, -⟩ | ⟨b, -, rfl, -⟩ | ⟨b, -, rfl, -⟩ <;> cases hk
      · exact ih j (he ▸ hk)
    · exact ih j hk

/-- An effect that starts no thread, interrupts none and leaves the interfaces and the monitor alone. -/
def Act.isPrivate : Act → Bool
  | .setPreset _ | .setConfig _ | .setRunning _ | .setFails _ | .setVpnThread _ | .setStopThread _
  | .clearInterrupt => true
  | a => a.inEngine

theorem code_isPrivate (hk : pc.kind ≠ .session) (hns : pc ≠ .onStart .spawn)
    (h : code env s i pc o = some (a, pc')) : a.isPrivate = true := by
  by_cases hpc : pc.inEngine = true
  · have ha := (code_inEngine hpc h).1
    cases a <;> first | rfl | cases ha
  revert h
  cases pc with
  | ended => intro h; cases h
  | stopVpn | runVpn => exact absurd rfl hk
  | onStart c =>
    change OnStart.code s i c o = _ → _
    fun_cases OnStart.code s i c o <;> intro h <;> cases h <;> first | rfl | exact absurd rfl hns
  | asn c =>
    change AsnAutoDetect.code s i c o = _ → _
    fun_cases AsnAutoDetect.code s i c o <;> intro h <;> cases h <;> rfl
  | monitor w c =>
    change PresetMonitor.code s i w c o = _ → _
    fun_cases PresetMonitor.code s i w c o <;> intro h <;> cases h <;> rfl
  | restart site c =>
    change Restart.code s i site c o = _ → _
    fun_cases Restart.code s i site c o <;> intro h <;> cases h <;> rfl
  | _ => exact absurd rfl hpc

theorem isPrivate_frame (ha : a.isPrivate = true) :
    (∀ f, (a.onFields f).vpnInterface = f.vpnInterface ∧ (a.onFields f).monitorThread = f.monitorThread) ∧
    a.onTuns s i = s.tuns ∧ a.spawns = none ∧ a ≠ .establish ∧
    ∀ j, a.onInterrupted s i j = true → s.interrupted j = true := by
  cases a with
  | clearInterrupt =>
    refine ⟨fun _ => ⟨rfl, rfl⟩, rfl, rfl, by simp, fun j hj => ?_⟩
    simp only [Act.onInterrupted] at hj
    by_cases hji : j = i
    · rw [hji, Function.update_self] at hj
      cases hj
    · rwa [Function.update_of_ne hji] at hj
  | _ => first | exact ⟨fun _ => ⟨rfl, rfl⟩, rfl, rfl, by simp, fun _ => id⟩ | cases ha

end BypassVpn.Service
