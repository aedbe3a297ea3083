import BypassVpn.Service.Steps

/-!
# The interface of a service object

What the threads do to `vpnInterface`, to the interfaces and to `isRunning`: `runVpn` establishes,
stores and may give up, `stopVpn` clears, closes and drops.

* `TunStage`, `Pc.tunStage`, `TunStep`; **`code_tun`**: what every statement means for the interfaces.
-/

namespace BypassVpn.Service

variable {env : Env} {s : State} {i : ℕ} {o : Outcome} {a : Act} {pc pc' q : Pc}

/-- Where a thread stands with the interface of its service object. -/
inductive TunStage where
  | out
  | store (t : Option ℕ)
  | giveUp
  /-- In `stopVpn`, before `isRunning = false`. -/
  | clear
  /-- In `stopVpn`, before `vpnInterface?.close()`. -/
  | close
  /-- In `stopVpn`, before `vpnInterface = null`. -/
  | drop
  deriving DecidableEq, Repr

/-- Where a thread stands towards the interface. -/
def Pc.tunStage : Pc → TunStage
  | .runVpn (.store t) => .store t
  | .runVpn .giveUp => .giveUp
  | .stopVpn .clearRunning => .clear
  | .stopVpn .interruptMonitor | .stopVpn .dropMonitor | .stopVpn .close => .close
  | .stopVpn .dropTun => .drop
  | _ => .out

/-- An effect that concerns neither the interfaces nor `isRunning`. -/
def Act.leavesTun : Act → Bool
  | .setRunning _ | .setTun _ | .establish | .closeTun => false
  | _ => true

/-- What a statement of thread `i` means for the interfaces. -/
inductive TunStep (s : State) (i : ℕ) : TunStage → Act → TunStage → Prop
  | idle {a : Act} (h : a.leavesTun = true) : TunStep s i .out a .out
  | start : TunStep s i .out (.setRunning true) .out
  | establish : TunStep s i .out .establish (.store (some s.established))
  | establishFails : TunStep s i .out .skip (.store none)
  | store {t : Option ℕ} : TunStep s i (.store t) (.setTun t) .out
  | testFails : TunStep s i .out .skip .giveUp
  | giveUp : TunStep s i .giveUp (.setRunning false) .out
  | stop : TunStep s i .out .skip .clear
  | clear : TunStep s i .clear (.setRunning false) .close
  | closing {a : Act} (h : a.leavesTun = true) : TunStep s i .close a .close
  | close : TunStep s i .close .closeTun .drop
  | drop : TunStep s i .drop (.setTun none) .out

theorem Site.tunStage_started (b : Bool) (site : Site) : (site.started b).tunStage = .out := by
  cases site <;> rfl

theorem Site.tunStage_resume (site : Site) : site.resume.tunStage = .out := by
  cases site <;> rfl

theorem Site.tunStage_stopped (site : Site) : site.stopped.tunStage = .out := by
  cases site <;> rfl

theorem tunStage_of_inEngine (h : pc.inEngine = true) : pc.tunStage = .out := by
  cases pc <;> first | rfl | cases h

theorem leavesTun_of_inEngine (h : a.inEngine = true) : a.leavesTun = true := by
  cases a <;> first | rfl | cases h

/-- **What every statement means for the interfaces.** -/
theorem code_tun (h : code env s i pc o = some (a, pc')) : TunStep s i pc.tunStage a pc'.tunStage := by
  by_cases hpc : pc.inEngine = true
  · obtain ⟨ha, hpc'⟩ := code_inEngine hpc h
    rw [tunStage_of_inEngine hpc]
    rcases hpc' with hpc' | ⟨site, b, rfl | rfl⟩
    · rw [tunStage_of_inEngine hpc']
      exact .idle (leavesTun_of_inEngine ha)
    · rw [Site.tunStage_started]
      exact .idle (leavesTun_of_inEngine ha)
    · rw [Site.tunStage_stopped]
      exact .idle (leavesTun_of_inEngine ha)
  revert h
  cases pc with
  | ended => intro h; cases h
  | onStart c =>
    change OnStart.code s i c o = _ → _
    fun_cases OnStart.code s i c o <;> intro h <;> cases h <;> first | exact .idle rfl | exact .start
  | stopVpn c =>
    change StopVpn.code s i c o = _ → _
    fun_cases StopVpn.code s i c o <;> intro h <;> cases h <;>
      first | exact .idle rfl | exact .stop | exact .clear | exact .closing rfl | exact .close | exact .drop
  | runVpn c =>
    change RunVpn.code env s i c o = _ → _
    fun_cases RunVpn.code env s i c o <;> intro h <;> cases h <;>
      first | exact .idle rfl | exact .establish | exact .establishFails | exact .store | exact .testFails | exact .giveUp
  | asn c =>
    change AsnAutoDetect.code s i c o = _ → _
    fun_cases AsnAutoDetect.code s i c o <;> intro h <;> cases h <;> exact .idle rfl
  | monitor w c =>
    change PresetMonitor.code s i w c o = _ → _
    fun_cases PresetMonitor.code s i w c o <;> intro h <;> cases h <;> exact .idle rfl
  | restart site c =>
    change Restart.code s i site c o = _ → _
    fun_cases Restart.code s i site c o <;> intro h <;> cases h <;>
      first | exact .idle rfl | (rw [Site.tunStage_resume]; exact .idle rfl)
  | _ => exact absurd rfl hpc

theorem spawns_tunStage (h : code env s i pc o = some (a, pc')) (ha : a.spawns = some q) :
    q.tunStage = .out := by
  rcases code_spawns h ha with ⟨-, rfl, -⟩ | ⟨-, rfl, -⟩ | ⟨b, -, rfl, -⟩ | ⟨b, -, rfl, -⟩ <;> rfl

theorem leavesTun_fields (ha : a.leavesTun = true) (f : Fields) :
    (a.onFields f).vpnInterface = f.vpnInterface ∧ (a.onFields f).isRunning = f.isRunning := by
  cases a <;> first | exact ⟨rfl, rfl⟩ | cases ha

theorem leavesTun_tuns (ha : a.leavesTun = true) : a.onTuns s i = s.tuns := by
  cases a <;> first | rfl | cases ha

theorem pc_of_store {t : Option ℕ} (h : pc.tunStage = .store t) : pc = .runVpn (.store t) := by
  revert h
  cases pc with
  | runVpn c => cases c <;> simp [Pc.tunStage]
  | stopVpn c => cases c <;> simp [Pc.tunStage]
  | _ => simp [Pc.tunStage]

theorem pc_of_giveUp (h : pc.tunStage = .giveUp) : pc = .runVpn .giveUp := by
  revert h
  cases pc with
  | runVpn c => cases c <;> simp [Pc.tunStage]
  | stopVpn c => cases c <;> simp [Pc.tunStage]
  | _ => simp [Pc.tunStage]

theorem pc_of_clear (h : pc.tunStage = .clear) : pc = .stopVpn .clearRunning := by
  revert h
  cases pc with
  | runVpn c => cases c <;> simp [Pc.tunStage]
  | stopVpn c => cases c <;> simp [Pc.tunStage]
  | _ => simp [Pc.tunStage]

theorem isOpen_closeTun {t : ℕ} : (Act.closeTun.onTuns s i t).isOpen = true ↔
    (s.tuns t).isOpen = true ∧ (s.view i).vpnInterface ≠ some t := by
  rw [Act.onTuns]
  cases hv : (s.view i).vpnInterface with
  | none => simp
  | some u =>
    by_cases htu : t = u
    · subst htu
      simp
    · simp [Function.update_of_ne htu, Ne.symm htu]

theorem isOpen_onTuns {t : ℕ} (h : (a.onTuns s i t).isOpen = true) :
    (s.tuns t).isOpen = true ∨ t = s.established := by
  cases a with
  | establish =>
    by_cases ht : t = s.established
    · exact .inr ht
    · rw [Act.onTuns, Function.update_of_ne ht] at h
      exact .inl h
  | closeTun => exact .inl (isOpen_closeTun.mp h).1
  | _ => exact .inl h

theorem onFields_vpnInterface (a : Act) (f : Fields) :
    (a.onFields f).vpnInterface = f.vpnInterface ∨ a = .setTun (a.onFields f).vpnInterface := by
  cases a <;> first | exact .inl rfl | exact .inr rfl

theorem le_established (s : State) (i : ℕ) (a : Act) (pc : Pc) :
    s.established ≤ (after s i a pc).established := by
  simp only [after, State.setPc, act]
  split <;> omega

end BypassVpn.Service
