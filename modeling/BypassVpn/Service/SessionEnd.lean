import BypassVpn.Service.Threads
import BypassVpn.Service.Tunnel

/-!
# The end of a session

However `runVpn` ends, its `finally` block calls `stopVpn`, and `stopVpn` returns at once when
`isRunning` is clear. One way to end clears it first.

* `Surroundings`, `record`: the executor, the foreground state and `stopSelf`; `SessionLabel`,
  `sessionStep`: what may follow a start, with exceptions anywhere in `runVpn`.
* `CleanedUp`: the promise; `SessionsOver`: no session before; `Establishes`: `establish()` does not return `null`.
* `Pc.rank`, `Turn`, `code_turn`: how far a session is from its end; `EndInv`.
* **`session_cleans_up`**; `session_not_cleaned_up`: when `establish()` returns `null`; `session_disturbed`: when an
  earlier `runVpn` is still alive.
-/

namespace BypassVpn.Service

open Transition

variable {env : Env} {s s' s₀ : State} {i j : ℕ} {o : Outcome} {a : Act} {pc pc' q : Pc}

/-! ### The session with its surroundings -/

/-- The packet executor of a session. -/
inductive Executor where
  | absent
  | working
  | shutDown
  deriving DecidableEq, Repr

/-- What a session touches beside the state of the service, since its start was delivered. -/
structure Surroundings where
  /-- The `runVpn` thread that the start has started. -/
  thread : Option ℕ := none
  executor : Executor := .absent
  foreground : Bool := false
  /-- The `ProxyEngineStop` thread was started. -/
  asked : Bool := false
  stopSelf : Bool := false
  deriving DecidableEq, Repr

/-- What a statement adds: `startForeground` and the new executor follow `isRunning = true` in
`startVpn`; in `stopVpn` the executor is shut down right behind `vpnThread = null`, and `stopForeground`
and `stopSelf` come last. -/
def Surroundings.record (e : Surroundings) (s : State) : Label → Surroundings
  | .run i _ =>
    match (s.threads i).pc with
    | .onStart .setRunning => { e with foreground := true, executor := .working }
    | .onStart .spawn => { e with thread := some s.spawned }
    | .stopVpn .dropVpn => { e with executor := .shutDown }
    | .stopVpn .spawn => { e with asked := true }
    | .stopVpn (.keep _) => { e with foreground := false, stopSelf := true }
    | _ => e
  | _ => e

/-- A step of the service, or what interrupts one. -/
inductive SessionLabel where
  | base (l : Label)
  /-- A `Throwable` leaves the `try` block of `runVpn`. -/
  | throws (i : ℕ)
  deriving DecidableEq, Repr

/-- A command is delivered. -/
def Label.isCommand : Label → Bool
  | .deliver _ => true
  | _ => false

/-- `vpnInterface = builder.establish()` stores what it has established. -/
def Pc.canThrow (pc : Pc) : Bool :=
  match pc with
  | .runVpn (.store _) => false
  | _ => pc.inSession

/-- No further command is delivered. -/
def sessionStep (env : Env) (x : State × Surroundings) : SessionLabel → Option (State × Surroundings)
  | .base l => if l.isCommand then none else (step env x.1 l).map fun s => (s, x.2.record x.1 l)
  | .throws i => if (x.1.threads i).pc.canThrow then some (x.1.setPc i (.stopVpn .test), x.2) else none

/-- No `runVpn` thread of an earlier session is left. -/
def SessionsOver (s : State) : Prop := ∀ j, (s.threads j).pc.kind ≠ .session

/-- Nothing of the session is left; `n` is the number of interfaces established before it. -/
structure CleanedUp (n : ℕ) (x : State × Surroundings) : Prop where
  isRunning : (x.1.fields x.1.object).isRunning = false
  vpnInterface : (x.1.fields x.1.object).vpnInterface = none
  closed : ∀ t, n ≤ t → t < x.1.established → (x.1.tuns t).isOpen = false
  executor : x.2.executor = .shutDown
  asked : x.2.asked = true
  foreground : x.2.foreground = false
  stopSelf : x.2.stopSelf = true

/-- `establish()` does not return `null`. -/
def Establishes (x : State × Surroundings) : SessionLabel → Prop
  | .base (.run i o) => (x.1.threads i).pc = .runVpn .establish → o ≠ .fail
  | _ => True

/-! ### How far a session is from its end -/

/-- How far a session has come where one of its threads stands. -/
def Pc.rank : Pc → ℕ
  | .runVpn .probe | .runVpn .establish => 0
  | .runVpn (.store _) => 1
  | .stopVpn .interruptMonitor | .stopVpn .dropMonitor | .stopVpn .close => 3
  | .stopVpn .dropTun => 4
  | .stopVpn .interruptVpn | .stopVpn .dropVpn => 5
  | .stopVpn .spawn => 6
  | .stopVpn (.keep _) => 7
  | .ended => 8
  | _ => 2

/-- The statement changes nothing that `Pc.rank` stands for. -/
def Pc.calm (pc : Pc) : Bool :=
  match pc with
  | .stopVpn .dropVpn => false
  | _ => pc.rank = 0 || pc.rank = 2 || pc.rank = 3 || pc.rank = 5

/-- The statement that tests `vpnInterface`. -/
def Pc.tests : Pc → Bool
  | .runVpn .test => true
  | _ => false

/-- A session that has not given up. -/
def Pc.good : Pc → Bool
  | .runVpn .giveUp | .runVpn (.store none) => false
  | _ => true

/-- What a session does next, unless `establish()` returns `null`. -/
inductive Turn (s : State) : Pc → Act → Pc → Prop
  | inside {pc pc' : Pc} {a : Act} (ha : a.leavesTun = true) (hr : pc'.rank = pc.rank) (hc : pc.calm = true)
    (ht : pc'.tests = false) (hg : pc'.good = true) : Turn s pc a pc'
  | establish : Turn s (.runVpn .establish) .establish (.runVpn (.store (some s.established)))
  | store {t : ℕ} : Turn s (.runVpn (.store (some t))) (.setTun (some t)) (.runVpn .test)
  | quit : Turn s (.runVpn .establish) .skip (.stopVpn .test)
  | clear : Turn s (.stopVpn .clearRunning) (.setRunning false) (.stopVpn .interruptMonitor)
  | close : Turn s (.stopVpn .close) .closeTun (.stopVpn .dropTun)
  | drop : Turn s (.stopVpn .dropTun) (.setTun none) (.stopVpn .interruptVpn)
  | dropVpn : Turn s (.stopVpn .dropVpn) (.setVpnThread none) (.stopVpn .spawn)
  | spawn {n : ℕ} : Turn s (.stopVpn .spawn) (.spawn (.stopLibs .async)) (.stopVpn (.keep n))
  | keep {t : ℕ} {a : Act} (ha : a.leavesTun = true) : Turn s (.stopVpn (.keep t)) a .ended

theorem site_session {site : Site} (hk : site.kind = .session) : site = .session := by
  cases site <;> first | rfl | cases hk

theorem turn_store {t : Option ℕ} (h : (Pc.runVpn (.store t)).good = true) :
    Turn s (.runVpn (.store t)) (.setTun t) (.runVpn .test) := by
  cases t with
  | none => cases h
  | some t => exact .store

/-- **The turns of a session.** -/
theorem code_turn (hfit : pc.fits = true) (hk : pc.kind = .session) (hgood : pc.good = true)
    (htest : pc = .runVpn .test → (s.view i).vpnInterface.isSome = true)
    (hrun : pc = .stopVpn .test → (s.view i).isRunning = true) (hg : pc = .runVpn .establish → o ≠ .fail)
    (h : code env s i pc o = some (a, pc')) : Turn s pc a pc' := by
  revert h
  cases pc with
  | ended | onStart | asn | monitor => cases hk
  | restart site c =>
    cases site_session hk
    cases hfit
  | stopLibs site | stopTun2socks site | stopCiadpi site | stopProtect site =>
    cases site_session hk
    cases hfit
  | stopVpn c =>
    change StopVpn.code s i c o = _ → _
    fun_cases StopVpn.code s i c o <;> intro h <;> cases h <;>
      first
        | exact .inside rfl rfl rfl rfl rfl
        | exact .clear | exact .close | exact .drop | exact .dropVpn | exact .spawn | exact .keep rfl
        | exact absurd (hrun rfl) (by assumption)
  | runVpn c =>
    change RunVpn.code env s i c o = _ → _
    fun_cases RunVpn.code env s i c o <;> intro h <;> cases h <;>
      first
        | exact .inside rfl rfl rfl rfl rfl
        | exact .establish | exact .quit | exact absurd rfl (hg rfl)
        | exact absurd (htest rfl) (by assumption) | exact turn_store hgood | cases hgood
  | start site b c =>
    cases site_session hk
    change Start.code env s .session b c o = _ → _
    fun_cases Start.code env s .session b c o <;> intro h <;> cases h <;>
      exact .inside rfl rfl rfl rfl rfl
  | undoCiadpi site c =>
    cases site_session hk
    change Stop.code s _ _ _ c o = _ → _
    fun_cases Stop.code s .ciadpi (.undoCiadpi .session)
      (Site.session.started false) c o <;> intro h <;> cases h <;>
      exact .inside rfl rfl rfl rfl rfl
  | undoProtect site b c =>
    cases site_session hk
    change StopServer.code _ _ c o = _ → _
    fun_cases StopServer.code (.undoProtect .session b)
      (.start .session b (.ciadpiTest false)) c o <;> intro h <;>
      cases h <;> exact .inside rfl rfl rfl rfl rfl

/-! ### The invariant -/

/-- What holds of the session at a program point; `n` interfaces were established before it. -/
structure Standing (n : ℕ) (s : State) (e : Surroundings) (pc : Pc) : Prop where
  good : pc.good = true
  isRunning : (s.fields s.object).isRunning = decide (pc.rank ≤ 2)
  /-- Every open interface of the session is the one about to be stored, or in `vpnInterface`. -/
  tuns : ∀ t, n ≤ t → t < s.established → (s.tuns t).isOpen = true →
    pc = .runVpn (.store (some t)) ∨
      (pc.rank = 2 ∨ pc.rank = 3) ∧ (s.fields s.object).vpnInterface = some t
  test : pc = .runVpn .test → (s.fields s.object).vpnInterface.isSome = true
  vpnInterface : 5 ≤ pc.rank → (s.fields s.object).vpnInterface = none
  executor : 6 ≤ pc.rank → e.executor = .shutDown
  asked : 7 ≤ pc.rank → e.asked = true
  left : 8 ≤ pc.rank → e.foreground = false ∧ e.stopSelf = true

/-- `s₀` is the state in which the start is delivered; the session is the first thread started since. -/
structure EndInv (s₀ s : State) (e : Surroundings) : Prop where
  pos : 0 < s₀.spawned
  fresh : Fresh s
  le : s₀.spawned ≤ s.spawned
  fits : ∀ j, (s.threads j).pc.fits = true
  objects : ∀ j, (s.threads j).pc.kind = .main ∨ (s.threads j).pc.kind = .session → (s.threads j).object = s.object
  who : ∀ j, (s.threads j).pc ≠ .ended →
    (j = 0 ∧ (s.threads j).pc.kind = .main) ∨
    (j = s₀.spawned ∧ s₀.spawned < s.spawned ∧ (s.threads j).pc.kind = .session) ∨
    (j ≠ 0 ∧ j ≠ s₀.spawned ∧ ((s.threads j).pc.kind = .helper ∨ (s.threads j).pc.kind = .async))
  before : s.spawned = s₀.spawned → s.established = s₀.established ∧
    ((s.threads 0).pc = .onStart .spawn → (s.fields s.object).isRunning = true)
  main : s₀.spawned < s.spawned → ∀ c, (s.threads 0).pc = .onStart c → ∃ t, c = .keep t
  session : s₀.spawned < s.spawned → Standing s₀.established s e (s.threads s₀.spawned).pc
  thread : ∀ i, e.thread = some i → i = s₀.spawned ∧ s₀.spawned < s.spawned

variable {e : Surroundings}

/-- A statement of another thread: nothing that concerns the session changes. -/
theorem Standing.frame {n : ℕ} {s' : State} {e' : Surroundings} (h : Standing n s e pc)
    (hrun : (s'.fields s'.object).isRunning = (s.fields s.object).isRunning)
    (htun : (s'.fields s'.object).vpnInterface = (s.fields s.object).vpnInterface) (htuns : s'.tuns = s.tuns)
    (hest : s'.established = s.established) (he : e' = e) : Standing n s' e' pc := by
  subst he
  obtain ⟨a, b, c, d, f, g, k, l⟩ := h
  constructor <;> (try rw [hrun]) <;> (try rw [htun]) <;> (try rw [htuns, hest]) <;> assumption

theorem record_calm (hpc : (s.threads i).pc = pc) (hk : pc.kind = .session) (hc : pc.calm = true) :
    e.record s (.run i o) = e := by
  simp only [Surroundings.record, hpc]
  cases pc with
  | onStart => cases hk
  | stopVpn c => cases c <;> first | rfl | cases hc
  | _ => rfl

theorem fields_after (ho : (s.threads i).object = s.object) :
    (after s i a pc).fields (after s i a pc).object = a.onFields (s.fields s.object) := by
  have : (after s i a pc).fields (s.threads i).object = a.onFields (s.view i) := after_fields_self
  rw [State.view, ho] at this
  exact this

/-- A statement that leaves the interfaces alone does so for every service object. -/
theorem leavesTun_after (ha : a.leavesTun = true) (k : ℕ) :
    ((after s i a pc).fields k).vpnInterface = (s.fields k).vpnInterface ∧
      ((after s i a pc).fields k).isRunning = (s.fields k).isRunning := by
  by_cases hk : k = (s.threads i).object
  · subst hk
    rw [after_fields_self]
    exact leavesTun_fields ha _
  · rw [after_fields_of_ne hk]
    exact ⟨rfl, rfl⟩

theorem established_after (ha : a ≠ .establish) : (after s i a pc).established = s.established := by
  simp only [after, State.setPc, act, if_neg ha]

theorem ne_establish (ha : a.leavesTun = true) : a ≠ .establish := by
  rintro rfl
  cases ha

/-- A program point of the same rank, with the interfaces and `isRunning` left alone. -/
theorem Standing.leaves {n : ℕ} {e' : Surroundings} (h : Standing n s e pc)
    (ho : (s.threads i).object = s.object)
    (ha : a.leavesTun = true) (hg : pc'.good = true) (ht : pc'.tests = false)
    (hrun : decide (pc'.rank ≤ 2) = decide (pc.rank ≤ 2))
    (htuns : ∀ t, n ≤ t → t < s.established → (s.tuns t).isOpen = true →
      (pc'.rank = 2 ∨ pc'.rank = 3) ∧ (s.fields s.object).vpnInterface = some t)
    (htun : 5 ≤ pc'.rank → 5 ≤ pc.rank) (hex : 6 ≤ pc'.rank → e'.executor = .shutDown)
    (hask : 7 ≤ pc'.rank → e'.asked = true)
    (hleft : 8 ≤ pc'.rank → e'.foreground = false ∧ e'.stopSelf = true) :
    Standing n (after s i a pc') e' pc' where
  good := hg
  isRunning := by
    rw [fields_after ho, (leavesTun_fields ha _).2, h.isRunning, hrun]
  tuns t hn ht hopen := by
    rw [established_after (ne_establish ha)] at ht
    rw [after_tuns, leavesTun_tuns ha] at hopen
    rw [fields_after ho, (leavesTun_fields ha _).1]
    exact .inr (htuns t hn ht hopen)
  test he := by
    rw [he] at ht
    cases ht
  vpnInterface hr := by
    rw [fields_after ho, (leavesTun_fields ha _).1]
    exact h.vpnInterface (htun hr)
  executor := hex
  asked := hask
  left := hleft

/-- Before an interface is established and once it is closed, none is open. -/
theorem Standing.none_open {n t : ℕ} (h : Standing n s e pc) (hr : pc.rank = 0 ∨ 4 ≤ pc.rank) (hn : n ≤ t)
    (hlt : t < s.established) (hopen : (s.tuns t).isOpen = true) : False := by
  rcases h.tuns t hn hlt hopen with he | ⟨he, -⟩
  · rw [he] at hr
    simp [Pc.rank] at hr
  · omega

/-- **A turn of the session.** -/
theorem Standing.turn {n : ℕ} (h : Standing n s e pc) (ho : (s.threads i).object = s.object)
    (hpc : (s.threads i).pc = pc) (hk : pc.kind = .session) (ht : Turn s pc a pc') :
    Standing n (after s i a pc') (e.record s (.run i o)) pc' := by
  have hf : (after s i a pc').fields (after s i a pc').object = a.onFields (s.fields s.object) :=
    fields_after ho
  cases ht with
  | inside ha hr hc ht hg =>
    rw [record_calm hpc hk hc]
    refine h.leaves ho ha hg ht (by rw [hr]) (fun t hn hlt hopen => ?_) (by rw [hr]; exact id)
      (by rw [hr]; exact h.executor) (by rw [hr]; exact h.asked) (by rw [hr]; exact h.left)
    rcases h.tuns t hn hlt hopen with he | he
    · rw [he] at hc
      cases hc
    · rw [hr]
      exact he
  | establish =>
    refine ⟨rfl, by rw [hf]; exact h.isRunning, fun t hn hlt hopen => .inl ?_, fun he =>
      (by cases he), ?_, ?_, ?_, ?_⟩
    · by_cases hts : t = s.established
      · rw [hts]
      · rw [after_tuns, Act.onTuns, Function.update_of_ne hts] at hopen
        have hlt' : t < s.established + 1 := hlt
        exact (h.none_open (.inl rfl) hn (by omega) hopen).elim
    all_goals exact fun hr => absurd hr (by simp [Pc.rank])
  | @store t =>
    refine ⟨rfl, by rw [hf]; exact h.isRunning, fun u hn hlt hopen =>
      .inr ⟨.inl rfl, ?_⟩, fun _ => by rw [hf]; rfl,
      ?_, ?_, ?_, ?_⟩
    · rw [hf]
      rcases h.tuns u hn hlt hopen with he | he
      · cases he
        rfl
      · rcases he.1 with he | he <;> cases he
    all_goals exact fun hr => absurd hr (by decide)
  | quit =>
    rw [record_calm hpc hk rfl]
    refine h.leaves ho rfl rfl rfl rfl (fun t hn hlt hopen => ?_) ?_ ?_ ?_ ?_
    · exact (h.none_open (.inl rfl) hn hlt hopen).elim
    all_goals exact fun hr => absurd hr (by decide)
  | clear =>
    refine ⟨rfl, by rw [hf]; rfl, fun t hn hlt hopen => .inr ⟨.inr rfl, ?_⟩, fun he =>
      (by cases he), ?_, ?_, ?_, ?_⟩
    · rw [hf]
      rcases h.tuns t hn hlt hopen with he | he
      · cases he
      · exact he.2
    all_goals exact fun hr => absurd hr (by decide)
  | close =>
    refine ⟨rfl, by rw [hf]; exact h.isRunning, fun t hn hlt hopen => ?_, fun he =>
      (by cases he), ?_, ?_, ?_, ?_⟩
    · -- what is open afterwards was not in `vpnInterface`, and was not open before
      obtain ⟨hopen, hne⟩ := isOpen_closeTun.mp hopen
      rw [State.view, ho] at hne
      rcases h.tuns t hn hlt hopen with he | he
      · cases he
      · exact absurd he.2 hne
    all_goals exact fun hr => absurd hr (by decide)
  | drop =>
    refine ⟨rfl, by rw [hf]; exact h.isRunning, fun t hn hlt hopen => ?_, fun he =>
      (by cases he), ?_, ?_, ?_, ?_⟩
    · exact (h.none_open (.inr (Nat.le_refl 4)) hn hlt hopen).elim
    · exact fun _ => by rw [hf]; rfl
    all_goals exact fun hr => absurd hr (by decide)
  | dropVpn =>
    refine h.leaves ho rfl rfl rfl rfl (fun t hn hlt hopen => ?_) (fun _ => (by decide)) (fun _ => ?_) ?_ ?_
    · exact (h.none_open (.inr (by decide)) hn hlt hopen).elim
    · simp only [Surroundings.record, hpc]
    all_goals exact fun hr => absurd hr (by decide)
  | spawn =>
    refine h.leaves ho rfl rfl rfl rfl (fun t hn hlt hopen => ?_) (fun _ => (by decide))
      (fun _ => ?_) (fun _ => ?_) ?_
    · exact (h.none_open (.inr (by decide)) hn hlt hopen).elim
    · simp only [Surroundings.record, hpc]
      exact h.executor (by decide)
    · simp only [Surroundings.record, hpc]
    · exact fun hr => absurd hr (by simp [Pc.rank])
  | keep ha =>
    refine h.leaves ho ha rfl rfl rfl (fun t hn hlt hopen => ?_) (fun _ => (by simp [Pc.rank]))
      (fun _ => ?_) (fun _ => ?_)
      (fun _ => ?_)
    · exact (h.none_open (.inr (by simp [Pc.rank])) hn hlt hopen).elim
    · simp only [Surroundings.record, hpc]
      exact h.executor (by simp [Pc.rank])
    · simp only [Surroundings.record, hpc]
      exact h.asked (by simp [Pc.rank])
    · simp only [Surroundings.record, hpc, and_self]

/-- The helpers and `ProxyEngineStop` neither touch the interfaces nor start threads. -/
theorem code_helper (hk : pc.kind = .helper ∨ pc.kind = .async) (h : code env s i pc o = some (a, pc')) :
    a.leavesTun = true ∧ a.spawns = none := by
  by_cases hpc : pc.inEngine = true
  · have ha := (code_inEngine hpc h).1
    exact ⟨leavesTun_of_inEngine ha, (Act.inEngine_frame (s := s) (i := i) ha).2.2⟩
  revert h
  cases pc with
  | ended | onStart | stopVpn | runVpn => rcases hk with hk | hk <;> cases hk
  | asn c =>
    change AsnAutoDetect.code s i c o = _ → _
    fun_cases AsnAutoDetect.code s i c o <;> intro h <;> cases h <;> exact ⟨rfl, rfl⟩
  | monitor w c =>
    change PresetMonitor.code s i w c o = _ → _
    fun_cases PresetMonitor.code s i w c o <;> intro h <;> cases h <;> exact ⟨rfl, rfl⟩
  | restart site c =>
    change Restart.code s i site c o = _ → _
    fun_cases Restart.code s i site c o <;> intro h <;> cases h <;> exact ⟨rfl, rfl⟩
  | _ => exact absurd rfl hpc

theorem record_other (hk : pc.kind ≠ .session) (hm : ∀ c, pc = .onStart c → ∃ t, c = .keep t)
    (hpc : (s.threads i).pc = pc) :
    e.record s (.run i o) = e := by
  simp only [Surroundings.record, hpc]
  cases pc with
  | onStart c =>
    obtain ⟨t, rfl⟩ := hm c rfl
    rfl
  | stopVpn => exact absurd rfl hk
  | _ => rfl

theorem spawned_after (ha : a.spawns = none) : (after s i a pc).spawned = s.spawned := by
  simp only [after, State.setPc, act, ha]
  rfl

/-! ### The threads -/

theorem EndInv.objects_after (h : EndInv s₀ s e) (hc : code env s i (s.threads i).pc o = some (a, pc)) (j : ℕ)
    (hj : ((after s i a pc).threads j).pc.kind = .main ∨ ((after s i a pc).threads j).pc.kind = .session) :
    ((after s i a pc).threads j).object = (after s i a pc).object := by
  rcases after_cases h.fresh (pc_ne_ended hc) a pc j with ⟨rfl, he⟩ | ⟨q, ha, -, he⟩ | ⟨-, he⟩
  · rw [he] at hj ⊢
    rcases code_keeps (h.fits j) hc with rfl | hk
    · rcases hj with hj | hj <;> cases hj
    · exact h.objects j (by rwa [← hk.1])
  · -- of the threads that are started only a session counts, and the main thread has started it
    rw [he] at hj ⊢
    rcases code_spawns hc ha with ⟨hp, -, -⟩ | ⟨-, rfl, -⟩ | ⟨b, -, rfl, -⟩ | ⟨b, -, rfl, -⟩
    · exact h.objects i (.inl (by rw [hp]; rfl))
    all_goals rcases hj with hj | hj <;> cases hj
  · rw [he] at hj ⊢
    exact h.objects j hj

theorem EndInv.at_session (h : EndInv s₀ s e) (hk : (s.threads i).pc.kind = .session) :
    i = s₀.spawned ∧ s₀.spawned < s.spawned := by
  have hne : (s.threads i).pc ≠ .ended := by
    intro he
    rw [he] at hk
    cases hk
  rcases h.who i hne with ⟨-, h2⟩ | ⟨h1, h2, -⟩ | ⟨-, -, h2 | h2⟩
  · rw [hk] at h2
    cases h2
  · exact ⟨h1, h2⟩
  · rw [hk] at h2
    cases h2
  · rw [hk] at h2
    cases h2

theorem EndInv.at_main (h : EndInv s₀ s e) {c : OnStart} (hpc : (s.threads i).pc = .onStart c) : i = 0 := by
  rcases h.who i (by rw [hpc]; simp) with ⟨h1, -⟩ | ⟨-, -, h2⟩ | ⟨-, -, h2 | h2⟩
  · exact h1
  all_goals
    rw [hpc] at h2
    cases h2

theorem EndInv.at_spawn (h : EndInv s₀ s e) (hpc : (s.threads i).pc = .onStart .spawn) :
    s.spawned = s₀.spawned := by
  have h0 : (s.threads 0).pc = .onStart .spawn := h.at_main hpc ▸ hpc
  refine Nat.le_antisymm (Nat.le_of_not_lt fun hlt => ?_) h.le
  obtain ⟨t, ht⟩ := h.main hlt _ h0
  cases ht

/-- A thread that goes on keeps its place; one that is new is the session, or comes after it. -/
theorem EndInv.who_after (h : EndInv s₀ s e) (hc : code env s i (s.threads i).pc o = some (a, pc)) (j : ℕ)
    (hj : ((after s i a pc).threads j).pc ≠ .ended) :
    (j = 0 ∧ ((after s i a pc).threads j).pc.kind = .main) ∨
    (j = s₀.spawned ∧ s₀.spawned < (after s i a pc).spawned ∧
      ((after s i a pc).threads j).pc.kind = .session) ∨
    (j ≠ 0 ∧ j ≠ s₀.spawned ∧ (((after s i a pc).threads j).pc.kind = .helper ∨
      ((after s i a pc).threads j).pc.kind = .async)) := by
  have hle : s.spawned ≤ (after s i a pc).spawned := (le_spawned s i a pc)
  rcases after_cases h.fresh (pc_ne_ended hc) a pc j with ⟨rfl, he⟩ | ⟨q, ha, rfl, he⟩ | ⟨-, he⟩
  · rw [he] at hj ⊢
    have hkind : pc.kind = (s.threads j).pc.kind := ((code_keeps (h.fits j) hc).resolve_left hj).1
    rcases h.who j (pc_ne_ended hc) with ⟨h1, h2⟩ | ⟨h1, h2, h3⟩ | ⟨h1, h2, h3⟩
    · exact .inl ⟨h1, hkind.trans h2⟩
    · exact .inr (.inl ⟨h1, Nat.lt_of_lt_of_le h2 hle, hkind.trans h3⟩)
    · exact .inr (.inr ⟨h1, h2, by rwa [hkind]⟩)
  · have hlt : s.spawned < (after s i a pc).spawned := by
      simp only [after, State.setPc, act, ha, Option.isSome_some, if_true]
      omega
    rw [he]
    rcases code_spawns hc ha with ⟨hp, rfl, -⟩ | ⟨hp, rfl, -⟩ | ⟨b, hp, rfl, -⟩ | ⟨b, hp, rfl, -⟩
    · have hs := h.at_spawn hp
      exact .inr (.inl ⟨hs, hs ▸ hlt, rfl⟩)
    · have hs := (h.at_session (by rw [hp]; rfl)).2
      exact .inr (.inr ⟨by omega, by omega, .inr rfl⟩)
    · have hs := (h.at_session (by rw [hp]; rfl)).2
      exact .inr (.inr ⟨by omega, by omega, .inl rfl⟩)
    · have hs := (h.at_session (by rw [hp]; rfl)).2
      exact .inr (.inr ⟨by omega, by omega, .inl rfl⟩)
  · rw [he] at hj ⊢
    rcases h.who j hj with h1 | ⟨h1, h2, h3⟩ | h1
    · exact .inl h1
    · exact .inr (.inl ⟨h1, Nat.lt_of_lt_of_le h2 hle, h3⟩)
    · exact .inr (.inr h1)

/-! ### Steps -/

theorem record_thread : (e.record s (.run i o)).thread = e.thread ∨
    (s.threads i).pc = .onStart .spawn ∧ (e.record s (.run i o)).thread = some s.spawned := by
  simp only [Surroundings.record]
  split <;> first | exact .inl rfl | exact .inr ⟨by assumption, rfl⟩

/-- The thread that is remembered is the first one since the start. -/
theorem EndInv.thread_after (h : EndInv s₀ s e) (hc : code env s i (s.threads i).pc o = some (a, pc)) (j : ℕ)
    (hj : (e.record s (.run i o)).thread = some j) : j = s₀.spawned ∧ s₀.spawned < (after s i a pc).spawned := by
  rcases @record_thread s i o e with he | ⟨hpc, he⟩
  · have := h.thread j (he ▸ hj)
    exact ⟨this.1, Nat.lt_of_lt_of_le this.2 (le_spawned s i a pc)⟩
  · obtain rfl := Option.some.inj (he.symm.trans hj)
    have heq := h.at_spawn hpc
    rw [hpc] at hc
    cases o <;> cases hc
    exact ⟨heq, heq ▸ Nat.lt_succ_self _⟩

theorem EndInv.run (h : EndInv s₀ s e) (hc : code env s i (s.threads i).pc o = some (a, pc))
    (hbefore : (after s i a pc).spawned = s₀.spawned → (after s i a pc).established = s₀.established ∧
      (((after s i a pc).threads 0).pc = .onStart .spawn →
        ((after s i a pc).fields (after s i a pc).object).isRunning = true))
    (hmain : s₀.spawned < (after s i a pc).spawned → ∀ c, ((after s i a pc).threads 0).pc = .onStart c →
      ∃ t, c = .keep t)
    (hsession : s₀.spawned < (after s i a pc).spawned →
      Standing s₀.established (after s i a pc) (e.record s (.run i o))
        ((after s i a pc).threads s₀.spawned).pc) :
    EndInv s₀ (after s i a pc) (e.record s (.run i o)) where
  pos := h.pos
  fresh := h.fresh.after (pc_ne_ended hc)
  le := Nat.le_trans h.le (le_spawned s i a pc)
  fits := fits_after h.fits h.fresh hc
  objects := h.objects_after hc
  who := h.who_after hc
  before := hbefore
  main := hmain
  session := hsession
  thread := h.thread_after hc

theorem EndInv.session_run (h : EndInv s₀ s e) (hc : code env s i (s.threads i).pc o = some (a, pc))
    (hk : (s.threads i).pc.kind = .session) (hg : (s.threads i).pc = .runVpn .establish → o ≠ .fail) :
    EndInv s₀ (after s i a pc) (e.record s (.run i o)) := by
  obtain ⟨rfl, hlt⟩ := h.at_session hk
  have ho := h.objects _ (.inr hk)
  have hst := h.session hlt
  have hpos := h.pos
  have hturn : Turn s (s.threads s₀.spawned).pc a pc := by
    refine code_turn (h.fits _) hk hst.good (fun he => ?_) (fun he => ?_) hg hc
    · rw [State.view, ho]
      exact hst.test he
    · rw [State.view, ho, hst.isRunning, he]
      rfl
  refine h.run hc (fun he => ?_) (fun _ c hm => ?_) fun _ => ?_
  · have := le_spawned s s₀.spawned a pc
    omega
  · rw [after_of_ne (by omega) (by omega)] at hm
    exact h.main hlt c hm
  · rw [after_self (by omega)]
    exact hst.turn ho rfl hk hturn

/-- A step of a thread that the session has nothing to do with. -/
theorem EndInv.other_run (h : EndInv s₀ s e) (hc : code env s i (s.threads i).pc o = some (a, pc))
    (hi : i ≠ s₀.spawned) (hk : (s.threads i).pc.kind ≠ .session)
    (hm : ∀ c, (s.threads i).pc = .onStart c → ∃ t, c = .keep t) (ha : a.leavesTun = true)
    (hspawn : a.spawns = none) (hmain : i = 0 → pc = .ended) :
    EndInv s₀ (after s i a pc) (e.record s (.run i o)) := by
  have hpos := h.fresh.1
  have hold := h.pos
  have hest : (after s i a pc).established = s.established := established_after (ne_establish ha)
  have hsame : ((after s i a pc).fields s.object).vpnInterface = (s.fields s.object).vpnInterface ∧
      ((after s i a pc).fields s.object).isRunning = (s.fields s.object).isRunning := leavesTun_after ha s.object
  refine h.run hc (fun he => ⟨?_, fun hp => ?_⟩) (fun hlt c hp => ?_) fun hlt => ?_
  · rw [spawned_after hspawn] at he
    exact hest.trans (h.before he).1
  · rw [spawned_after hspawn] at he
    by_cases hi0 : i = 0
    · subst hi0
      rw [after_self (by omega), hmain rfl] at hp
      cases hp
    · rw [after_of_ne (Ne.symm hi0) (by omega)] at hp
      exact hsame.2.trans ((h.before he).2 hp)
  · rw [spawned_after hspawn] at hlt
    by_cases hi0 : i = 0
    · subst hi0
      rw [after_self (by omega), hmain rfl] at hp
      cases hp
    · rw [after_of_ne (Ne.symm hi0) (by omega)] at hp
      exact h.main hlt c hp
  · rw [spawned_after hspawn] at hlt
    rw [after_of_ne (Ne.symm hi) (by omega), record_other hk hm rfl]
    exact (h.session hlt).frame hsame.2 hsame.1 (by rw [after_tuns, leavesTun_tuns ha]) hest rfl

/-- A statement of `startVpn` before the session is started. -/
theorem EndInv.before_run (h : EndInv s₀ s e) (hc : code env s 0 (s.threads 0).pc o = some (a, pc))
    (hmain : (s.threads 0).pc.kind = .main) (heq : s.spawned = s₀.spawned) (hspawn : a.spawns = none)
    (ha : a ≠ .establish)
    (hset : pc = .onStart .spawn → (a.onFields (s.fields s.object)).isRunning = true) :
    EndInv s₀ (after s 0 a pc) (e.record s (.run 0 o)) := by
  have ho := h.objects 0 (.inl hmain)
  have hpos := h.pos
  refine h.run hc (fun _ => ⟨?_, fun hp => ?_⟩) (fun hlt => ?_) fun hlt => ?_
  · rw [established_after ha]
    exact (h.before heq).1
  · rw [after_self (by omega)] at hp
    rw [fields_after ho]
    exact hset hp
  · rw [spawned_after hspawn] at hlt
    omega
  · rw [spawned_after hspawn] at hlt
    omega

/-- The session is started, with `isRunning` set and no interface. -/
theorem EndInv.spawn_run (env : Env) (h : EndInv s₀ s e) (hpc : (s.threads 0).pc = .onStart .spawn) :
    EndInv s₀ (after s 0 (.spawn (.runVpn .probe)) (.onStart (.keep s.spawned)))
      (e.record s (.run 0 .ok)) := by
  have heq := h.at_spawn hpc
  have hpos := h.pos
  have ho := h.objects 0 (.inl (by rw [hpc]; rfl))
  obtain ⟨hest, hrun⟩ := h.before heq
  have hc : code env s 0 (s.threads 0).pc .ok = some
      (.spawn (.runVpn .probe), .onStart (.keep s.spawned)) := by
    rw [hpc]
    rfl
  refine h.run hc (fun he => ?_) (fun _ c hm => ?_) fun _ => ?_
  · have : (after s 0 (.spawn (.runVpn .probe)) (.onStart (.keep s.spawned))).spawned = s.spawned + 1 := rfl
    omega
  · rw [after_self (by omega)] at hm
    cases hm
    exact ⟨_, rfl⟩
  · rw [← heq, after_spawned (by omega) rfl]
    change Standing _ _ _ (.runVpn .probe)
    refine ⟨rfl, ?_, fun t hn hlt => ?_, fun he => (by cases he), ?_, ?_, ?_, ?_⟩
    · rw [fields_after ho]
      exact hrun hpc
    · have hlt' : t < s.established := hlt
      omega
    all_goals exact fun hr => absurd hr (by decide)

theorem EndInv.main_run (h : EndInv s₀ s e) {c : OnStart} (hpc : (s.threads i).pc = .onStart c)
    (hc : code env s i (s.threads i).pc o = some (a, pc)) :
    EndInv s₀ (after s i a pc) (e.record s (.run i o)) := by
  have hi := h.at_main hpc
  subst hi
  have hpos := h.pos
  have hcode : OnStart.code s 0 c o = some (a, pc) := by
    rw [hpc] at hc
    exact hc
  by_cases hlt : s₀.spawned < s.spawned
  · obtain ⟨t, rfl⟩ := h.main hlt c hpc
    cases o <;> cases hcode
    exact h.other_run hc (by omega) (by rw [hpc]; simp [Pc.kind]) (h.main hlt) rfl rfl fun _ => rfl
  · have heq : s.spawned = s₀.spawned := Nat.le_antisymm (Nat.le_of_not_lt hlt) h.le
    have hb := h.before_run hc (by rw [hpc]; rfl) heq
    revert hcode hb
    fun_cases OnStart.code s 0 c o <;> intro hcode hb <;> cases hcode <;>
      first
        | exact hb rfl (by simp) (fun _ => rfl)
        | exact hb rfl (by simp) (by simp)
        | exact h.spawn_run env hpc

theorem endInv_start {id : Option String} (h₀ : Reachable (step env) init anyStep s₀) (hq : SessionsOver s₀)
    (hs : step env s₀ (.deliver (.start id)) = some s) : EndInv s₀ s {} := by
  have h := h₀.next _ trivial hs
  have hfresh := fresh_of_reachable h₀
  rcases step_cases hs with ⟨c, hl, hended, rfl⟩ | ⟨i, o, a, pc, hl, -⟩ | ⟨p, t, hl, -⟩ <;> cases hl
  refine ⟨hfresh.1, fresh_of_reachable h, Nat.le_refl _, fits_of_reachable h, fun j hj => ?_, fun j hj => ?_,
    fun _ => ⟨rfl, fun hp => ?_⟩, fun hlt => absurd hlt (Nat.lt_irrefl _), fun hlt => absurd hlt (Nat.lt_irrefl _),
    fun _ ht => nomatch ht⟩
  · rcases delivered_threads s₀ (.start id) _ j with ⟨-, he⟩ | ⟨hj0, he⟩
    · rw [he]
      rfl
    · rw [he] at hj
      rcases hj with hj | hj
      · exact absurd (main_of_reachable h₀ j hj) hj0
      · exact absurd hj (hq j)
  · rcases delivered_threads s₀ (.start id) _ j with ⟨rfl, he⟩ | ⟨hj0, he⟩
    · rw [he]
      exact .inl ⟨rfl, rfl⟩
    · -- what is left are helpers and threads that stop the engine
      rw [he] at hj ⊢
      have hlt := hfresh.lt hj
      rcases kind_cases hj with hk | hk | hk
      · exact absurd (main_of_reachable h₀ j hk) hj0
      · exact absurd hk (hq j)
      · exact .inr (.inr ⟨hj0, by omega, hk⟩)
  · rcases delivered_threads s₀ (.start id) _ 0 with ⟨-, he⟩ | ⟨h0, -⟩
    · rw [he] at hp
      cases hp
    · exact absurd rfl h0

theorem inSession_of_canThrow (h : pc.canThrow = true) : pc.inSession = true := by
  unfold Pc.canThrow at h
  split at h
  · cases h
  · exact h

theorem rank_of_canThrow (h : pc.canThrow = true) : pc.rank = 0 ∨ pc.rank = 2 := by
  cases pc with
  | runVpn c => cases c <;> first | exact .inl rfl | exact .inr rfl | cases h
  | ended => cases h
  | stopVpn => cases h
  | _ => exact .inr rfl

theorem EndInv.throws (h : EndInv s₀ s e) (ht : (s.threads i).pc.canThrow = true) :
    EndInv s₀ (s.setPc i (.stopVpn .test)) e := by
  have hk : (s.threads i).pc.kind = .session := kind_of_inSession (h.fits i) (inSession_of_canThrow ht)
  obtain ⟨rfl, hlt⟩ := h.at_session hk
  have hpos := h.pos
  have hne : (s.threads s₀.spawned).pc ≠ .ended := by
    intro he
    rw [he] at hk
    cases hk
  have hself : (s.setPc s₀.spawned (.stopVpn .test)).threads s₀.spawned =
      { s.threads s₀.spawned with pc := .stopVpn .test } := Function.update_self ..
  have hother : ∀ j, j ≠ s₀.spawned → (s.setPc s₀.spawned (.stopVpn .test)).threads j = s.threads j :=
    fun j hj => Function.update_of_ne hj ..
  have hst := h.session hlt
  have hrank := rank_of_canThrow ht
  refine ⟨hpos, ⟨h.fresh.1, fun j hj => ?_⟩, h.le, fun j => ?_, fun j hj => ?_, fun j hj => ?_, fun he => ?_,
    fun _ c hc => ?_, fun _ => ?_, h.thread⟩
  · have hj' : s.spawned ≤ j := hj
    rw [hother j (by omega)]
    exact h.fresh.2 j hj'
  · by_cases hjs : j = s₀.spawned
    · rw [hjs, hself]
      rfl
    · rw [hother j hjs]
      exact h.fits j
  · by_cases hjs : j = s₀.spawned
    · rw [hjs, hself]
      exact h.objects _ (.inr hk)
    · rw [hother j hjs] at hj ⊢
      exact h.objects j hj
  · by_cases hjs : j = s₀.spawned
    · rw [hjs, hself]
      exact .inr (.inl ⟨rfl, hlt, rfl⟩)
    · rw [hother j hjs] at hj ⊢
      exact h.who j hj
  · exact absurd hlt (by rw [show s.spawned = s₀.spawned from he]; exact Nat.lt_irrefl _)
  · rw [hother 0 (by omega)] at hc
    exact h.main hlt c hc
  · rw [hself]
    change Standing _ _ _ (.stopVpn .test)
    refine ⟨rfl, ?_, fun t hn ht' hopen => .inr ⟨.inl rfl, ?_⟩, fun he => (by cases he), ?_, ?_, ?_, ?_⟩
    · exact hst.isRunning.trans (by rcases hrank with hr | hr <;> rw [hr] <;> rfl)
    · rcases hst.tuns t hn ht' hopen with he | he
      · rw [he] at ht
        cases ht
      · exact he.2
    all_goals exact fun hr => absurd hr (by decide)

/-- **One step keeps the invariant** when `establish()` does not return `null`. -/
theorem sessionStep_inv {x x' : State × Surroundings} {l : SessionLabel} (h : EndInv s₀ x.1 x.2)
    (hg : Establishes x l) (hs : sessionStep env x l = some x') : EndInv s₀ x'.1 x'.2 := by
  obtain ⟨s, e⟩ := x
  cases l with
  | throws i =>
    simp only [sessionStep, Option.ite_none_right_eq_some, Option.some.injEq] at hs
    obtain ⟨ht, rfl⟩ := hs
    exact h.throws ht
  | base l =>
    simp only [sessionStep, Option.ite_none_left_eq_some, Option.map_eq_some_iff] at hs
    obtain ⟨hone, s', hs, rfl⟩ := hs
    rcases step_cases hs with ⟨c, rfl, -, rfl⟩ | ⟨i, o, a, pc, rfl, hc, rfl⟩ | ⟨p, t, rfl, -, -, rfl⟩
    · exact absurd rfl hone
    · rcases h.who i (pc_ne_ended hc) with ⟨-, hk⟩ | ⟨-, -, hk⟩ | ⟨hi0, hi, hk⟩
      · obtain ⟨c, hpc⟩ := main_of_kind hk
        exact h.main_run hpc hc
      · exact h.session_run hc hk hg
      · obtain ⟨ha, hspawn⟩ := code_helper hk hc
        exact h.other_run hc hi (by rcases hk with hk | hk <;> rw [hk] <;> simp)
          (fun c he => by rw [he] at hk; rcases hk with hk | hk <;> cases hk) ha hspawn fun h0 => absurd h0 hi0
    · exact { h with session := fun hlt => (h.session hlt).frame rfl rfl rfl rfl rfl }

/-- **Every end of a session cleans up**, if no earlier session is left when the start is delivered and unless
`establish()` returns `null`: once the `runVpn` thread that the start has started is over, the service is not running,
its interface is closed and forgotten, the executor is shut down, the engine was asked to stop, and the service has left
the foreground and called `stopSelf`. -/
theorem session_cleans_up (env : Env) {s₀ s₁ : State} (h₀ : Reachable (step env) init anyStep s₀)
    (hover : SessionsOver s₀) {id : Option String} (hstart : step env s₀ (.deliver (.start id)) = some s₁)
    {x : State × Surroundings} (hx : Reachable (sessionStep env) (s₁, {}) Establishes x) {i : ℕ}
    (hthread : x.2.thread = some i) (hended : (x.1.threads i).pc = .ended) : CleanedUp s₀.established x := by
  have hinv : EndInv s₀ x.1 x.2 :=
    @Reachable.invariant _ _ _ _ _ (fun x : State × Surroundings => EndInv s₀ x.1 x.2) (endInv_start h₀ hover hstart)
      (fun _ _ _ _ hi hg hs => sessionStep_inv hi hg hs) x hx
  obtain ⟨rfl, hstarted⟩ := hinv.thread i hthread
  have hst := hinv.session hstarted
  rw [hended] at hst
  refine ⟨hst.isRunning, hst.vpnInterface (by decide), fun t hn hlt => ?_, hst.executor (by decide),
    hst.asked (by decide), (hst.left (by decide)).1, (hst.left (by decide)).2⟩
  by_contra hopen
  exact hst.none_open (.inr (by decide)) hn hlt (eq_true_of_ne_false hopen)

/-- `Establishes`, computed. -/
def establishes (x : State × Surroundings) : SessionLabel → Bool
  | .base (.run i o) => (x.1.threads i).pc ≠ .runVpn .establish || o ≠ .fail
  | _ => true

theorem establishes_of_check (x : State × Surroundings) (l : SessionLabel) (h : establishes x l = true) :
    Establishes x l := by
  cases l with
  | throws => trivial
  | base l =>
    cases l with
    | run i o =>
      intro hpc
      simpa [establishes, hpc] using h
    | _ => trivial

/-- The session reaches its loop, and something is thrown there. -/
theorem session_cleans_up_thrown : ∃ x,
    Reachable (sessionStep deviceEnv) (delivered init (.start none) 0, {}) Establishes x ∧ x.1.established = 1 ∧ CleanedUp init.established x := by
  obtain ⟨x, hx, hf⟩ := reachable_of_run (sessionStep deviceEnv) (delivered init (.start none) 0, {}) (c := establishes)
    (fun x l _ => establishes_of_check x l)
    ((List.replicate 8 (Label.run 0 .ok) ++ sessionLabels 1).map .base ++
      .throws 1 :: List.replicate 10 (.base (.run 1 .ok)))
    (fun x => (x.2.thread, (x.1.threads 1).pc, x.1.established)) (b := (some 1, .ended, 1)) (by decide +kernel)
  simp only [Prod.mk.injEq] at hf
  obtain ⟨hthread, hended, hest⟩ := hf
  exact ⟨x, hx, hest, session_cleans_up deviceEnv .init (fun _ hk => nomatch hk) rfl hx hthread hended⟩

/-- `establish()` returns `null`: `runVpn` clears `isRunning`, and `stopVpn` returns at once. -/
theorem session_not_cleaned_up :
    ¬ ∀ (env : Env) (s₀ s₁ : State) (id : Option String) (x : State × Surroundings) (i : ℕ),
      Reachable (step env) init anyStep s₀ → step env s₀ (.deliver (.start id)) = some s₁ →
      Reachable (sessionStep env) (s₁, {}) anyStep x → x.2.thread = some i → (x.1.threads i).pc = .ended →
      CleanedUp s₀.established x := by
  intro h
  obtain ⟨x, hx, hf⟩ := reachable_of_run (sessionStep deviceEnv) (delivered init (.start none) 0, {}) anyStep_of_true
    ((List.replicate 8 (Label.run 0 .ok)).map .base ++ [.base (.run 1 (.network true)), .base (.run 1 .fail)] ++
      List.replicate 4 (.base (.run 1 .ok)))
    (fun x => (x.2.thread, (x.1.threads 1).pc, x.2.executor)) (b := (some 1, .ended, .working)) (by decide +kernel)
  simp only [Prod.mk.injEq] at hf
  obtain ⟨hthread, hended, hexecutor⟩ := hf
  have hclean := h deviceEnv init _ none x 1 .init rfl hx hthread hended
  rw [hclean.executor] at hexecutor
  cases hexecutor

/-- A session is stopped, and its `runVpn` sleeps on. -/
def leftOver : Option State :=
  Transition.run (step deviceEnv) (fun _ _ => true) init
    (startLabels none ++ sessionLabels 1 ++ .run 1 .ok :: stopLabels)

/-- The next session is about to establish its interface when the earlier `runVpn` wakes up and stops it. -/
def disturbedLabels : List SessionLabel :=
  (List.replicate 8 (Label.run 0 .ok) ++ Label.run 5 (.network true) :: List.replicate 11 (Label.run 1 .ok) ++
    List.replicate 2 (Label.run 5 .ok)).map .base ++ [.throws 5, .base (.run 5 .ok)]

/-- An earlier `runVpn` may stop the session in its place: an interface is left open. -/
theorem session_disturbed :
    ¬ ∀ (env : Env) (s₀ s₁ : State) (id : Option String) (x : State × Surroundings) (i : ℕ),
      Reachable (step env) init anyStep s₀ → step env s₀ (.deliver (.start id)) = some s₁ →
      Reachable (sessionStep env) (s₁, {}) Establishes x → x.2.thread = some i → (x.1.threads i).pc = .ended →
      CleanedUp s₀.established x := by
  intro h
  have hrun : (leftOver.bind fun s₀ => (step deviceEnv s₀ (.deliver (.start none))).bind fun s₁ =>
      (Transition.run (sessionStep deviceEnv) establishes (s₁, {}) disturbedLabels).map fun x =>
        (x.2.thread, (x.1.threads 5).pc, (x.1.fields x.1.object).vpnInterface)) = some (some 5, .ended, some 1) := by
    decide +kernel
  obtain ⟨s₀, h₀, hrun⟩ := Option.bind_eq_some_iff.mp hrun
  obtain ⟨s₁, h₁, hrun⟩ := Option.bind_eq_some_iff.mp hrun
  obtain ⟨x, hx, hf⟩ := Option.map_eq_some_iff.mp hrun
  simp only [Prod.mk.injEq] at hf
  obtain ⟨hthread, hended, htun⟩ := hf
  have hclean := h deviceEnv s₀ s₁ none x 5 (Reachable.init.run anyStep_of_true h₀) h₁
    (Reachable.init.run (fun x l _ => establishes_of_check x l) hx) hthread hended
  rw [hclean.vpnInterface] at htun
  cases htun

end BypassVpn.Service
