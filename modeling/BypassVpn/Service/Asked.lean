import BypassVpn.Service.Reader
import BypassVpn.Service.StopFinal

/-!
# The engine that was asked for

After a start, once nothing is under way, the engine should run with the parameters of the active preset
and on the interface of the session. A start writes the preset and its configuration before it finds
that the service is running; and starts, stops and restarts, each made of many statements, exclude each
other by nothing but the wait of `startVpn`.

* `Settled`, `Asked`: the promise; `Pc.busy`: in a start, a stop or a restart; `InTurn`: the
  restriction.
* `Told`: what the thread that is busy has been told; `Rest`: what holds when no thread is.
* `Frame`, `Told.mono`: what the other threads leave alone; **`goes_run`**: a statement of the busy
  thread.
-/

namespace BypassVpn.Service

open Transition

variable {env : Env} {s s' : State} {i j : ℕ} {o : Outcome} {a : Act} {pc pc' q : Pc} {p : Part}

/-! ### The promise -/

/-- The service object that commands are delivered to. -/
def service (s : State) : Fields := s.fields s.object

/-- A start, a stop or a restart is in progress. -/
def Pc.underWay : Pc → Bool
  | .ended | .asn _ | .monitor .. => false
  | pc => !pc.inLoop

/-- No start, stop or restart is in progress. -/
def Quiet (s : State) : Prop := ∀ j, (s.threads j).pc.underWay = false

/-- What the `ProxyEngine.start` of `runVpn` has returned. -/
def Pc.result : Pc → Option Bool
  | .runVpn c =>
    match c with
    | .interruptMonitor b | .spawnMonitor b | .keepMonitor b _ | .spawnAsn b | .enter b | .packets b _
    | .read b _ => some b
    | .idle | .sleep => some true
    | _ => none
  | _ => none

/-- The configuration is that of the active preset. -/
def Fetched (s : State) : Prop := (service s).currentConfig = loadPreset (service s).activePresetId

/-- ciadpi runs, with the parameters derived from the configuration. -/
def ProxyAsked (env : Env) (s : State) : Prop :=
  (∃ n, (s.parts .ciadpi).job n ≠ none) ∧ ∀ n b, (s.parts .ciadpi).job n = some b →
    ∃ path, (path = env.protectPath ∨ path = "") ∧
      b = .proxy (ciadpiArgs (service s).currentConfig path (service s).hasRealIpv6)

/-- tun2socks runs, on the interface of the session. -/
def BridgeAsked (s : State) : Prop :=
  (∃ n, (s.parts .tun2socks).job n ≠ none) ∧ ∀ n b, (s.parts .tun2socks).job n = some b →
    ∃ t, b = .bridge t ∧ (s.tuns t).session = s.session

/-- The engine that runs is the engine that was asked for. -/
structure Asked (env : Env) (s : State) : Prop where
  config : Fetched s
  proxy : ProxyAsked env s
  bridge : BridgeAsked s

/-- The last command was a start, the session is in its loop after its `ProxyEngine.start` has returned
true, and nothing is in progress. -/
structure Settled (s : State) : Prop where
  started : Started s
  loop : (s.threads s.session).pc.inLoop = true
  result : (s.threads s.session).pc.result = some true
  quiet : Quiet s

/-! ### The restriction -/

/-- In a start, from `isRunning = true` until its `ProxyEngine.start` has returned; in a stop, from the
test of `stopVpn` until its `ProxyEngineStop` has ended; or in a restart. -/
def Pc.busy : Pc → Bool
  | .onStart c => c = .spawn
  | .stopVpn c =>
    match c with
    | .test | .keep _ => false
    | _ => true
  | .runVpn c =>
    match c with
    | .probe | .establish | .store _ | .test | .giveUp | .loadConfig | .readFd | .call _ => true
    | _ => false
  | .restart .. => true
  | pc => pc.inEngine

/-- What a statement has to keep to. -/
structure InTurn (s : State) (i : ℕ) (o : Outcome) (pc : Pc) : Prop where
  /-- A start, a stop or a restart begins only while no other one is under way. -/
  turn : (s.threads i).pc.busy = false → pc.busy = true → ∀ j, (s.threads j).pc.busy = false
  /-- A start that finds the service running names the active preset. -/
  preset : ∀ id, (s.threads i).pc = .onStart (.setPreset id) → (s.view i).isRunning = true →
    id = (s.view i).activePresetId
  /-- The `stopVpn` in a `finally` block finds the service running only in the thread of the session. -/
  stop : (s.threads i).pc = .stopVpn .test → (s.view i).isRunning = true → i = 0 ∨ i = s.session
  /-- A restart begins only while the service is running. -/
  restart : (s.threads i).pc.busy = false → pc.restarting = true → (s.view i).isRunning = true
  /-- When the session's start has succeeded no restart fails, and none is interrupted. -/
  firm : (s.threads s.session).pc.result = some true → (s.threads i).pc.restarting = true →
    ((s.threads i).pc.fallible = true → o = .ok) ∧
      ∀ site t, (s.threads i).pc = .restart site (.pause t) → s.interrupted i = false

/-- The threads take turns; ciadpi and tun2socks leave their loops only while they are being stopped. -/
def InTurns (env : Env) (s : State) : Label → Prop
  | .deliver _ => True
  | .run i o => ∀ a pc, code env s i (s.threads i).pc o = some (a, pc) → InTurn s i o pc
  | .exit p _ => ∃ j, (s.threads j).pc.stage p = .join ∨ ∃ t, (s.threads j).pc.stage p = .joining t

/-! ### What the busy thread has been told -/

/-- The part is stopped. -/
def Down (s : State) (p : Part) : Prop := (s.parts p).running = false ∧ ∀ t, (s.parts p).job t = none

/-- The `ProxyEngine.start` of the session has returned true, and the session is not in its `finally`
block. -/
def Firm (s : State) : Prop := (s.threads s.session).pc.result = some true

/-- An open interface of the session. -/
def Held (s : State) (t : ℕ) : Prop := (s.tuns t).isOpen = true ∧ (s.tuns t).session = s.session

/-- The interface of the service is there and held. -/
def TunHeld (s : State) : Prop := ∃ t, (service s).vpnInterface = some t ∧ Held s t

/-- The thread belongs to the service object, which is running. -/
def Serves (s : State) (i : ℕ) : Prop := (s.threads i).object = s.object ∧ (service s).isRunning = true

/-- Who starts or stops the engine. -/
def Caller (s : State) (i : ℕ) (site : Site) : Prop :=
  match site with
  | .async => (service s).isRunning = false
  | .session => Serves s i ∧ i = s.session ∧ TunHeld s
  | _ => Serves s i ∧ (Firm s → TunHeld s)

/-- The engine has to be brought up. -/
def Owed (s : State) (site : Site) : Prop := site = .session ∨ Firm s

/-- The arguments are those of the session. -/
structure Fits (s : State) (b : StartArgs) : Prop where
  config : b.config = (service s).currentConfig
  ipv6 : b.ipv6Enabled = (service s).hasRealIpv6
  tun : (s.tuns b.tunFd).session = s.session

/-- What `runVpn` knows where it stands. -/
def RunVpn.told (s : State) : RunVpn → Prop
  | .store t => ∀ u, t = some u → Held s u
  | .test => ∀ u, (service s).vpnInterface = some u → Held s u
  | .loadConfig => TunHeld s
  | .readFd => TunHeld s ∧ Fetched s
  | .call t => TunHeld s ∧ Fetched s ∧ Held s t
  | _ => True

/-- What a restart knows where it stands. -/
def Restart.told (s : State) : Restart → Prop
  | .setPreset _ => True
  | .loadConfig id => (service s).activePresetId = id
  | .stop => Fetched s
  | .readFd => Fetched s ∧ Down s .ciadpi ∧ Down s .tun2socks
  | .pause t | .call t =>
    Fetched s ∧ Down s .ciadpi ∧ Down s .tun2socks ∧ (Firm s → (s.tuns t).session = s.session)

/-- What a start knows where it stands. -/
def Start.told (env : Env) (s : State) (site : Site) : Start → Prop
  | .ciadpiFlag _ | .ciadpiCreate _ => Down s .tun2socks
  | .ciadpiUnset => Down s .tun2socks ∧ ¬ Firm s
  | .tun2socksTest => Down s .tun2socks ∧ (Owed s site → ProxyAsked env s)
  | .tun2socksFlag | .tun2socksCreate => Owed s site → ProxyAsked env s
  | .tun2socksUnset => ¬ Firm s
  | _ => Down s .ciadpi ∧ Down s .tun2socks

/-- What the thread that is busy has been told. -/
def Told (env : Env) (s : State) (i : ℕ) : Pc → Prop
  | .onStart _ => Serves s i ∧ Down s .ciadpi ∧ Down s .tun2socks
  | .stopVpn c =>
    if c = .clearRunning then Serves s i ∧ (i = 0 ∨ i = s.session) else (service s).isRunning = false
  | .runVpn c => Serves s i ∧ i = s.session ∧ Down s .ciadpi ∧ Down s .tun2socks ∧ c.told s
  | .restart site c => Caller s i site ∧ c.told s
  | .start site b c => Caller s i site ∧ Fetched s ∧ (Owed s site → Fits s b) ∧ c.told env s site
  | .stopLibs site | .stopTun2socks site _ => Caller s i site ∧ (site.restarts = true → Fetched s)
  | .stopCiadpi site _ => Caller s i site ∧ (site.restarts = true → Fetched s) ∧ Down s .tun2socks
  | .stopProtect site _ =>
    Caller s i site ∧ (site.restarts = true → Fetched s) ∧ Down s .ciadpi ∧ Down s .tun2socks
  | .undoCiadpi site _ => Caller s i site ∧ ¬ Firm s ∧ Down s .tun2socks
  | .undoProtect site b _ =>
    Caller s i site ∧ Fetched s ∧ (Owed s site → Fits s b) ∧ Down s .ciadpi ∧ Down s .tun2socks
  | _ => True

/-- What holds when no thread is busy. -/
def Rest (env : Env) (s : State) : Prop :=
  if (service s).isRunning then Firm s → TunHeld s ∧ Asked env s else Down s .ciadpi ∧ Down s .tun2socks

/-! ### What a statement leaves alone -/

theorem Serves.view (h : Serves s i) : s.view i = service s := by
  rw [State.view, h.1]
  rfl

theorem service_after (h : (s.threads i).object = s.object) :
    service (after s i a pc) = a.onFields (service s) := by
  have he := @after_fields_self s i a pc
  rw [State.view, h] at he
  exact he

theorem service_after_cases (s : State) (i : ℕ) (a : Act) (pc : Pc) :
    service (after s i a pc) = service s ∨
    (s.threads i).object = s.object ∧ service (after s i a pc) = a.onFields (service s) := by
  by_cases h : (s.threads i).object = s.object
  · exact .inr ⟨h, service_after h⟩
  · exact .inl (after_fields_of_ne (Ne.symm h))

theorem service_after_of_inEngine (ha : a.inEngine = true) : service (after s i a pc) = service s := by
  rcases service_after_cases s i a pc with h | ⟨-, h⟩
  · exact h
  · rw [h, (Act.inEngine_frame (s := s) (i := i) ha).1]

/-- What the thread that is busy relies on stays as it is. -/
structure Frame (s s' : State) : Prop where
  object : s'.object = s.object
  session : s'.session = s.session
  tuns : s'.tuns = s.tuns
  running : (service s').isRunning = (service s).isRunning
  tun : (service s').vpnInterface = (service s).vpnInterface
  ipv6 : (service s').hasRealIpv6 = (service s).hasRealIpv6
  preset : (service s).isRunning = true → (service s').activePresetId = (service s).activePresetId
  config : (service s).isRunning = true → Fetched s → (service s').currentConfig = (service s).currentConfig

theorem Frame.of_service (h : service s' = service s) (hobj : s'.object = s.object)
    (hs : s'.session = s.session)
    (ht : s'.tuns = s.tuns) : Frame s s' := by
  constructor <;> first | assumption | simp only [h, implies_true]

theorem frame_of_inEngine (ha : a.inEngine = true) : Frame s (after s i a pc) := by
  obtain ⟨-, ht, hsp⟩ := Act.inEngine_frame (s := s) (i := i) ha
  exact .of_service (service_after_of_inEngine ha) rfl (by simp [after, State.setPc, act, hsp]) ht

namespace Frame

variable (fr : Frame s s') {site : Site} {b : StartArgs} {t : ℕ}

include fr

theorem fetched (hr : (service s).isRunning = true) (h : Fetched s) : Fetched s' := by
  rw [Fetched, fr.config hr h, fr.preset hr]
  exact h

theorem held (h : Held s t) : Held s' t := by
  rw [Held, fr.tuns, fr.session]
  exact h

theorem tunHeld (h : TunHeld s) : TunHeld s' := by
  obtain ⟨t, ht, hheld⟩ := h
  exact ⟨t, by rw [fr.tun, ht], fr.held hheld⟩

theorem serves (hobj : (s'.threads i).object = (s.threads i).object) (h : Serves s i) : Serves s' i :=
  ⟨by rw [hobj, fr.object]; exact h.1, by rw [fr.running]; exact h.2⟩

theorem caller (hobj : (s'.threads i).object = (s.threads i).object) (hfirm : Firm s' → Firm s)
    (h : Caller s i site) : Caller s' i site := by
  cases site with
  | async => exact fr.running.trans h
  | session => exact ⟨fr.serves hobj h.1, by rw [fr.session]; exact h.2.1, fr.tunHeld h.2.2⟩
  | asn | monitor => exact ⟨fr.serves hobj h.1, fun hf => fr.tunHeld (h.2 (hfirm hf))⟩

theorem fits (hr : (service s).isRunning = true) (hf : Fetched s) (h : Fits s b) : Fits s' b where
  config := by rw [fr.config hr hf, h.config]
  ipv6 := by rw [fr.ipv6, h.ipv6]
  tun := by rw [fr.tuns, fr.session, h.tun]

theorem proxyAsked (hr : (service s).isRunning = true) (hf : Fetched s)
    (hp : s'.parts .ciadpi = s.parts .ciadpi) (h : ProxyAsked env s) : ProxyAsked env s' := by
  rw [ProxyAsked, hp, fr.config hr hf, fr.ipv6]
  exact h

theorem bridgeAsked (hp : s'.parts .tun2socks = s.parts .tun2socks) (h : BridgeAsked s) : BridgeAsked s' := by
  rw [BridgeAsked, hp, fr.tuns, fr.session]
  exact h

end Frame

theorem Down.of_eq (h : Down s p) (hp : s'.parts p = s.parts p) : Down s' p := by
  rw [Down, hp]
  exact h

/-- After a statement the session has the result of its start: it has just got it, or had it before. -/
theorem firm_after (hf : Fresh s) (hlt : s.session < s.spawned)
    (hc : code env s i (s.threads i).pc o = some (a, pc))
    (h : Firm (after s i a pc)) :
    (after s i a pc).session = s.session ∧
    (i = s.session ∧ pc.result = some true ∨ i ≠ s.session ∧ Firm s) := by
  have hne := pc_ne_ended hc
  by_cases hns : (s.threads i).pc = .onStart .spawn
  · -- a new session begins
    rw [hns] at hc
    cases o <;> cases hc
    have hs : (after s i (.spawn (.runVpn .probe)) (.onStart (.keep s.spawned))).session = s.spawned := by
      simp [after, State.setPc, act, Act.spawns, Pc.isSession]
    rw [Firm, hs, after_spawned (Nat.ne_of_lt (hf.lt hne)).symm rfl] at h
    cases h
  · obtain ⟨hs, hcase⟩ := after_session hf hlt hc hns
    refine ⟨hs, ?_⟩
    rw [Firm, hs] at h
    rcases hcase with ⟨hi, he⟩ | ⟨hi, he⟩
    · rw [he] at h
      exact .inl ⟨hi, h⟩
    · rw [he] at h
      exact .inr ⟨hi, h⟩

theorem Site.result_after (site : Site) : site.resume.result = none ∧ site.stopped.result = none ∧
    ∀ b, (site.started b).result = some true → site = .session ∧ b = true := by
  refine ⟨by cases site <;> rfl, by cases site <;> rfl, fun b h => ?_⟩
  cases site with
  | session =>
    cases h
    exact ⟨rfl, rfl⟩
  | _ => cases h

theorem Site.busy_after (b : Bool) (site : Site) :
    (site.started b).busy = false ∧ site.resume.busy = false := by
  cases site <;> exact ⟨rfl, rfl⟩

/-- An effect that the busy thread does not notice. -/
def Act.isLight : Act → Bool
  | .skip | .setFails _ | .setVpnThread _ | .setMonitorThread _ | .setStopThread _ | .interrupt _
  | .clearInterrupt => true
  | .spawn q => !q.isSession && !q.busy
  | _ => false

theorem code_calm (hb : pc.busy = false) (h : code env s i pc o = some (a, pc')) :
    a.isLight = true ∧ (pc'.busy = true → pc = .stopVpn .test ∧ pc' = .stopVpn .clearRunning ∧
        (s.view i).isRunning = true ∨ ∃ site id, pc' = .restart site (.setPreset id)) ∨
    (∃ id, pc = .onStart (.setPreset id) ∧ a = .setPreset id ∧ pc' = .onStart .loadConfig) ∨
    (pc = .onStart .loadConfig ∧ a = .setConfig (loadPreset (s.view i).activePresetId) ∧ pc' =
      .onStart .test) ∨
    pc = .onStart .setRunning ∧ a = .setRunning true ∧ pc' = .onStart .spawn := by
  revert h
  cases pc with
  | ended => intro h; cases h
  | onStart c =>
    change OnStart.code s i c o = _ → _
    fun_cases OnStart.code s i c o <;> intro h <;> cases h
    · exact .inr (.inl ⟨_, rfl, rfl, rfl⟩)
    · exact .inr (.inr (.inl ⟨rfl, rfl, rfl⟩))
    · exact .inl ⟨rfl, fun h => by cases h⟩
    · exact .inl ⟨rfl, fun h => by cases h⟩
    · exact .inl ⟨rfl, fun h => by cases h⟩
    · exact .inl ⟨rfl, fun h => by cases h⟩
    · exact .inr (.inr (.inr ⟨rfl, rfl, rfl⟩))
    · cases hb
    · exact .inl ⟨rfl, fun h => by cases h⟩
  | stopVpn c =>
    change StopVpn.code s i c o = _ → _
    fun_cases StopVpn.code s i c o <;> intro h <;> cases h <;> cases hb
    · exact .inl ⟨rfl, fun _ => .inl ⟨rfl, rfl, ‹_›⟩⟩
    · exact .inl ⟨rfl, fun h => by cases h⟩
    · exact .inl ⟨rfl, fun h => by cases h⟩
  | runVpn c =>
    change RunVpn.code env s i c o = _ → _
    fun_cases RunVpn.code env s i c o <;> intro h <;> cases h <;> cases hb <;>
      exact .inl ⟨rfl, fun h => by cases h⟩
  | asn c =>
    change AsnAutoDetect.code s i c o = _ → _
    fun_cases AsnAutoDetect.code s i c o <;> intro h <;> cases h <;>
      first | exact .inl ⟨rfl, fun _ => .inr ⟨_, _, rfl⟩⟩ | exact .inl ⟨rfl, fun h => by cases h⟩
  | monitor w c =>
    change PresetMonitor.code s i w c o = _ → _
    fun_cases PresetMonitor.code s i w c o <;> intro h <;> cases h <;>
      first | exact .inl ⟨rfl, fun _ => .inr ⟨_, _, rfl⟩⟩ | exact .inl ⟨rfl, fun h => by cases h⟩
  | _ => cases hb

/-- A thread that is not busy has the result of its start, if any, from before. -/
theorem code_result (hb : pc.busy = false) (h : code env s i pc o = some (a, pc')) {r : Bool}
    (hr : pc'.result = some r) : pc.result = some r := by
  revert h
  cases pc with
  | runVpn c =>
    change RunVpn.code env s i c o = _ → _
    fun_cases RunVpn.code env s i c o <;> intro h <;> cases h <;> cases hr <;> try rfl
    simp_all [Pc.result]
  | ended => intro h; cases h
  | onStart c =>
    change OnStart.code s i c o = _ → _
    fun_cases OnStart.code s i c o <;> intro h <;> cases h <;> cases hr
  | stopVpn c =>
    change StopVpn.code s i c o = _ → _
    fun_cases StopVpn.code s i c o <;> intro h <;> cases h <;> cases hr
  | asn c =>
    change AsnAutoDetect.code s i c o = _ → _
    fun_cases AsnAutoDetect.code s i c o <;> intro h <;> cases h <;> cases hr
  | monitor w c =>
    change PresetMonitor.code s i w c o = _ → _
    fun_cases PresetMonitor.code s i w c o <;> intro h <;> cases h <;> cases hr
  | _ => cases hb

theorem isLight_frame (ha : a.isLight = true) : Frame s (after s i a pc) ∧
    ∀ p, (after s i a pc).parts p = s.parts p := by
  have hsp : a.spawns.any Pc.isSession = false := by
    cases a with
    | spawn q =>
      simp only [Act.isLight, Bool.and_eq_true, Bool.not_eq_true'] at ha
      simpa [Act.spawns] using ha.1
    | _ => rfl
  have hs : (after s i a pc).session = s.session := by simp [after, State.setPc, act, hsp]
  have hfields : ∀ f : Fields, (a.onFields f).isRunning = f.isRunning ∧
    (a.onFields f).vpnInterface = f.vpnInterface ∧
      (a.onFields f).hasRealIpv6 = f.hasRealIpv6 ∧ (a.onFields f).activePresetId = f.activePresetId ∧
      (a.onFields f).currentConfig = f.currentConfig := fun f => by
    cases a <;> first | exact ⟨rfl, rfl, rfl, rfl, rfl⟩ | cases ha
  have ht : (after s i a pc).tuns = s.tuns := by cases a <;> first | rfl | cases ha
  refine ⟨?_, fun p => by cases a <;> first | rfl | cases ha⟩
  rcases service_after_cases s i a pc with h | ⟨-, h⟩
  · exact .of_service h rfl hs ht
  · obtain ⟨h1, h2, h3, h4, h5⟩ := hfields (service s)
    refine ⟨rfl, hs, ht, ?_, ?_, ?_, fun _ => ?_, fun _ _ => ?_⟩ <;> rw [h]
    · exact h1
    · exact h2
    · exact h3
    · exact h4
    · exact h5

theorem Caller.serves {site : Site} (h : Caller s i site) (hs : site ≠ .async) : Serves s i := by
  cases site with
  | async => exact absurd rfl hs
  | session | asn | monitor => exact h.1

theorem Caller.tunHeld {site : Site} (h : Caller s i site) (hs : site ≠ .async) (ho : Owed s site) :
    TunHeld s := by
  cases site with
  | async => exact absurd rfl hs
  | session => exact h.2.2
  | asn | monitor => exact h.2 (ho.resolve_left (by simp))

theorem created_only {x : PartState} (hn : ∀ t, x.job t = none) (b : Job) :
    (∃ n, (x.create b).job n ≠ none) ∧ ∀ n d, (x.create b).job n = some d → d = b := by
  refine ⟨⟨x.created, by simp [PartState.create]⟩, fun n d hd => ?_⟩
  by_cases hnc : n = x.created
  · simp only [PartState.create, hnc, Function.update_self] at hd
    exact (Option.some.inj hd).symm
  · simp only [PartState.create, Function.update_of_ne hnc, hn n] at hd
    cases hd

/-- What does not concern the busy thread leaves it what it has been told. -/
theorem Told.mono (h : Told env s i pc) (hfit : pc.fits = true) (fr : Frame s s')
    (hobj : (s'.threads i).object = (s.threads i).object) (hfirm : Firm s' → Firm s)
    (hparts : ∀ p, s'.parts p = s.parts p) : Told env s' i pc := by
  have hdown : ∀ p, Down s p → Down s' p := fun p hd => hd.of_eq (hparts p)
  have howed : ∀ {site}, Owed s' site → Owed s site := fun h => h.imp id hfirm
  cases pc with
  | onStart c => exact ⟨fr.serves hobj h.1, hdown _ h.2.1, hdown _ h.2.2⟩
  | stopVpn c =>
    rw [Told] at h ⊢
    split at h
    · rename_i hc
      rw [if_pos hc, fr.session]
      exact ⟨fr.serves hobj h.1, h.2⟩
    · rename_i hc
      rw [if_neg hc, fr.running]
      exact h
  | runVpn c =>
    obtain ⟨hs, hi, hc, ht, htold⟩ := h
    refine ⟨fr.serves hobj hs, by rw [fr.session]; exact hi, hdown _ hc, hdown _ ht, ?_⟩
    cases c with
    | store t => exact fun u hu => fr.held (htold u hu)
    | test =>
      intro u hu
      rw [fr.tun] at hu
      exact fr.held (htold u hu)
    | loadConfig => exact fr.tunHeld htold
    | readFd => exact ⟨fr.tunHeld htold.1, fr.fetched hs.2 htold.2⟩
    | call t => exact ⟨fr.tunHeld htold.1, fr.fetched hs.2 htold.2.1, fr.held htold.2.2⟩
    | _ => trivial
  | restart site c =>
    obtain ⟨hcall, htold⟩ := h
    have hr := (hcall.serves (by rintro rfl; cases hfit)).2
    refine ⟨fr.caller hobj hfirm hcall, ?_⟩
    cases c with
    | setPreset id => trivial
    | loadConfig id => exact (fr.preset hr).trans htold
    | stop => exact fr.fetched hr htold
    | readFd => exact ⟨fr.fetched hr htold.1, hdown _ htold.2.1, hdown _ htold.2.2⟩
    | pause t | call t =>
      obtain ⟨hf, hc, ht, hown⟩ := htold
      refine ⟨fr.fetched hr hf, hdown _ hc, hdown _ ht, fun h => ?_⟩
      rw [fr.tuns, fr.session]
      exact hown (hfirm h)
  | start site b c =>
    obtain ⟨hcall, hf, hfits, htold⟩ := h
    have hr := (hcall.serves (by rintro rfl; cases hfit)).2
    refine ⟨fr.caller hobj hfirm hcall, fr.fetched hr hf, fun h => fr.fits hr hf (hfits (howed h)), ?_⟩
    cases c with
    | ciadpiFlag | ciadpiCreate => exact hdown _ htold
    | ciadpiUnset => exact ⟨hdown _ htold.1, fun h => htold.2 (hfirm h)⟩
    | tun2socksTest =>
      exact ⟨hdown _ htold.1, fun h => fr.proxyAsked hr hf (hparts _) (htold.2 (howed h))⟩
    | tun2socksFlag | tun2socksCreate => exact fun h => fr.proxyAsked hr hf (hparts _) (htold (howed h))
    | tun2socksUnset => exact fun h => htold (hfirm h)
    | _ => exact ⟨hdown _ htold.1, hdown _ htold.2⟩
  | undoProtect site b c =>
    obtain ⟨hcall, hf, hfits, hc, ht⟩ := h
    have hr := (hcall.serves (by rintro rfl; cases hfit)).2
    exact ⟨fr.caller hobj hfirm hcall, fr.fetched hr hf, fun h => fr.fits hr hf (hfits (howed h)), hdown _ hc,
      hdown _ ht⟩
  | undoCiadpi site c =>
    exact ⟨fr.caller hobj hfirm h.1, fun hf => h.2.1 (hfirm hf), hdown _ h.2.2⟩
  | stopLibs site | stopTun2socks site =>
    exact ⟨fr.caller hobj hfirm h.1, fun hs => fr.fetched (h.1.serves (by rintro rfl; cases hs)).2 (h.2 hs)⟩
  | stopCiadpi site =>
    exact ⟨fr.caller hobj hfirm h.1, fun hs => fr.fetched (h.1.serves (by rintro rfl; cases hs)).2 (h.2.1 hs),
      hdown _ h.2.2⟩
  | stopProtect site =>
    exact ⟨fr.caller hobj hfirm h.1, fun hs => fr.fetched (h.1.serves (by rintro rfl; cases hs)).2 (h.2.1 hs),
      hdown _ h.2.2.1, hdown _ h.2.2.2⟩
  | _ => trivial

/-! ### A statement of the busy thread -/

/-- What the busy thread leaves when it goes on to `pc`. -/
def Goes (env : Env) (s : State) (i : ℕ) (pc : Pc) : Prop :=
  (pc.busy = true → Told env s i pc) ∧ (pc.busy = false → Rest env s)

theorem rest_of_not_firm (hr : (service s).isRunning = true) (hn : ¬ Firm s) : Rest env s := by
  rw [Rest, if_pos hr]
  exact fun h => absurd h hn

theorem rest_of_down (hr : (service s).isRunning = false) (hc : Down s .ciadpi) (ht : Down s .tun2socks) :
    Rest env s := by
  rw [Rest, if_neg (by simp [hr])]
  exact ⟨hc, ht⟩

theorem Goes.told (h : Told env s i pc) (hb : pc.busy = true) : Goes env s i pc :=
  ⟨fun _ => h, fun hn => (by rw [hb] at hn; cases hn)⟩

theorem Goes.rest (h : Rest env s) (hb : pc.busy = false) : Goes env s i pc :=
  ⟨fun hn => (by rw [hb] at hn; cases hn), fun _ => h⟩

theorem PartsInv.down (hp : PartsInv s) (hne : p ≠ .protect) (hr : (s.parts p).running = false) :
    Down s p := by
  refine ⟨hr, fun t => ?_⟩
  by_contra ht
  rcases (hp p).recorded t ht with ⟨-, h⟩ | ⟨j, h⟩
  · rw [hr] at h
    cases h
  · rw [server_stage_of_ne hne] at h
    cases h

section

variable {site : Site} {b : StartArgs} (hf : Fresh s) (hlt : s.session < s.spawned)
  (hc : code env s i (s.threads i).pc o = some (a, pc'))

include hf hlt hc

theorem not_firm_after (hres : pc'.result ≠ some true) (hn : i ≠ s.session → ¬ Firm s) :
    ¬ Firm (after s i a pc') := fun h => by
  rcases (firm_after hf hlt hc h).2 with ⟨-, hr⟩ | ⟨hi, hfirm⟩
  · exact hres hr
  · exact hn hi hfirm

theorem firm_of_after (hres : pc'.result ≠ some true) (h : Firm (after s i a pc')) : Firm s := by
  rcases (firm_after hf hlt hc h).2 with ⟨-, hr⟩ | ⟨-, hfirm⟩
  · exact absurd hr hres
  · exact hfirm

omit hlt in
theorem object_after : ((after s i a pc').threads i).object = (s.threads i).object := by
  rw [after_self (Nat.ne_of_lt (hf.lt (pc_ne_ended hc)))]

theorem goes_failed (hpc : pc' = site.started false) (ha : a.inEngine = true) (hs : site ≠ .async)
    (hcall : Caller s i site) (hn : site ≠ .session → ¬ Firm s) : Goes env (after s i a pc') i pc' := by
  subst hpc
  refine .rest (rest_of_not_firm ?_ (not_firm_after hf hlt hc (fun h => ?_) fun hi => hn fun he => ?_))
    (site.busy_after false).1
  · rw [service_after_of_inEngine ha]
    exact (hcall.serves hs).2
  · cases (site.result_after.2.2 false h).2
  · subst he
    exact hi hcall.2.1

theorem goes_start {c : Start} (hp : PartsInv s) (hlibs : Firm s → env.nativeLibsLoaded = true)
    (hpc : (s.threads i).pc = .start site b c) (hs : site ≠ .async)
    (h : Told env s i (.start site b c))
    (hok : site ≠ .session → Firm s → (Pc.start site b c).fallible = true → o = .ok) :
    Goes env (after s i a pc') i pc' := by
  obtain ⟨hcall, hfetched, hfits, htold⟩ := h
  have hr := (hcall.serves hs).2
  have hc' : Start.code env s site b c o = some (a, pc') := by
    rw [hpc] at hc
    exact hc
  have ha := (code_inEngine (by rw [hpc]; rfl) hc).1
  have fr : Frame s (after s i a pc') := frame_of_inEngine ha
  have hknows : ∀ p, Knows (s.parts p) (c.stage p) := fun p => by
    have := (hp p).knows i
    simp only [hpc] at this
    exact this
  have hfail := fun h : pc' = site.started false => goes_failed hf hlt hc h ha hs hcall
  -- inside `ProxyEngine.start` the thread keeps what it knows about the service
  have hgo : ∀ d : Start, pc' = .start site b d → ((Firm (after s i a pc') → Firm s) →
      d.told env (after s i a pc') site) → Goes env (after s i a pc') i pc' := fun d hd htold' => by
    have hfirm := firm_of_after hf hlt hc (by rw [hd]; exact fun h => by cases h)
    have hobj := object_after hf hc
    subst hd
    exact .told ⟨fr.caller hobj hfirm hcall, fr.fetched hr hfetched,
      fun h => fr.fits hr hfetched (hfits (h.imp id hfirm)), htold' hfirm⟩ rfl
  have hnot : pc'.result ≠ some true → (site ≠ .session → ¬ Firm s) → ¬ Firm (after s i a pc') :=
    fun hres hn =>
    not_firm_after hf hlt hc hres fun hi => hn fun he => by
      subst he
      exact hi hcall.2.1
  revert hc'
  fun_cases Start.code env s site b c o <;> intro h <;> cases h
  · exact hgo _ rfl fun _ => htold
  · exact hfail rfl fun _ hfirm => ‹¬ _› (hlibs hfirm)
  -- `ProtectSocketServer.start`
  · exact hgo _ rfl fun _ => htold
  · exact hgo _ rfl fun _ => htold
  · exact hgo _ rfl fun _ => htold
  · have hfirm := firm_of_after hf hlt hc (fun h => by cases h)
    exact .told ⟨fr.caller (object_after hf hc) hfirm hcall, fr.fetched hr hfetched,
      fun h => fr.fits hr hfetched (hfits (h.imp id hfirm)), htold⟩ rfl
  · exact hgo _ rfl fun _ => htold
  · exact hgo _ rfl fun _ => htold
  -- `ciadpiStart`: the flag is clear, since the engine is down
  · have := htold.1.1
    simp_all
  · exact hgo _ rfl fun _ => htold.2
  · exact hfail rfl fun hs hfirm => by cases hok hs hfirm rfl
  · exact hgo _ rfl fun _ => htold
  · rename_i ok
    refine hgo _ rfl fun hfirm => ⟨htold, fun howed => ?_⟩
    obtain ⟨hex, hall⟩ := created_only (hknows .ciadpi).2
      (.proxy (ciadpiArgs b.config (if ok then env.protectPath else "") b.ipv6Enabled))
    have hfit := hfits (howed.imp id hfirm)
    refine ⟨hex, fun n d hd => ⟨if ok then env.protectPath else "", ite_eq_or_eq _ _ _,
      (hall n d hd).trans ?_⟩⟩
    rw [service_after_of_inEngine ha, hfit.config, hfit.ipv6]
  · exact hgo _ rfl fun _ => ⟨htold, hnot (fun h => by cases h) fun hs hfirm => by cases hok hs hfirm rfl⟩
  · exact hfail rfl fun _ => htold.2
  -- `tun2socksStart`
  · have := htold.1.1
    simp_all
  · exact hgo _ rfl fun hfirm howed => fr.proxyAsked hr hfetched rfl (htold.2 (howed.imp id hfirm))
  · exact hfail rfl fun hs hfirm => by cases hok hs hfirm rfl
  · exact hgo _ rfl fun hfirm howed => fr.proxyAsked hr hfetched rfl (htold (howed.imp id hfirm))
  · refine .rest ?_ (site.busy_after true).1
    rw [Rest, fr.running, if_pos hr]
    intro hfirm
    have howed : Owed s site := by
      rcases (firm_after hf hlt hc hfirm).2 with ⟨-, hres⟩ | ⟨-, hfirm⟩
      · exact .inl (site.result_after.2.2 true hres).1
      · exact .inr hfirm
    obtain ⟨hex, hall⟩ := created_only (hknows .tun2socks).2 (.bridge b.tunFd)
    refine ⟨fr.tunHeld (hcall.tunHeld hs howed), fr.fetched hr hfetched,
      fr.proxyAsked hr hfetched rfl (htold howed), hex, fun n d hd => ⟨_, hall n d hd, ?_⟩⟩
    rw [fr.tuns, fr.session]
    exact (hfits howed).tun
  · exact hgo _ rfl fun _ => hnot (fun h => by cases h) fun hs hfirm => by cases hok hs hfirm rfl
  · have hfirm := firm_of_after hf hlt hc (fun h => by cases h)
    exact .told ⟨fr.caller (object_after hf hc) hfirm hcall, fun h =>
      htold (hfirm h), rfl, hknows .tun2socks⟩ rfl

theorem goes_stopped (hpc : pc' = site.stopped) (ha : a.inEngine = true) (hs : site ≠ .session)
    (hcall : Caller s i site) (hfetched : site.restarts = true → Fetched s)
    (hdown : Down (after s i a pc') .ciadpi ∧ Down (after s i a pc') .tun2socks) :
    Goes env (after s i a pc') i pc' := by
  subst hpc
  have fr : Frame s (after s i a site.stopped) := frame_of_inEngine ha
  have hcall' := fr.caller (object_after hf hc) (firm_of_after hf hlt hc
    (by rw [site.result_after.2.1]; simp)) hcall
  cases site with
  | session => exact absurd rfl hs
  | async => exact .rest (rest_of_down (fr.running.trans hcall) hdown.1 hdown.2) rfl
  | asn | monitor => exact .told ⟨hcall', fr.fetched (hcall.1.2) (hfetched rfl), hdown⟩ rfl

omit hf hlt hc in
/-- A statement of `ciadpiStop` or `tun2socksStop` stays in it, or returns and leaves the part down. -/
theorem stop_cases {c : Stop} {at_ : Stop → Pc} {ret : Pc} (hp : PartsInv s) (hne : p ≠ .protect)
    (hst : (s.threads i).pc.stage p = c.stage) (hc : c.code s p at_ ret o = some (a, pc')) :
    a.inEngine = true ∧ (∀ r, p ≠ r → (after s i a pc').parts r = s.parts r) ∧
    ((∃ d, pc' = at_ d) ∨ pc' = ret ∧ Down (after s i a pc') p) := by
  revert hc
  fun_cases Stop.code s p at_ ret c o <;> intro h <;> cases h
  · exact ⟨rfl, fun _ _ => rfl, .inl ⟨_, rfl⟩⟩
  · exact ⟨rfl, fun _ _ => rfl, .inr ⟨rfl, (hp.down hne (eq_false_of_ne_true ‹_›)).of_eq rfl⟩⟩
  · exact ⟨rfl, fun _ _ => rfl, .inl ⟨_, rfl⟩⟩
  · exact ⟨rfl, fun _ _ => rfl, .inl ⟨_, rfl⟩⟩
  · exact ⟨rfl, fun _ _ => rfl, .inl ⟨_, rfl⟩⟩
  · -- the joined thread was the only one
    have hn := (hp p).knows i
    simp only [hst, Stop.stage] at hn
    refine ⟨rfl, fun r hr => by rw [after_parts, Act.onPart, if_neg hr], .inr ⟨rfl, ?_⟩⟩
    rw [Down, after_parts, Act.onPart, if_pos rfl]
    exact ⟨rfl, hn⟩

theorem goes_stopTun2socks {c : Stop} (hp : PartsInv s) (hpc : (s.threads i).pc = .stopTun2socks site c)
    (h : Told env s i (.stopTun2socks site c)) : Goes env (after s i a pc') i pc' := by
  obtain ⟨hcall, hfetched⟩ := h
  have hc' := hc
  rw [hpc] at hc'
  obtain ⟨ha, -, hcase⟩ := stop_cases (p := .tun2socks) hp (by simp) (by rw [hpc]; rfl) hc'
  have fr : Frame s (after s i a pc') := frame_of_inEngine ha
  have hkeep : pc'.result = none → Caller (after s i a pc') i site ∧
      (site.restarts = true → Fetched (after s i a pc')) := fun hres =>
    ⟨fr.caller (object_after hf hc) (firm_of_after hf hlt hc (by rw [hres]; simp)) hcall,
      fun hr => fr.fetched (hcall.serves (by rintro rfl; cases hr)).2 (hfetched hr)⟩
  rcases hcase with ⟨d, rfl⟩ | ⟨rfl, hdown⟩
  · exact .told (hkeep rfl) rfl
  · exact .told ⟨(hkeep rfl).1, (hkeep rfl).2, hdown⟩ rfl

theorem goes_stopCiadpi {c : Stop} (hp : PartsInv s) (hpc : (s.threads i).pc = .stopCiadpi site c)
    (h : Told env s i (.stopCiadpi site c)) : Goes env (after s i a pc') i pc' := by
  obtain ⟨hcall, hfetched, ht⟩ := h
  have hc' := hc
  rw [hpc] at hc'
  obtain ⟨ha, hother, hcase⟩ := stop_cases (p := .ciadpi) hp (by simp) (by rw [hpc]; rfl) hc'
  have fr : Frame s (after s i a pc') := frame_of_inEngine ha
  have hkeep : pc'.result = none → Caller (after s i a pc') i site ∧
      (site.restarts = true → Fetched (after s i a pc')) := fun hres =>
    ⟨fr.caller (object_after hf hc) (firm_of_after hf hlt hc (by rw [hres]; simp)) hcall,
      fun hr => fr.fetched (hcall.serves (by rintro rfl; cases hr)).2 (hfetched hr)⟩
  have ht' := ht.of_eq (hother .tun2socks (by simp))
  rcases hcase with ⟨d, rfl⟩ | ⟨rfl, hdown⟩
  · exact .told ⟨(hkeep rfl).1, (hkeep rfl).2, ht'⟩ rfl
  · exact .told ⟨(hkeep rfl).1, (hkeep rfl).2, hdown, ht'⟩ rfl

theorem goes_undoCiadpi {c : Stop} (hp : PartsInv s) (hpc : (s.threads i).pc = .undoCiadpi site c)
    (hs : site ≠ .async) (h : Told env s i (.undoCiadpi site c)) : Goes env (after s i a pc') i pc' := by
  obtain ⟨hcall, hn, ht⟩ := h
  have hc' := hc
  rw [hpc] at hc'
  obtain ⟨ha, hother, hcase⟩ := stop_cases (p := .ciadpi) hp (by simp) (by rw [hpc]; rfl) hc'
  rcases hcase with ⟨d, rfl⟩ | ⟨hret, -⟩
  · have hfirm := firm_of_after hf hlt hc (fun h => by cases h)
    exact .told ⟨(frame_of_inEngine ha).caller (object_after hf hc) hfirm hcall, fun h => hn (hfirm h),
      ht.of_eq (hother .tun2socks (by simp))⟩ rfl
  · exact goes_failed hf hlt hc hret ha hs hcall fun _ => hn

omit hf hlt hc in
theorem stopServer_cases {c : StopServer} {at_ : StopServer → Pc} {ret : Pc}
    (hc : c.code at_ ret o = some (a, pc')) :
    a.inEngine = true ∧ (∀ r, r ≠ .protect → (after s i a pc').parts r = s.parts r) ∧
    ((∃ d, pc' = at_ d) ∨ pc' = ret) := by
  revert hc
  fun_cases StopServer.code at_ ret c o <;> intro h <;> cases h
  · exact ⟨rfl, fun r hr => by rw [after_parts, Act.onPart, if_neg (Ne.symm hr)], .inl ⟨_, rfl⟩⟩
  · exact ⟨rfl, fun r hr => by rw [after_parts, Act.onPart, if_neg hr], .inl ⟨_, rfl⟩⟩
  · exact ⟨rfl, fun r hr => by rw [after_parts, Act.onPart, if_neg hr], .inr rfl⟩

theorem goes_stopProtect {c : StopServer} (hpc : (s.threads i).pc = .stopProtect site c)
    (hs : site ≠ .session) (h : Told env s i (.stopProtect site c)) : Goes env (after s i a pc') i pc' := by
  obtain ⟨hcall, hfetched, hdown⟩ := h
  have hc' := hc
  rw [hpc] at hc'
  obtain ⟨ha, hother, hcase⟩ := stopServer_cases (s := s) (i := i) hc'
  have hdown' : Down (after s i a pc') .ciadpi ∧ Down (after s i a pc') .tun2socks :=
    ⟨hdown.1.of_eq (hother .ciadpi (by simp)), hdown.2.of_eq (hother .tun2socks (by simp))⟩
  rcases hcase with ⟨d, rfl⟩ | hret
  · have fr : Frame s (after s i a (.stopProtect site d)) := frame_of_inEngine ha
    exact .told ⟨fr.caller (object_after hf hc) (firm_of_after hf hlt hc (fun h => by cases h)) hcall,
      fun hr => fr.fetched (hcall.serves (by rintro rfl; cases hr)).2 (hfetched hr), hdown'⟩ rfl
  · exact goes_stopped hf hlt hc hret ha hs hcall hfetched hdown'

theorem goes_undoProtect {c : StopServer} (hpc : (s.threads i).pc = .undoProtect site b c)
    (hs : site ≠ .async) (h : Told env s i (.undoProtect site b c)) : Goes env (after s i a pc') i pc' := by
  obtain ⟨hcall, hfetched, hfits, hdown⟩ := h
  have hc' := hc
  rw [hpc] at hc'
  have hr := (hcall.serves hs).2
  obtain ⟨ha, hother, hcase⟩ := stopServer_cases (s := s) (i := i) hc'
  have fr : Frame s (after s i a pc') := frame_of_inEngine ha
  have hfirm : Firm (after s i a pc') → Firm s := firm_of_after hf hlt hc (by
    rcases hcase with ⟨d, rfl⟩ | rfl <;> exact fun h => by cases h)
  have hcall' := fr.caller (object_after hf hc) hfirm hcall
  have hfits' : Owed (after s i a pc') site → Fits (after s i a pc') b := fun h =>
    fr.fits hr hfetched (hfits (h.imp id hfirm))
  have hdown' : Down (after s i a pc') .ciadpi ∧ Down (after s i a pc') .tun2socks :=
    ⟨hdown.1.of_eq (hother .ciadpi (by simp)), hdown.2.of_eq (hother .tun2socks (by simp))⟩
  rcases hcase with ⟨d, rfl⟩ | rfl
  · exact .told ⟨hcall', fr.fetched hr hfetched, hfits', hdown'⟩ rfl
  · exact .told ⟨hcall', fr.fetched hr hfetched, hfits', hdown'⟩ rfl

theorem goes_stopLibs (hbare : env.nativeLibsLoaded = false → Down s .ciadpi ∧ Down s .tun2socks)
    (hpc : (s.threads i).pc = .stopLibs site) (hs : site ≠ .session) (h : Told env s i (.stopLibs site)) :
    Goes env (after s i a pc') i pc' := by
  obtain ⟨hcall, hfetched⟩ := h
  have hc' : stopLibs env site o = some (a, pc') := by
    rw [hpc] at hc
    exact hc
  revert hc'
  fun_cases stopLibs env site o <;> intro h <;> cases h
  · have fr : Frame s (after s i .skip (.stopTun2socks site .test)) := frame_of_inEngine rfl
    exact .told ⟨fr.caller (object_after hf hc) (firm_of_after hf hlt hc (fun h => by cases h)) hcall,
      fun hr => fr.fetched (hcall.serves (by rintro rfl; cases hr)).2 (hfetched hr)⟩ rfl
  · exact goes_stopped hf hlt hc rfl rfl hs hcall hfetched (hbare (eq_false_of_ne_true ‹_›))

theorem goes_restart {c : Restart} (hpc : (s.threads i).pc = .restart site c) (hs : site.restarts = true)
    (h : Told env s i (.restart site c))
    (hok : Firm s → ∀ t, c = .pause t → s.interrupted i = false) : Goes env (after s i a pc') i pc' := by
  obtain ⟨hcall, htold⟩ := h
  have hne : site ≠ .async := by rintro rfl; cases hs
  have hne' : site ≠ .session := by rintro rfl; cases hs
  obtain ⟨hobj, hr⟩ := hcall.serves hne
  have hview := (hcall.serves hne).view
  have hsites : ∀ t : State, Caller t i site ↔ Serves t i ∧ (Firm t → TunHeld t) := fun t => by
    cases site <;> first | exact Iff.rfl | cases hs
  have hc' : Restart.code s i site c o = some (a, pc') := by
    rw [hpc] at hc
    exact hc
  have hobj' := object_after hf hc
  -- the statements that leave the service as it is
  have hlight : a.isLight = true → pc'.result = none →
      Caller (after s i a pc') i site ∧ (Fetched s → Fetched (after s i a pc')) ∧
      (∀ p, Down s p → Down (after s i a pc') p) ∧ (Firm (after s i a pc') → Firm s) := fun ha hres => by
    obtain ⟨fr, hparts⟩ : Frame s (after s i a pc') ∧ ∀ p, (after s i a pc').parts p = s.parts p :=
      isLight_frame ha
    have hfirm := firm_of_after hf hlt hc (by rw [hres]; simp)
    exact ⟨fr.caller hobj' hfirm hcall, fr.fetched hr, fun p hd => hd.of_eq (hparts p), hfirm⟩
  -- the restart has come to nothing
  have hover : a.isLight = true → pc' = site.resume → ¬ Firm s → Goes env (after s i a pc') i pc' :=
    fun ha he hn => by
    subst he
    have fr : Frame s (after s i a site.resume) := (isLight_frame ha).1
    refine .rest (rest_of_not_firm (fr.running.trans hr) fun h => hn ?_) (site.busy_after false).2
    exact firm_of_after hf hlt hc (by rw [site.result_after.1]; simp) h
  revert hc'
  fun_cases Restart.code s i site c o <;> intro h <;> cases h
  · rename_i id
    have hsv : service (after s i (.setPreset id) (.restart site (.loadConfig id))) = _ := service_after hobj
    refine .told ⟨(hsites _).2 ⟨⟨hobj'.trans hobj, by rw [hsv]; exact hr⟩, fun h => ?_⟩, ?_⟩ rfl
    · obtain ⟨t, ht, hheld⟩ := ((hsites s).1 hcall).2 (firm_of_after hf hlt hc (fun h => by cases h) h)
      exact ⟨t, by rw [hsv]; exact ht, hheld⟩
    · rw [Restart.told, hsv]
      rfl
  · rename_i id
    have hsv : service (after s i (.setConfig (loadPreset id)) (.restart site .stop)) = _ :=
      service_after hobj
    refine .told ⟨(hsites _).2 ⟨⟨hobj'.trans hobj, by rw [hsv]; exact hr⟩, fun h => ?_⟩, ?_⟩ rfl
    · obtain ⟨t, ht, hheld⟩ := ((hsites s).1 hcall).2 (firm_of_after hf hlt hc (fun h => by cases h) h)
      exact ⟨t, by rw [hsv]; exact ht, hheld⟩
    · rw [Restart.told, Fetched, hsv]
      exact congrArg loadPreset htold.symm
  · obtain ⟨hcall', hfetched, -, -⟩ := hlight rfl rfl
    exact .told ⟨hcall', fun _ => hfetched htold⟩ rfl
  · rename_i t ht
    obtain ⟨hcall', hfetched, hdown, hfirm⟩ := hlight rfl rfl
    refine .told ⟨hcall', hfetched htold.1, hdown _ htold.2.1, hdown _ htold.2.2, fun h => ?_⟩ rfl
    obtain ⟨u, hu, hheld⟩ := ((hsites s).1 hcall).2 (hfirm h)
    have := (mem_openTun ht).1
    rw [hview, hu, Option.some.injEq] at this
    exact this ▸ hheld.2
  · refine hover rfl rfl fun hfirm => ?_
    obtain ⟨u, hu, hheld⟩ := ((hsites s).1 hcall).2 hfirm
    have : openTun s i = some u := by rw [openTun, hview, hu, Option.filter_some, if_pos hheld.1]
    simp_all
  · refine hover rfl rfl fun hfirm => ?_
    have := hok hfirm _ rfl
    simp_all
  · obtain ⟨hcall', hfetched, hdown, hfirm⟩ := hlight rfl rfl
    exact .told ⟨hcall', hfetched htold.1, hdown _ htold.2.1, hdown _ htold.2.2.1,
      fun h => htold.2.2.2 (hfirm h)⟩ rfl
  · obtain ⟨hcall', hfetched, hdown, hfirm⟩ := hlight rfl rfl
    obtain ⟨hft, hcd, htd, hown⟩ := htold
    refine .told ⟨hcall', hfetched hft, fun howed => ⟨?_, ?_, ?_⟩, hdown _ hcd, hdown _ htd⟩ rfl
    · rw [service_after_of_inEngine (a := .skip) rfl, hview]
    · rw [service_after_of_inEngine (a := .skip) rfl, hview]
    · exact hown (hfirm (howed.resolve_left hne'))

/-- A statement of `runVpn` before its `ProxyEngine.start`. -/
theorem goes_runVpn {c : RunVpn} (hpc : (s.threads i).pc = .runVpn c) (hb : (Pc.runVpn c).busy = true)
    (h : Told env s i (.runVpn c)) : Goes env (after s i a pc') i pc' := by
  obtain ⟨hs, hi, hcd, htd, htold⟩ := h
  have hc' : RunVpn.code env s i c o = some (a, pc') := by
    rw [hpc] at hc
    exact hc
  have hobj'' := object_after hf hc
  have hobj' := hobj''.trans hs.1
  have hsv : service (after s i a pc') = a.onFields (service s) := service_after hs.1
  have hnot : pc'.result = none → ¬ Firm (after s i a pc') := fun hres =>
    not_firm_after hf hlt hc (by rw [hres]; simp) fun hne => absurd hi hne
  revert hc'
  fun_cases RunVpn.code env s i c o <;> intro h <;> cases h <;> try cases hb
  · exact .told ⟨⟨hobj', by rw [hsv]; exact hs.2⟩, hi, hcd, htd, trivial⟩ rfl
  · refine .told ⟨⟨hobj', by rw [hsv]; exact hs.2⟩, hi, hcd, htd, fun u hu => ?_⟩ rfl
    cases hu
    rw [Held, after_tuns, Act.onTuns, Function.update_self]
    exact ⟨rfl, hi⟩
  · exact .told ⟨⟨hobj', by rw [hsv]; exact hs.2⟩, hi, hcd, htd, fun u hu => by cases hu⟩ rfl
  · exact .rest (rest_of_not_firm (by rw [hsv]; exact hs.2) (hnot rfl)) rfl
  · refine .told ⟨⟨hobj', by rw [hsv]; exact hs.2⟩, hi, hcd, htd, fun u hu => htold u ?_⟩ rfl
    rw [hsv] at hu
    exact hu
  · rename_i hsome
    rw [hs.view] at hsome
    obtain ⟨t, ht⟩ := Option.isSome_iff_exists.mp hsome
    exact .told ⟨⟨hobj', by rw [hsv]; exact hs.2⟩, hi, hcd, htd, t, by rw [hsv]; exact ht, htold t ht⟩ rfl
  · exact .told ⟨⟨hobj', by rw [hsv]; exact hs.2⟩, hi, hcd, htd, trivial⟩ rfl
  · exact .rest (rest_of_down (by rw [hsv]; rfl) hcd htd) rfl
  · obtain ⟨t, ht, hheld⟩ := htold
    refine .told ⟨⟨hobj', by rw [hsv]; exact hs.2⟩, hi, hcd, htd, ⟨t, by rw [hsv]; exact ht, hheld⟩, ?_⟩ rfl
    rw [Fetched, hsv, hs.view]
    rfl
  · rename_i t ht
    have fr : Frame s (after s i .skip (.runVpn (.call t))) := frame_of_inEngine rfl
    obtain ⟨u, hu, hheld⟩ := htold.1
    have he := (mem_openTun ht).1
    rw [hs.view, hu, Option.some.injEq] at he
    exact .told ⟨fr.serves hobj'' hs, hi, hcd, htd, fr.tunHeld htold.1, fr.fetched hs.2 htold.2,
      he ▸ fr.held hheld⟩ rfl
  · exact .rest (rest_of_not_firm (by rw [hsv]; exact hs.2) (hnot rfl)) rfl
  · rename_i t
    have fr : Frame s (after s i .skip (.start .session
        ⟨t, (s.view i).currentConfig, (s.view i).hasRealIpv6⟩ .libs)) :=
      frame_of_inEngine rfl
    refine .told ⟨⟨fr.serves hobj'' hs, hi, fr.tunHeld htold.1⟩, fr.fetched hs.2 htold.2.1, fun _ =>
      ⟨?_, ?_, ?_⟩, hcd, htd⟩ rfl
    · rw [hsv, hs.view]
      rfl
    · rw [hsv, hs.view]
      rfl
    · exact htold.2.2.2

omit hf hlt in
/-- `stopVpn`, past its test: the service is not running any more, and `ProxyEngineStop` is started. -/
theorem goes_stopVpn {c : StopVpn} (hpc : (s.threads i).pc = .stopVpn c) (hb : (Pc.stopVpn c).busy = true)
    (h : Told env s i (.stopVpn c)) : (a.spawns = none → Goes env (after s i a pc') i pc') ∧
    ∀ q, a.spawns = some q → pc'.busy = false ∧ Told env (after s i a pc') s.spawned q := by
  have hc' : StopVpn.code s i c o = some (a, pc') := by
    rw [hpc] at hc
    exact hc
  have hstays : c ≠ .clearRunning → (∀ b, a ≠ .setRunning b) →
      (service (after s i a pc')).isRunning = false :=
    fun hne ha => by
      rw [Told, if_neg hne] at h
      rcases service_after_cases s i a pc' with he | ⟨-, he⟩
      · rw [he, h]
      · rw [he]
        rcases onFields_isRunning a (service s) with hr | hr
        · rw [hr, h]
        · exact absurd hr (ha _)
  revert hc'
  fun_cases StopVpn.code s i c o <;> intro h' <;> cases h' <;> try cases hb
  · rw [Told, if_pos rfl] at h
    refine ⟨fun _ => .told ?_ rfl, fun q hq => by cases hq⟩
    rw [Told, if_neg (by simp), service_after h.1.1]
    rfl
  case case10 =>
    refine ⟨fun hn => (by cases hn), fun q hq => ?_⟩
    cases hq
    exact ⟨rfl, hstays (by simp) (by simp), fun hr => by cases hr⟩
  all_goals
    refine ⟨fun _ => .told ?_ rfl, fun q hq => by cases hq⟩
    rw [Told, if_neg (by simp)]
    exact hstays (by simp) (by simp)

omit hlt in
theorem goes_onStart {c : OnStart} (hpc : (s.threads i).pc = .onStart c) (hb : (Pc.onStart c).busy = true)
    (h : Told env s i (.onStart c)) : ∃ q, a.spawns = some q ∧ pc'.busy = false ∧
      Told env (after s i a pc') s.spawned q := by
  obtain ⟨hs, hcd, htd⟩ := h
  have hc' := hc
  rw [hpc] at hc'
  have hcs : c = .spawn := by simpa [Pc.busy] using hb
  subst hcs
  cases o <;> cases hc'
  have hi : s.spawned ≠ i := (Nat.ne_of_lt (hf.lt (pc_ne_ended hc))).symm
  refine ⟨_, rfl, rfl, ⟨?_, ?_⟩, ?_, hcd, htd, trivial⟩
  · rw [after_spawned hi rfl]
    exact hs.1
  · rw [service_after hs.1]
    exact hs.2
  · simp [after, State.setPc, act, Act.spawns, Pc.isSession]

/-- **A statement of the busy thread.** It goes on with what it needs to know, hands over to the thread
it starts, or leaves the engine as it should be. -/
theorem goes_run (hp : PartsInv s) (hlibs : Firm s → env.nativeLibsLoaded = true)
    (hbare : env.nativeLibsLoaded = false → Down s .ciadpi ∧ Down s .tun2socks)
    (hfit : (s.threads i).pc.fits = true) (hb : (s.threads i).pc.busy = true)
    (h : Told env s i (s.threads i).pc) (hg : InTurn s i o pc') :
    (a.spawns = none → Goes env (after s i a pc') i pc') ∧
    ∀ q, a.spawns = some q → pc'.busy = false ∧ Told env (after s i a pc') s.spawned q := by
  have hone : a.spawns = none → Goes env (after s i a pc') i pc' →
      (a.spawns = none → Goes env (after s i a pc') i pc') ∧
      ∀ q, a.spawns = some q → pc'.busy = false ∧ Told env (after s i a pc') s.spawned q := fun hn hgo =>
    ⟨fun _ => hgo, fun q hq => by rw [hn] at hq; cases hq⟩
  have hin : (s.threads i).pc.inEngine = true → a.spawns = none := fun h =>
    (Act.inEngine_frame (s := s) (i := i) (code_inEngine h hc).1).2.2
  cases hpc : (s.threads i).pc with
  | ended | asn | monitor =>
    rw [hpc] at hb
    cases hb
  | onStart c =>
    rw [hpc] at hb h
    obtain ⟨q, hq, hnb, htold⟩ := goes_onStart hf hc hpc hb h
    refine ⟨fun hn => (by rw [hq] at hn; cases hn), fun q' hq' => ?_⟩
    rw [hq, Option.some.injEq] at hq'
    exact hq' ▸ ⟨hnb, htold⟩
  | stopVpn c =>
    rw [hpc] at hb h
    exact goes_stopVpn hc hpc hb h
  | runVpn c =>
    rw [hpc] at hb h
    refine hone (Option.eq_none_iff_forall_ne_some.2 fun q hq => ?_) (goes_runVpn hf hlt hc hpc hb h)
    rcases code_spawns hc hq with ⟨he, -⟩ | ⟨he, -⟩ | ⟨b, he, -⟩ | ⟨b, he, -⟩ <;> rw [hpc] at he <;>
      cases he <;>
      cases hb
  | restart site c =>
    rw [hpc] at h hfit
    refine hone (Option.eq_none_iff_forall_ne_some.2 fun q hq => ?_)
      (goes_restart hf hlt hc hpc hfit h fun hfirm t ht => ?_)
    · rcases code_spawns hc hq with ⟨he, -⟩ | ⟨he, -⟩ | ⟨b, he, -⟩ | ⟨b, he, -⟩ <;>
        rw [hpc] at he <;> cases he
    · exact (hg.firm hfirm (by rw [hpc]; exact hfit)).2 site t (by rw [hpc, ht])
  | start site b c =>
    rw [hpc] at h hfit
    refine hone (hin (by rw [hpc]; rfl)) (goes_start hf hlt hc hp hlibs hpc (by simpa [Pc.fits] using hfit) h
      fun hs hfirm hfall => ?_)
    refine (hg.firm hfirm ?_).1 (by rw [hpc]; exact hfall)
    rw [hpc]
    cases site <;> first | rfl | exact absurd rfl hs | cases hfit
  | stopLibs site =>
    rw [hpc] at h hfit
    exact hone (hin (by rw [hpc]; rfl)) (goes_stopLibs hf hlt hc hbare hpc (by simpa [Pc.fits] using hfit) h)
  | stopTun2socks site c =>
    rw [hpc] at h
    exact hone (hin (by rw [hpc]; rfl)) (goes_stopTun2socks hf hlt hc hp hpc h)
  | stopCiadpi site c =>
    rw [hpc] at h
    exact hone (hin (by rw [hpc]; rfl)) (goes_stopCiadpi hf hlt hc hp hpc h)
  | stopProtect site c =>
    rw [hpc] at h hfit
    exact hone (hin (by rw [hpc]; rfl)) (goes_stopProtect hf hlt hc hpc (by simpa [Pc.fits] using hfit) h)
  | undoCiadpi site c =>
    rw [hpc] at h hfit
    exact hone (hin (by rw [hpc]; rfl)) (goes_undoCiadpi hf hlt hc hp hpc (by simpa [Pc.fits] using hfit) h)
  | undoProtect site b c =>
    rw [hpc] at h hfit
    exact hone (hin (by rw [hpc]; rfl)) (goes_undoProtect hf hlt hc hpc (by simpa [Pc.fits] using hfit) h)

end

end BypassVpn.Service
