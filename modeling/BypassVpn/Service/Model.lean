import BypassVpn.Config
import BypassVpn.Lib.Transition
import BypassVpn.Service.Monitor
import Mathlib.Logic.Function.Basic

/-!
# The service, its threads and its engine

`BypassVpnService` with the threads it starts: the main thread that runs `onStartCommand` and
`onDestroy`, one thread for `runVpn` of every session, `AsnAutoDetect`, `PresetMonitor` and
`ProxyEngineStop`. They share the fields of the service object and the singleton `ProxyEngine`, and
interleave statement by statement; a program point is what a thread does next. A service object that
was destroyed is followed by a new one with fresh fields, while its threads live on.

* `Part`, `Job`, `PartState`: what `ProxyEngine.start` brings up; `Fields`: a service object.
* `Pc` and its parts: the program points; `Act`: what a statement does to the shared state.
* `act`, `code`: the statement at a program point; `step`: one step of the system.
-/

namespace BypassVpn.Service

open Transition

/-! ### The engine -/

/-- What `ProxyEngine.start` brings up. -/
inductive Part where
  | protect
  | ciadpi
  | tun2socks
  deriving DecidableEq, Repr

/-- What a running part was started with. -/
inductive Job where
  /-- The socket of `ProtectSocketServer`. -/
  | server
  | proxy (args : CiadpiArgs)
  /-- The interface `tun2socks` reads. -/
  | bridge (tun : ℕ)
  deriving DecidableEq, Repr

/-- One of the three parts of the proxy. -/
structure PartState where
  /-- `g_running`, `ProtectSocketServer.running`. -/
  running : Bool := false
  /-- `g_thread`, `serverSocket`. -/
  handle : Option ℕ := none
  /-- The engine threads that have not left their loops, the server sockets that are open. -/
  job : ℕ → Option Job := fun _ => none
  /-- How many there were so far. -/
  created : ℕ := 0

/-- What the build and the device fix. -/
structure Env where
  nativeLibsLoaded : Bool
  isNativeTun2socksBuilt : Bool
  /-- `File(filesDir, "protect_path").absolutePath`. -/
  protectPath : String

/-! ### The service object -/

/-- The fields of a `BypassVpnService`; threads and interfaces are known by their numbers. -/
structure Fields where
  vpnInterface : Option ℕ := none
  vpnThread : Option ℕ := none
  monitorThread : Option ℕ := none
  proxyEngineStopThread : Option ℕ := none
  isRunning : Bool := false
  activePresetId : String := "universal"
  currentConfig : BypassConfig := loadPreset "universal"
  hasRealIpv6 : Bool := false
  consecutiveFails : ℕ := 0

/-- A TUN interface, as its `ParcelFileDescriptor`. -/
structure Tun where
  isOpen : Bool := false
  /-- The `runVpn` thread that established it. -/
  session : ℕ := 0

/-! ### Program points -/

/-- `onStartCommand` with `ACTION_START`, and `startVpn`. -/
inductive OnStart where
  | setPreset (id : String)
  | loadConfig
  | test
  /-- `proxyEngineStopThread?.let { … t.join(3000) … }`. -/
  | await
  | forget
  | setRunning
  | spawn
  | keep (t : ℕ)
  deriving DecidableEq, Repr

/-- The statements of `stopVpn`. -/
inductive StopVpn where
  | test
  | clearRunning
  | interruptMonitor
  | dropMonitor
  | close
  | dropTun
  | interruptVpn
  | dropVpn
  | spawn
  | keep (t : ℕ)
  deriving DecidableEq, Repr

/-- The statements of `runVpn`. -/
inductive RunVpn where
  /-- `hasRealIpv6 = Ipv6Connectivity.hasRealIpv6()`. -/
  | probe
  | establish
  | store (tun : Option ℕ)
  | test
  /-- `isRunning = false` after a failed `establish()`. -/
  | giveUp
  | loadConfig
  | readFd
  | call (tun : ℕ)
  /-- `startPresetMonitor`. -/
  | interruptMonitor (nativeOk : Bool)
  | spawnMonitor (nativeOk : Bool)
  | keepMonitor (nativeOk : Bool) (t : ℕ)
  | spawnAsn (nativeOk : Bool)
  | enter (nativeOk : Bool)
  /-- `runNativeIdleLoop`. -/
  | idle
  | sleep
  /-- `runKotlinPacketLoop` on its interface. -/
  | packets (nativeOk : Bool) (tun : ℕ)
  | read (nativeOk : Bool) (tun : ℕ)
  deriving DecidableEq, Repr

/-- The statements of `AsnAutoDetect`. -/
inductive AsnAutoDetect where
  | sleep
  | test
  | detect
  | decide (suggested : Option String)
  deriving DecidableEq, Repr

/-- The variables of a preset monitor. -/
structure Watch where
  nativeBuilt : Bool
  idx : ℕ := 0
  deriving DecidableEq, Repr

/-- The statements of `PresetMonitor`. -/
inductive PresetMonitor where
  | test
  | sleep
  | retest
  | tick
  /-- `switchToNextPreset`: the choice of `nextId`. -/
  | pick
  | resetFails
  deriving DecidableEq, Repr

/-- Who calls `ProxyEngine.start` or `ProxyEngine.stop`. -/
inductive Site where
  | session
  | asn
  | monitor (w : Watch)
  /-- The `ProxyEngineStop` thread. -/
  | async
  deriving DecidableEq, Repr

/-- The restart that `AsnAutoDetect` and `switchToNextPreset` share. -/
inductive Restart where
  | setPreset (id : String)
  | loadConfig (id : String)
  | stop
  | readFd
  | pause (tun : ℕ)
  | call (tun : ℕ)
  deriving DecidableEq, Repr

/-- The arguments of `ProxyEngine.start`. -/
structure StartArgs where
  tunFd : ℕ
  config : BypassConfig
  ipv6Enabled : Bool
  deriving DecidableEq, Repr

/-- `ProxyEngine.start`. -/
inductive Start where
  | libs
  /-- `ProtectSocketServer.start`. -/
  | protectTest
  | protectBind
  | protectStore (t : ℕ)
  | protectFlag
  /-- `ciadpiStart`, `tun2socksStart`: the test of `g_running`. -/
  | ciadpiTest (protectServerOk : Bool)
  | ciadpiFlag (protectServerOk : Bool)
  | ciadpiCreate (protectServerOk : Bool)
  | ciadpiUnset
  | tun2socksTest
  | tun2socksFlag
  | tun2socksCreate
  | tun2socksUnset
  deriving DecidableEq, Repr

/-- `ciadpiStop`, `tun2socksStop`. -/
inductive Stop where
  | test
  | join
  | joining (t : ℕ)
  | clear
  deriving DecidableEq, Repr

/-- `ProtectSocketServer.stop`. -/
inductive StopServer where
  | clear
  | close
  | drop
  deriving DecidableEq, Repr

/-- What a thread does next. -/
inductive Pc where
  /-- The thread has ended, does not exist yet, or is the main thread without a command. -/
  | ended
  | onStart (c : OnStart)
  | stopVpn (c : StopVpn)
  | runVpn (c : RunVpn)
  | asn (c : AsnAutoDetect)
  | monitor (w : Watch) (c : PresetMonitor)
  | restart (site : Site) (c : Restart)
  | start (site : Site) (a : StartArgs) (c : Start)
  /-- `ProxyEngine.stop`, from its test of `nativeLibsLoaded` on. -/
  | stopLibs (site : Site)
  | stopTun2socks (site : Site) (c : Stop)
  | stopCiadpi (site : Site) (c : Stop)
  | stopProtect (site : Site) (c : StopServer)
  /-- The `ciadpiStop` of a `ProxyEngine.start` that could not start tun2socks. -/
  | undoCiadpi (site : Site) (c : Stop)
  /-- The `stop` of a `ProtectSocketServer.start` that failed. -/
  | undoProtect (site : Site) (a : StartArgs) (c : StopServer)
  deriving DecidableEq, Repr

/-- A thread of the service. -/
structure Thread where
  pc : Pc := .ended
  /-- The service object it belongs to. -/
  object : ℕ := 0

/-! ### The system -/

/-- What the system delivers to the service. -/
inductive Command where
  /-- `ACTION_START` with the preset of `EXTRA_PRESET_ID`, if present. -/
  | start (presetId : Option String)
  | stop
  | destroy
  deriving DecidableEq, Repr

/-- The service objects, their threads and the three parts. -/
structure State where
  fields : ℕ → Fields := fun _ => {}
  /-- The service object commands are delivered to. -/
  object : ℕ := 0
  last : Option Command := none
  parts : Part → PartState := fun _ => {}
  tuns : ℕ → Tun := fun _ => {}
  /-- How many interfaces were established so far. -/
  established : ℕ := 0
  /-- The main thread is number 0. -/
  threads : ℕ → Thread := fun _ => {}
  interrupted : ℕ → Bool := fun _ => false
  /-- The number of the next thread. -/
  spawned : ℕ := 1
  /-- The `runVpn` thread started last. -/
  session : ℕ := 0

/-- How the calls of a statement to the outside turn out. -/
inductive Outcome where
  | ok
  | fail
  | throws
  | network (up : Bool)
  | suggests (preset : Option String)
  | tick (t : Tick)
  deriving DecidableEq, Repr

/-- What a statement does to the shared state. -/
inductive Act where
  | skip
  | setPreset (id : String)
  | setConfig (config : BypassConfig)
  | setIpv6 (b : Bool)
  | setRunning (b : Bool)
  | setFails (n : ℕ)
  | setTun (tun : Option ℕ)
  | setVpnThread (t : Option ℕ)
  | setMonitorThread (t : Option ℕ)
  | setStopThread (t : Option ℕ)
  | establish
  | closeTun
  | interrupt (t : Option ℕ)
  | clearInterrupt
  | spawn (pc : Pc)
  | setFlag (p : Part) (b : Bool)
  /-- `pthread_create(&g_thread, …)`. -/
  | create (p : Part) (j : Job)
  /-- A server socket is bound. -/
  | bind
  | setServer (t : Option ℕ)
  | closeServer
  deriving DecidableEq, Repr

namespace State

variable (s : State)

/-- A part changes. -/
def setPart (p : Part) (x : PartState) : State := { s with parts := Function.update s.parts p x }

/-- A thread moves on. -/
def setPc (i : ℕ) (pc : Pc) : State :=
  { s with threads := Function.update s.threads i { s.threads i with pc := pc } }

/-- The fields a thread sees. -/
def view (i : ℕ) : Fields := s.fields (s.threads i).object

end State

/-! ### Effects -/

/-- The effect on the fields of the thread's service object. -/
def Act.onFields (f : Fields) : Act → Fields
  | .setPreset id => { f with activePresetId := id }
  | .setConfig c => { f with currentConfig := c }
  | .setIpv6 b => { f with hasRealIpv6 := b }
  | .setRunning b => { f with isRunning := b }
  | .setFails n => { f with consecutiveFails := n }
  | .setTun t => { f with vpnInterface := t }
  | .setVpnThread t => { f with vpnThread := t }
  | .setMonitorThread t => { f with monitorThread := t }
  | .setStopThread t => { f with proxyEngineStopThread := t }
  | _ => f

namespace PartState

variable (x : PartState)

/-- The flag of the part is written. -/
def setRunning (b : Bool) : PartState := { x with running := b }

/-- `pthread_create(&g_thread, …)`. -/
def create (j : Job) : PartState :=
  { x with
    handle := some x.created
    job := Function.update x.job x.created (some j)
    created := x.created + 1 }

/-- A server socket, not stored yet. -/
def bind : PartState :=
  { x with job := Function.update x.job x.created (some .server), created := x.created + 1 }

/-- The handle is closed. -/
def close : PartState :=
  match x.handle with
  | some t => { x with job := Function.update x.job t none }
  | none => x

end PartState

/-- The effect on a part of the engine. -/
def Act.onPart (p : Part) (x : PartState) : Act → PartState
  | .setFlag q b => if q = p then x.setRunning b else x
  | .create q j => if q = p then x.create j else x
  | .bind => if p = .protect then x.bind else x
  | .setServer t => if p = .protect then { x with handle := t } else x
  | .closeServer => if p = .protect then x.close else x
  | _ => x

/-- The effect on the interfaces. -/
def Act.onTuns (s : State) (i : ℕ) : Act → ℕ → Tun
  | .establish => Function.update s.tuns s.established { isOpen := true, session := i }
  | .closeTun =>
    match (s.view i).vpnInterface with
    | some t => Function.update s.tuns t { s.tuns t with isOpen := false }
    | none => s.tuns
  | _ => s.tuns

/-- The effect on the pending interrupts. -/
def Act.onInterrupted (s : State) (i : ℕ) : Act → ℕ → Bool
  | .interrupt (some t) => Function.update s.interrupted t true
  | .clearInterrupt => Function.update s.interrupted i false
  | _ => s.interrupted

/-- The effect on the other threads. -/
def Act.onThreads (s : State) (i : ℕ) : Act → ℕ → Thread
  | .spawn pc => Function.update s.threads s.spawned { pc := pc, object := (s.threads i).object }
  | _ => s.threads

/-- A thread starts at this program point. -/
def Act.spawns : Act → Option Pc
  | .spawn pc => some pc
  | _ => none

/-- A thread that runs `runVpn`. -/
def Pc.isSession : Pc → Bool
  | .runVpn _ => true
  | _ => false

/-- The effect of a statement of thread `i`. -/
def act (s : State) (i : ℕ) (a : Act) : State :=
  { s with
    fields := Function.update s.fields (s.threads i).object (a.onFields (s.view i))
    parts := fun p => a.onPart p (s.parts p)
    tuns := a.onTuns s i
    established := if a = .establish then s.established + 1 else s.established
    threads := a.onThreads s i
    interrupted := a.onInterrupted s i
    spawned := if a.spawns.isSome then s.spawned + 1 else s.spawned
    session := if a.spawns.any Pc.isSession then s.spawned else s.session }

/-! ### The statements -/

/-- The code of `onStartCommand`. -/
def OnStart.code (s : State) (i : ℕ) : OnStart → Outcome → Option (Act × Pc)
  | .setPreset id, .ok => some (.setPreset id, .onStart .loadConfig)
  | .loadConfig, .ok => some (.setConfig (loadPreset (s.view i).activePresetId), .onStart .test)
  | .test, .ok => if (s.view i).isRunning then some (.skip, .ended) else some (.skip, .onStart .await)
  -- the wait ends with the thread or after three seconds
  | .await, .ok => some (.skip, .onStart .forget)
  | .forget, .ok => some (.setStopThread none, .onStart .setRunning)
  | .setRunning, .ok => some (.setRunning true, .onStart .spawn)
  | .spawn, .ok => some (.spawn (.runVpn .probe), .onStart (.keep s.spawned))
  | .keep t, .ok => some (.setVpnThread (some t), .ended)
  | _, _ => none

/-- The code of `stopVpn`. -/
def StopVpn.code (s : State) (i : ℕ) : StopVpn → Outcome → Option (Act × Pc)
  | .test, .ok => if (s.view i).isRunning then some (.skip, .stopVpn .clearRunning) else some (.skip, .ended)
  | .clearRunning, .ok => some (.setRunning false, .stopVpn .interruptMonitor)
  | .interruptMonitor, .ok => some (.interrupt (s.view i).monitorThread, .stopVpn .dropMonitor)
  | .dropMonitor, .ok => some (.setMonitorThread none, .stopVpn .close)
  | .close, .ok => some (.closeTun, .stopVpn .dropTun)
  | .dropTun, .ok => some (.setTun none, .stopVpn .interruptVpn)
  | .interruptVpn, .ok => some (.interrupt (s.view i).vpnThread, .stopVpn .dropVpn)
  | .dropVpn, .ok => some (.setVpnThread none, .stopVpn .spawn)
  | .spawn, .ok => some (.spawn (.stopLibs .async), .stopVpn (.keep s.spawned))
  | .keep t, .ok => some (.setStopThread (some t), .ended)
  | _, _ => none

/-- `vpnInterface!!.fd`, which throws on a descriptor that is gone or closed. -/
def openTun (s : State) (i : ℕ) : Option ℕ := (s.view i).vpnInterface.filter fun t => (s.tuns t).isOpen

/-- The code of `runVpn`. -/
def RunVpn.code (env : Env) (s : State) (i : ℕ) : RunVpn → Outcome → Option (Act × Pc)
  | .probe, .network up => some (.setIpv6 up, .runVpn .establish)
  | .establish, .ok => some (.establish, .runVpn (.store (some s.established)))
  | .establish, .fail => some (.skip, .runVpn (.store none))
  | .establish, .throws => some (.skip, .stopVpn .test)
  | .store t, .ok => some (.setTun t, .runVpn .test)
  | .test, .ok =>
    if (s.view i).vpnInterface.isSome then some (.skip, .runVpn .loadConfig)
    else some (.skip, .runVpn .giveUp)
  | .giveUp, .ok => some (.setRunning false, .stopVpn .test)
  | .loadConfig, .ok => some (.setConfig (loadPreset (s.view i).activePresetId), .runVpn .readFd)
  | .readFd, .ok =>
    match openTun s i with
    | some t => some (.skip, .runVpn (.call t))
    | none => some (.skip, .stopVpn .test)
  | .call t, .ok => some (.skip, .start .session ⟨t, (s.view i).currentConfig, (s.view i).hasRealIpv6⟩ .libs)
  | .interruptMonitor b, .ok => some (.interrupt (s.view i).monitorThread, .runVpn (.spawnMonitor b))
  | .spawnMonitor b, .ok =>
    some (.spawn (.monitor { nativeBuilt := b && env.isNativeTun2socksBuilt } .test),
      .runVpn (.keepMonitor b s.spawned))
  | .keepMonitor b t, .ok => some (.setMonitorThread (some t), .runVpn (.spawnAsn b))
  | .spawnAsn b, .ok => some (.spawn (.asn .sleep), .runVpn (.enter b))
  | .enter b, .ok =>
    if b && env.isNativeTun2socksBuilt then some (.skip, .runVpn .idle)
    else
      match (s.view i).vpnInterface with
      | some t => some (.skip, .runVpn (.packets b t))
      | none => some (.skip, .stopVpn .test)
  | .idle, .ok => if (s.view i).isRunning then some (.skip, .runVpn .sleep) else some (.skip, .stopVpn .test)
  | .sleep, .ok =>
    if s.interrupted i then some (.clearInterrupt, .stopVpn .test) else some (.skip, .runVpn .idle)
  | .packets b t, .ok =>
    if (s.view i).isRunning then some (.skip, .runVpn (.read b t)) else some (.skip, .stopVpn .test)
  | .read b t, .ok => if (s.tuns t).isOpen then some (.skip, .runVpn (.packets b t)) else none
  -- `TUN read error`
  | .read _ _, .throws => some (.skip, .stopVpn .test)
  | _, _ => none

/-- The code of `AsnAutoDetect`. -/
def AsnAutoDetect.code (s : State) (i : ℕ) : AsnAutoDetect → Outcome → Option (Act × Pc)
  | .sleep, .ok => some (.skip, .asn .test)
  | .test, .ok => if (s.view i).isRunning then some (.skip, .asn .detect) else some (.skip, .ended)
  | .detect, .suggests preset => some (.skip, .asn (.decide preset))
  | .detect, .throws => some (.skip, .ended)
  | .decide suggested, .ok =>
    match suggested with
    | some id =>
      if id ≠ (s.view i).activePresetId ∧ (s.view i).activePresetId = "universal" ∧ (s.view i).isRunning then
        some (.skip, .restart .asn (.setPreset id))
      else some (.skip, .ended)
    | none => some (.skip, .ended)
  | _, _ => none

/-- The preset after `id` in the order of the automatic search; an unknown one counts as the first. -/
def nextPreset (id : String) : String :=
  let currentIdx := (AUTO_SWITCH_ORDER.findIdx? (· == id)).getD 0
  AUTO_SWITCH_ORDER.getD ((currentIdx + 1) % AUTO_SWITCH_ORDER.length) ""

/-- The code of `PresetMonitor`. -/
def PresetMonitor.code (s : State) (i : ℕ) (w : Watch) : PresetMonitor → Outcome → Option (Act × Pc)
  | .test, .ok => if (s.view i).isRunning then some (.skip, .monitor w .sleep) else some (.skip, .ended)
  | .sleep, .ok =>
    if s.interrupted i then some (.clearInterrupt, .ended) else some (.skip, .monitor w .retest)
  | .retest, .ok => if (s.view i).isRunning then some (.skip, .monitor w .tick) else some (.skip, .ended)
  | .tick, .tick t =>
    let next := monitorTick w.nativeBuilt ⟨w.idx, (s.view i).consecutiveFails⟩ t
    -- the counter is reset after the switch only
    if next.2.switched then
      some (.setFails ((s.view i).consecutiveFails + 1), .monitor { w with idx := next.1.idx } .pick)
    else some (.setFails next.1.consecutiveFails, .monitor { w with idx := next.1.idx } .test)
  | .pick, .ok =>
    some (.skip, .restart (.monitor w) (.setPreset (nextPreset (s.view i).activePresetId)))
  | .resetFails, .ok => some (.setFails 0, .monitor w .test)
  | _, _ => none

/-- Where a thread goes on after a restart that is over or has thrown. -/
def Site.resume : Site → Pc
  | .monitor w => .monitor w .resetFails
  | _ => .ended

/-- Where a thread goes on when its `ProxyEngine.start` has returned. -/
def Site.started (b : Bool) : Site → Pc
  | .session => .runVpn (.interruptMonitor b)
  | site => site.resume

/-- Where a thread goes on when its `ProxyEngine.stop` has returned. -/
def Site.stopped : Site → Pc
  | .asn => .restart .asn .readFd
  | .monitor w => .restart (.monitor w) .readFd
  | _ => .ended

/-- The code of a restart. -/
def Restart.code (s : State) (i : ℕ) (site : Site) : Restart → Outcome → Option (Act × Pc)
  | .setPreset id, .ok => some (.setPreset id, .restart site (.loadConfig id))
  | .loadConfig id, .ok => some (.setConfig (loadPreset id), .restart site .stop)
  | .stop, .ok => some (.skip, .stopLibs site)
  -- no interface and a closed one both end the restart, the second by an exception
  | .readFd, .ok =>
    match openTun s i with
    | some t => some (.skip, .restart site (.pause t))
    | none => some (.skip, site.resume)
  | .pause t, .ok =>
    if s.interrupted i then some (.clearInterrupt, site.resume) else some (.skip, .restart site (.call t))
  | .call t, .ok => some (.skip, .start site ⟨t, (s.view i).currentConfig, (s.view i).hasRealIpv6⟩ .libs)
  | _, _ => none

/-- The code of `ProxyEngine.start`. -/
def Start.code (env : Env) (s : State) (site : Site) (a : StartArgs) : Start → Outcome → Option (Act × Pc)
  | .libs, .ok =>
    if env.nativeLibsLoaded then some (.skip, .start site a .protectTest)
    else some (.skip, site.started false)
  | .protectTest, .ok =>
    if (s.parts .protect).running then some (.skip, .start site a (.ciadpiTest true))
    else some (.skip, .start site a .protectBind)
  | .protectBind, .ok => some (.bind, .start site a (.protectStore (s.parts .protect).created))
  | .protectBind, .throws => some (.skip, .undoProtect site a .clear)
  | .protectStore t, .ok => some (.setServer (some t), .start site a .protectFlag)
  | .protectFlag, .ok => some (.setFlag .protect true, .start site a (.ciadpiTest true))
  | .ciadpiTest b, .ok =>
    if (s.parts .ciadpi).running then some (.skip, .start site a .tun2socksTest)
    else some (.skip, .start site a (.ciadpiFlag b))
  | .ciadpiTest _, .throws => some (.skip, site.started false)
  | .ciadpiFlag b, .ok => some (.setFlag .ciadpi true, .start site a (.ciadpiCreate b))
  | .ciadpiCreate b, .ok =>
    some (.create .ciadpi (.proxy (ciadpiArgs a.config (if b then env.protectPath else "") a.ipv6Enabled)),
      .start site a .tun2socksTest)
  | .ciadpiCreate _, .fail => some (.skip, .start site a .ciadpiUnset)
  | .ciadpiUnset, .ok => some (.setFlag .ciadpi false, site.started false)
  | .tun2socksTest, .ok =>
    if (s.parts .tun2socks).running then some (.skip, site.started true)
    else some (.skip, .start site a .tun2socksFlag)
  | .tun2socksTest, .throws => some (.skip, site.started false)
  | .tun2socksFlag, .ok => some (.setFlag .tun2socks true, .start site a .tun2socksCreate)
  | .tun2socksCreate, .ok => some (.create .tun2socks (.bridge a.tunFd), site.started true)
  | .tun2socksCreate, .fail => some (.skip, .start site a .tun2socksUnset)
  | .tun2socksUnset, .ok => some (.setFlag .tun2socks false, .undoCiadpi site .test)
  | _, _ => none

/-- The statements of `ciadpiStop` and `tun2socksStop`: `at_` names the program points of the call,
`after` is where the thread goes on. -/
def Stop.code (s : State) (p : Part) (at_ : Stop → Pc) (after : Pc) : Stop → Outcome → Option (Act × Pc)
  | .test, .ok => if (s.parts p).running then some (.skip, at_ .join) else some (.skip, after)
  | .join, .ok =>
    match (s.parts p).handle with
    | some t => some (.skip, at_ (.joining t))
    | none => some (.skip, at_ .clear)
  -- `pthread_join` returns when the thread has ended
  | .joining t, .ok => if (s.parts p).job t = none then some (.skip, at_ .clear) else none
  | .clear, .ok => some (.setFlag p false, after)
  | _, _ => none

/-- The code of `ProtectSocketServer.stop`. -/
def StopServer.code (at_ : StopServer → Pc) (after : Pc) : StopServer → Outcome → Option (Act × Pc)
  | .clear, .ok => some (.setFlag .protect false, at_ .close)
  | .close, .ok => some (.closeServer, at_ .drop)
  | .drop, .ok => some (.setServer none, after)
  | _, _ => none

/-- `if (!nativeLibsLoaded) return` in `ProxyEngine.stop`. -/
def stopLibs (env : Env) (site : Site) : Outcome → Option (Act × Pc)
  | .ok =>
    if env.nativeLibsLoaded then some (.skip, .stopTun2socks site .test) else some (.skip, site.stopped)
  | _ => none

/-- The statement at a program point of thread `i`: what it does and where the thread goes on. -/
def code (env : Env) (s : State) (i : ℕ) : Pc → Outcome → Option (Act × Pc)
  | .ended => fun _ => none
  | .onStart c => c.code s i
  | .stopVpn c => c.code s i
  | .runVpn c => c.code env s i
  | .asn c => c.code s i
  | .monitor w c => c.code s i w
  | .restart site c => c.code s i site
  | .start site a c => c.code env s site a
  | .stopLibs site => stopLibs env site
  | .stopTun2socks site c => c.code s .tun2socks (.stopTun2socks site) (.stopCiadpi site .test)
  | .stopCiadpi site c => c.code s .ciadpi (.stopCiadpi site) (.stopProtect site .clear)
  | .stopProtect site c => c.code (.stopProtect site) site.stopped
  | .undoCiadpi site c => c.code s .ciadpi (.undoCiadpi site) (site.started false)
  | .undoProtect site a c => c.code (.undoProtect site a) (.start site a (.ciadpiTest false))

/-! ### Steps -/

/-- A step of the system, of a thread or of an engine. -/
inductive Label where
  | deliver (c : Command)
  | run (i : ℕ) (o : Outcome)
  /-- An engine thread leaves its loop, because it was asked to or by itself. -/
  | exit (p : Part) (t : ℕ)
  deriving DecidableEq, Repr

/-- Where the main thread begins. -/
def Command.pc : Command → Pc
  | .start presetId => .onStart (.setPreset (presetId.getD "universal"))
  | .stop | .destroy => .stopVpn .test

/-- Before the first command. -/
def init : State := {}

/-- One step of the system. -/
def step (env : Env) (s : State) : Label → Option State
  | .deliver c =>
    if (s.threads 0).pc = .ended ∧ ¬ (c = .destroy ∧ s.last = some .destroy) then
      -- a destroyed service is created anew
      let object := if s.last = some .destroy then s.object + 1 else s.object
      some { s with
        object := object
        last := some c
        threads := Function.update s.threads 0 { pc := c.pc, object := object } }
    else none
  | .run i o => (code env s i (s.threads i).pc o).map fun (a, pc) => (act s i a).setPc i pc
  | .exit p t =>
    if p ≠ .protect ∧ (s.parts p).job t ≠ none then
      some (s.setPart p { s.parts p with running := false, job := Function.update (s.parts p).job t none })
    else none

end BypassVpn.Service
