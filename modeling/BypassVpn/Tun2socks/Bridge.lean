import BypassVpn.Lib.Ledger
import BypassVpn.Lib.Transition
import BypassVpn.Tun2socks.Udp

/-!
# The tun2socks bridge

`tun2socks_bridge_run`: calls one after the other, each a setup with its failure labels, the event loop
and the teardown, and `tun2socks_bridge_stop` from other threads in between. `ndebug` says whether the
assertions are compiled out.

* `Descriptor`, `Obj`, `Registration`, `Client`: what a call opens, attaches to the reactor and serves.
* `Pc`: the statements of `tun2socks_bridge_run`; `exec` runs the next one; `handle`: the events of the
  loop, with the functions of the TCP clients.
* `step`: the system.
-/

namespace BypassVpn.Tun2socks

open Ledger

/-! ### Data -/

/-- `struct tun2socks_bridge_config`. -/
structure BridgeConfig where
  tunFd : ℤ
  mtu : ℤ
  netifIpaddr : Option String
  netifNetmask : Option String
  netifIp6addr : Option String
  socksServerAddr : Option String
  deriving DecidableEq

/-- The test at the beginning of `tun2socks_bridge_run`. -/
def BridgeConfig.accepted (cfg : BridgeConfig) : Bool :=
  decide (0 ≤ cfg.tunFd) && cfg.netifIpaddr.isSome && cfg.netifNetmask.isSome && cfg.socksServerAddr.isSome

/-- What a descriptor refers to. -/
inductive File where
  | epoll
  | stopRead
  | stopWrite
  | tun
  deriving DecidableEq

/-- Descriptors the bridge opened, numbered as they are opened, and those that its callers own. -/
inductive Descriptor where
  | own (id : ℕ) (file : File)
  | given (fd : ℤ)
  deriving DecidableEq

/-- What `tun2socks_bridge_run` attaches to the reactor, and the `BSocksClient` of a TCP client. -/
inductive Obj where
  | stopFd
  | device
  | readInterface
  | readBuffer
  | udpClient
  | initJob
  | writeBuf
  | tcpTimer
  | client (k : ℕ)
  deriving DecidableEq

/-- TCP clients come and go in any order. -/
def Obj.siblings : Obj → Obj → Bool
  | .client _, .client _ => true
  | _, _ => false

/-- `BFileDescriptor`, running timer, `BPending` object, and one that is set. -/
inductive Kind where
  | fileDescriptor
  | timer
  | pending
  | job
  deriving DecidableEq

/-- An object is registered with the reactor. -/
structure Registration where
  owner : Obj
  kind : Kind
  deriving DecidableEq

/-- `BTAP_INIT_FD` and `BTAP_INIT_STRING`. -/
inductive InitType where
  | fd
  | string
  deriving DecidableEq

/-- `BTap`, what the model reads of it. -/
structure BTap where
  fd : Descriptor
  closeFd : Bool
  frameMtu : ℤ
  deriving DecidableEq

/-- `struct tcp_client`. -/
structure Client where
  clientClosed : Bool := false
  socksClosed : Bool := false
  socksUp : Bool := false
  bufUsed : ℕ := 0
  /-- `none` is -1. -/
  socksRecvBufUsed : Option ℕ := none
  socksRecvBufSent : ℕ := 0
  socksRecvTcpPending : ℕ := 0
  deriving DecidableEq

/-- Where `tun2socks_bridge_run` stands: the statement it runs next. -/
inductive Pc where
  | idle
  | globalInit | processArguments | reactorInit | pipe | fcntl | addStopFd | dup | tapInit | closeDup
  | readInterface | readBuffer | udpClient | initJob | alloc | tcpTimer
  | loop
  | murder | removeTimer | freeWriteBuf | freeInitJob | freeUdpClient | freeReadBuffer | freeReadInterface
  | freeTap | removeStopFd | closeStopRead | closeStopWrite | clearStopPipe | freeReactor | succeed
  | failUdpmode | failReadBuffer
  | failTap | failDevice
  | failStopfd
  | failPipe | failPipeWrite | failClear
  | failReactor
  | failLog
  deriving DecidableEq

/-- The globals of the bridge, its objects, descriptors and clients. -/
structure State where
  pc : Pc := .idle
  cfg : Option BridgeConfig := none
  /-- What the last call returned. -/
  result : Option ℤ := none
  /-- `bridge_stop_pipe`; `none` is -1. -/
  stopPipe : Option Descriptor × Option Descriptor := (none, none)
  /-- The octets in the stop pipe. -/
  stopBytes : ℕ := 0
  /-- The calls of `tun2socks_bridge_stop` that have passed their test. -/
  stopping : ℕ := 0
  efd : Option Descriptor := none
  dupFd : Option Descriptor := none
  device : Option BTap := none
  udpMtu : ℤ := 0
  /-- The descriptors opened and closed by `tun2socks_bridge_run`. -/
  fds : List (Ledger.Event Descriptor) := []
  nextFd : ℕ := 0
  /-- What was attached to the reactor and released since `BReactor_Init`. -/
  objects : List (Ledger.Event Obj) := []
  /-- What the reactor holds. -/
  regs : List Registration := []
  quitting : Bool := false
  haveNetif : Bool := false
  listener : Bool := false
  listenerIp6 : Bool := false
  /-- `tcp_clients`. -/
  clients : List (ℕ × Client) := []
  numClients : ℤ := 0
  nextClient : ℕ := 0
  /-- An assertion has failed. -/
  aborted : Bool := false
  /-- `BAlloc` has failed in this call. -/
  allocFailed : Bool := false
  /-- How often `BTap_Init2` has succeeded, in all calls. -/
  tapInits : ℕ := 0

namespace State

variable (s : State)

/-- The call goes on. -/
def goto (pc : Pc) : State := { s with pc := pc }

/-- The next descriptor. -/
def fresh (file : File) : Descriptor := .own s.nextFd file

/-- A descriptor is opened under the next number. -/
def openFd (file : File) : State :=
  { s with fds := s.fds ++ [.opened (s.fresh file)], nextFd := s.nextFd + 1 }

/-- `close`; nothing happens for -1. -/
def closeFd : Option Descriptor → State
  | none => s
  | some d => { s with fds := s.fds ++ [.closed d] }

/-- An object is made, and registered. -/
def attach (o : Obj) (kinds : List Kind) : State :=
  { s with objects := s.objects ++ [.opened o], regs := s.regs ++ kinds.map (Registration.mk o) }

/-- Freeing an object takes what it has registered from the reactor. -/
def release (o : Obj) : State :=
  { s with objects := s.objects ++ [.closed o], regs := s.regs.filter fun r => r.owner ≠ o }

/-! ### `BTap` -/

/-- `BTap_Init2`, when it succeeds. -/
def btapInit2 (initType : InitType) (fd : Descriptor) (mtu : ℤ) : State :=
  { s.attach .device [.fileDescriptor, .pending] with
    device := some { fd := fd, closeFd := initType ≠ .fd, frameMtu := mtu }
    tapInits := s.tapInits + 1 }

/-- `BTap_Free`. -/
def btapFree : State :=
  let s := s.release .device
  match s.device with
  | some d => { (if d.closeFd then s.closeFd (some d.fd) else s) with device := none }
  | none => s

/-! ### TCP clients -/

/-- A client of the list. -/
def getClient (k : ℕ) : Option Client := s.clients.lookup k

/-- A client of the list changes. -/
def setClient (k : ℕ) (c : Client) : State :=
  { s with clients := s.clients.map fun p => if p.1 = k then (k, c) else p }

/-- A client leaves the list. -/
def clientDealloc (k : ℕ) : State :=
  { s with numClients := s.numClients - 1, clients := s.clients.filter fun p => p.1 ≠ k }

end State

/-- `sizeof(client->buf)`: `TCP_WND`. -/
def clientBufSize : ℕ := 4 * 1460

/-- Buffered data is still to be sent to the client. -/
def Client.toClient (c : Client) : Bool :=
  c.socksUp && (c.socksRecvBufUsed.isSome || decide (0 < c.socksRecvTcpPending)) && !c.clientClosed

mutual

/-- `client_handle_freed_client`. -/
def clientHandleFreedClient (s : State) (k : ℕ) (c : Client) : State :=
  let closed := { c with clientClosed := true }
  if 0 < c.bufUsed ∧ c.socksClosed = false then s.setClient k closed
  else if c.socksClosed = false then clientFreeSocks s k closed
  else s.clientDealloc k
termination_by if c.socksClosed then 0 else 3
decreasing_by simp [*]

/-- `tcp_close` and, should it fail, `tcp_abort` concern the pcb alone. -/
def clientFreeClient (s : State) (k : ℕ) (c : Client) : State := clientHandleFreedClient s k c
termination_by if c.socksClosed then 1 else 4
decreasing_by split <;> simp

/-- `client_free_socks`. -/
def clientFreeSocks (s : State) (k : ℕ) (c : Client) : State :=
  let s := s.release (.client k)
  let closed := { c with socksClosed := true }
  if closed.toClient then s.setClient k closed
  else if c.clientClosed = false then clientFreeClient s k closed
  else s.clientDealloc k
termination_by 2
decreasing_by simp

end

section Client

variable (s : State) (k : ℕ) (c : Client)

/-- Whoever frees the second half of a client frees the client. -/
theorem clientFreeSocks_eq : clientFreeSocks s k c =
    if ({ c with socksClosed := true } : Client).toClient then
      (s.release (.client k)).setClient k { c with socksClosed := true }
    else (s.release (.client k)).clientDealloc k := by
  rw [clientFreeSocks]
  split
  · rfl
  · split
    · rw [clientFreeClient, clientHandleFreedClient, if_neg (by simp), if_neg (by simp)]
    · rfl

theorem clientHandleFreedClient_eq : clientHandleFreedClient s k c =
    if c.socksClosed then s.clientDealloc k
    else if 0 < c.bufUsed then s.setClient k { c with clientClosed := true }
    else (s.release (.client k)).clientDealloc k := by
  rw [clientHandleFreedClient]
  cases hc : c.socksClosed with
  | true => rw [if_neg (by simp), if_neg (by simp), if_pos rfl]
  | false =>
    rw [if_neg (by simp : ¬ (false : Bool) = true)]
    by_cases hb : 0 < c.bufUsed
    · rw [if_pos ⟨hb, rfl⟩, if_pos hb]
    · rw [if_neg fun h => hb h.1, if_pos rfl, if_neg hb, clientFreeSocks_eq,
        if_neg (by simp [Client.toClient])]

theorem clientFreeClient_eq : clientFreeClient s k c = clientHandleFreedClient s k c := by
  rw [clientFreeClient]

end Client

/-- `client_abort_client`: `tcp_abort` concerns the pcb alone. -/
def clientAbortClient (s : State) (k : ℕ) (c : Client) : State := clientHandleFreedClient s k c

/-- `client_murder`. -/
def clientMurder (s : State) (k : ℕ) (c : Client) : State :=
  (if c.socksClosed then s else s.release (.client k)).clientDealloc k

/-- How `client_socks_recv_send_out` turns out: `tcp_write` or `tcp_output` fails, or octets are queued.
-/
inductive SendOut where
  | fails
  | queues (n : ℕ)
  deriving DecidableEq

/-- `client_socks_recv_send_out`; the flag tells whether the client is still there. -/
def clientSocksRecvSendOut (s : State) (k : ℕ) (c : Client) : SendOut → State × Bool
  | .fails => (clientAbortClient s k c, false)
  | .queues n =>
    let c := { c with
      socksRecvBufSent := c.socksRecvBufSent + n
      socksRecvTcpPending := c.socksRecvTcpPending + n }
    if c.socksRecvBufSent < c.socksRecvBufUsed.getD 0 then
      if c.socksRecvTcpPending = 0 then (clientAbortClient s k c, false) else (s.setClient k c, true)
    else (s.setClient k { c with socksRecvBufUsed := none }, true)

/-! ### The event loop -/

/-- How the calls of `lwip_init_job_hadler` turn out. -/
structure LwipInit where
  netifAdd : Bool := true
  listen : Bool := true
  listenIp6 : Bool := true
  deriving DecidableEq

/-- `terminate`. -/
def State.terminate (s : State) : State := { s with quitting := true }

/-- `lwip_init_job_hadler`. -/
def lwipInitJobHandler (s : State) (o : LwipInit) : State :=
  if o.netifAdd = false then s.terminate
  else
    let s := { s with haveNetif := true }
    if o.listen = false then s.terminate
    else
      let s := { s with listener := true }
      if s.cfg.any (·.netifIp6addr.isSome) then
        if o.listenIp6 = false then s.terminate else { s with listenerIp6 := true }
      else s

/-- What the reactor calls, and how it turns out. -/
inductive LoopEvent where
  /-- The set job `lwip_init_job` is executed. -/
  | initJob (o : LwipInit)
  /-- `listener_accept_func`: `BSocksClient_Init` fails, or registers what it needs. -/
  | accept (socksInit : Option (List Kind))
  | clientErr (k : ℕ)
  /-- `client_recv_func`. -/
  | clientRecv (k : ℕ) (len : Option ℕ)
  /-- `BSOCKSCLIENT_EVENT_ERROR` and `BSOCKSCLIENT_EVENT_ERROR_CLOSED`. -/
  | socksError (k : ℕ)
  | socksUp (k : ℕ)
  | socksSendDone (k : ℕ) (len : ℕ)
  | socksRecvDone (k : ℕ) (len : ℕ) (out : SendOut)
  | clientSent (k : ℕ) (len : ℕ) (out : SendOut)
  /-- Handlers of an attached object run and change what it has registered. -/
  | rearm (o : Obj) (kinds : List Kind)
  | deviceError
  | stopPipe
  deriving DecidableEq

/-- The object is attached to the reactor. -/
def State.attached (s : State) : Obj → Bool
  | .client k => (s.getClient k).any fun c => !c.socksClosed
  | _ => true

/-- One turn of `BReactor_Exec`. -/
def handle (s : State) : LoopEvent → Option State
  | .initJob o =>
    if ⟨.initJob, .job⟩ ∈ s.regs then
      some (lwipInitJobHandler { s with regs := s.regs.filter (· ≠ ⟨.initJob, .job⟩) } o)
    else none
  | .accept none => if s.listener || s.listenerIp6 then some s else none
  | .accept (some kinds) =>
    if s.listener || s.listenerIp6 then
      let k := s.nextClient
      some { s.attach (.client k) kinds with
        clients := s.clients ++ [(k, {})], numClients := s.numClients + 1, nextClient := k + 1 }
    else none
  | .clientErr k =>
    (s.getClient k).bind fun c => if c.clientClosed then none else some (clientHandleFreedClient s k c)
  | .clientRecv k none =>
    (s.getClient k).bind fun c => if c.clientClosed then none else some (clientFreeClient s k c)
  | .clientRecv k (some n) =>
    -- with SOCKS up this starts sending: a job of the client
    (s.getClient k).bind fun c =>
      if c.clientClosed || n = 0 then none
      else if clientBufSize - c.bufUsed < n then some s
      else some (s.setClient k { c with bufUsed := c.bufUsed + n })
  | .socksError k =>
    (s.getClient k).bind fun c => if c.socksClosed then none else some (clientFreeSocks s k c)
  | .socksUp k =>
    (s.getClient k).bind fun c =>
      if c.socksClosed || c.socksUp then none
      else some (s.setClient k
        { c with socksUp := true, socksRecvBufUsed := none, socksRecvTcpPending := 0 })
  | .socksSendDone k n =>
    (s.getClient k).bind fun c =>
      if c.socksClosed || !c.socksUp || n = 0 || c.bufUsed < n then none
      else
        let c := { c with bufUsed := c.bufUsed - n }
        if c.bufUsed = 0 ∧ c.clientClosed then some (clientFreeSocks s k c) else some (s.setClient k c)
  | .socksRecvDone k n out =>
    (s.getClient k).bind fun c =>
      if c.socksClosed || !c.socksUp || n = 0 || c.socksRecvBufUsed.isSome then none
      else if c.clientClosed then some s
      else
        some (clientSocksRecvSendOut s k { c with socksRecvBufUsed := some n, socksRecvBufSent := 0 } out).1
  | .clientSent k n out =>
    (s.getClient k).bind fun c =>
      if c.clientClosed || !c.socksUp || n = 0 || c.socksRecvTcpPending < n then none
      else
        let c := { c with socksRecvTcpPending := c.socksRecvTcpPending - n }
        if c.socksRecvBufUsed.isSome then some (clientSocksRecvSendOut s k c out).1
        else if c.socksClosed ∧ c.socksRecvTcpPending = 0 then some (clientFreeClient s k c)
        else some (s.setClient k c)
  | .rearm o kinds =>
    if s.attached o then
      some { s with regs := (s.regs.filter fun r => r.owner ≠ o) ++ kinds.map (Registration.mk o) }
    else none
  | .deviceError => some s.terminate
  | .stopPipe => if 0 < s.stopBytes then some { s.terminate with stopBytes := 0 } else none

/-! ### What a turn of the event loop does -/

/-- What a handler may change without touching an object. -/
structure Flags where
  quitting : Bool
  haveNetif : Bool
  listener : Bool
  listenerIp6 : Bool
  stopBytes : ℕ

/-- The flags of a state. -/
def State.flags (s : State) : Flags where
  quitting := s.quitting
  haveNetif := s.haveNetif
  listener := s.listener
  listenerIp6 := s.listenerIp6
  stopBytes := s.stopBytes

/-- The flags change. -/
def State.setFlags (s : State) (f : Flags) : State :=
  { s with
    quitting := f.quitting
    haveNetif := f.haveNetif
    listener := f.listener
    listenerIp6 := f.listenerIp6
    stopBytes := f.stopBytes }

/-- What one handler does. -/
inductive Turn (s : State) : State → Prop
  | flags (f : Flags) : Turn s (s.setFlags f)
  | executes (f : Flags) :
    Turn s ({ s with regs := s.regs.filter (· ≠ Registration.mk .initJob .job) }.setFlags f)
  | rearms (o : Obj) (kinds : List Kind) (h : s.attached o = true) :
      Turn s { s with regs := (s.regs.filter fun r => r.owner ≠ o) ++ kinds.map (Registration.mk o) }
  | accepts (kinds : List Kind) :
      Turn s { s.attach (.client s.nextClient) kinds with
        clients := s.clients ++ [(s.nextClient, {})]
        numClients := s.numClients + 1
        nextClient := s.nextClient + 1 }
  | updates (k : ℕ) (c c' : Client) (h : s.getClient k = some c) (hs : c'.socksClosed = c.socksClosed) :
      Turn s (s.setClient k c')
  /-- The `BSocksClient` is freed, data is still to be sent to the client. -/
  | freesSocks (k : ℕ) (c c' : Client) (h : s.getClient k = some c) (ho : c.socksClosed = false)
      (hs : c'.socksClosed = true) : Turn s ((s.release (.client k)).setClient k c')
  /-- The `BSocksClient` is freed and the client with it. -/
  | ends (k : ℕ) (c : Client) (h : s.getClient k = some c) (hs : c.socksClosed = false) :
      Turn s ((s.release (.client k)).clientDealloc k)
  | deallocs (k : ℕ) (c : Client) (h : s.getClient k = some c) (hs : c.socksClosed = true) :
      Turn s (s.clientDealloc k)

section Turn

variable {s : State} {k : ℕ} {c₀ c : Client}

/-- `c₀` is the client as it is listed, `c` what has become of it. -/
theorem turn_clientHandleFreedClient (h : s.getClient k = some c₀) (hs : c.socksClosed = c₀.socksClosed) :
    Turn s (clientHandleFreedClient s k c) := by
  rw [clientHandleFreedClient_eq]
  by_cases hc : c.socksClosed = true
  · rw [if_pos hc]
    exact .deallocs k c₀ h (hs ▸ hc)
  · rw [if_neg hc]
    rw [Bool.not_eq_true] at hc
    split
    · exact .updates k c₀ _ h hs
    · exact .ends k c₀ h (hs ▸ hc)

theorem turn_clientFreeSocks (h : s.getClient k = some c₀) (hs : c₀.socksClosed = false) :
    Turn s (clientFreeSocks s k c) := by
  rw [clientFreeSocks_eq]
  split
  · exact .freesSocks k c₀ _ h hs rfl
  · exact .ends k c₀ h hs

theorem turn_clientMurder {rest : List (ℕ × Client)} (h : s.clients = (k, c) :: rest) :
    Turn s (clientMurder s k c) := by
  have hk : s.getClient k = some c := by
    rw [State.getClient, h, List.lookup_cons_self]
  unfold clientMurder
  cases hs : c.socksClosed with
  | true => exact .deallocs k c hk hs
  | false => exact .ends k c hk hs

theorem turn_clientSocksRecvSendOut (h : s.getClient k = some c₀) (hs : c.socksClosed = c₀.socksClosed)
    (out : SendOut) : Turn s (clientSocksRecvSendOut s k c out).1 := by
  cases out with
  | fails => exact turn_clientHandleFreedClient h hs
  | queues n =>
    unfold clientSocksRecvSendOut
    dsimp only
    split
    · split
      · exact turn_clientHandleFreedClient h hs
      · exact .updates k c₀ _ h hs
    · exact .updates k c₀ _ h hs

theorem lwipInitJobHandler_eq (o : LwipInit) : ∃ f, lwipInitJobHandler s o = s.setFlags f := by
  unfold lwipInitJobHandler
  dsimp only
  split
  · exact ⟨{ s.flags with quitting := true }, rfl⟩
  · split
    · exact ⟨{ s.flags with quitting := true, haveNetif := true }, rfl⟩
    · split
      · split
        · exact ⟨{ s.flags with quitting := true, haveNetif := true, listener := true }, rfl⟩
        · exact ⟨{ s.flags with haveNetif := true, listener := true, listenerIp6 := true }, rfl⟩
      · exact ⟨{ s.flags with haveNetif := true, listener := true }, rfl⟩

theorem of_getClient {f : Client → Option State} {s' : State} (h : (s.getClient k).bind f = some s') :
    ∃ c, s.getClient k = some c ∧ f c = some s' := Option.bind_eq_some_iff.mp h

variable {s' : State}

theorem turn_initJob {o : LwipInit} (h : handle s (.initJob o) = some s') : Turn s s' := by
  rw [handle] at h
  split at h
  · cases h
    obtain ⟨f, hf⟩ := lwipInitJobHandler_eq (s := { s with regs := s.regs.filter (· ≠ ⟨.initJob, .job⟩) }) o
    rw [hf]
    exact .executes f
  · cases h

theorem turn_accept {init : Option (List Kind)} (h : handle s (.accept init) = some s') : Turn s s' := by
  cases init with
  | none =>
    rw [handle] at h
    split at h
    · cases h
      exact .flags s.flags
    · cases h
  | some kinds =>
    rw [handle] at h
    split at h
    · cases h
      exact .accepts kinds
    · cases h

/-- Nothing is left to receive, or `len` octets are taken over. -/
theorem turn_clientRecv {len : Option ℕ} (h : handle s (.clientRecv k len) = some s') : Turn s s' := by
  cases len with
  | none =>
    obtain ⟨c, hk, h⟩ := of_getClient h
    split at h
    · cases h
    · cases h
      rw [clientFreeClient_eq]
      exact turn_clientHandleFreedClient hk rfl
  | some n =>
    obtain ⟨c, hk, h⟩ := of_getClient h
    split at h
    · cases h
    · split at h
      · cases h
        exact .flags s.flags
      · cases h
        exact .updates k c _ hk rfl

theorem turn_socksSendDone {n : ℕ} (h : handle s (.socksSendDone k n) = some s') : Turn s s' := by
  obtain ⟨c, hk, h⟩ := of_getClient h
  split at h
  · cases h
  · next hs =>
    simp only [Bool.or_eq_true, not_or, Bool.not_eq_true] at hs
    dsimp only at h
    split at h
    · cases h
      exact turn_clientFreeSocks hk hs.1.1.1
    · cases h
      exact .updates k c _ hk rfl

theorem turn_socksRecvDone {n : ℕ} {out : SendOut} (h : handle s (.socksRecvDone k n out) = some s') :
    Turn s s' := by
  obtain ⟨c, hk, h⟩ := of_getClient h
  split at h
  · cases h
  · split at h
    · cases h
      exact .flags s.flags
    · cases h
      refine turn_clientSocksRecvSendOut hk ?_ out
      rfl

/-- The client has acknowledged `n` octets: more is sent, or a client whose SOCKS side is gone is freed. -/
theorem turn_clientSent {n : ℕ} {out : SendOut} (h : handle s (.clientSent k n out) = some s') :
    Turn s s' := by
  obtain ⟨c, hk, h⟩ := of_getClient h
  split at h
  · cases h
  · dsimp only at h
    split at h
    · cases h
      refine turn_clientSocksRecvSendOut hk ?_ out
      rfl
    · split at h
      · cases h
        rw [clientFreeClient_eq]
        exact turn_clientHandleFreedClient hk rfl
      · cases h
        exact .updates k c _ hk rfl

theorem handle_turn {e : LoopEvent} (h : handle s e = some s') : Turn s s' := by
  cases e with
  | initJob o => exact turn_initJob h
  | accept init => exact turn_accept h
  | clientErr k =>
    obtain ⟨c, hk, h⟩ := of_getClient h
    split at h
    · cases h
    · cases h
      exact turn_clientHandleFreedClient hk rfl
  | clientRecv k len => exact turn_clientRecv h
  | socksError k =>
    obtain ⟨c, hk, h⟩ := of_getClient h
    split at h
    · cases h
    · next hs =>
      cases h
      exact turn_clientFreeSocks hk (Bool.not_eq_true _ ▸ hs)
  | socksUp k =>
    obtain ⟨c, hk, h⟩ := of_getClient h
    split at h
    · cases h
    · cases h
      exact .updates k c _ hk rfl
  | socksSendDone k n => exact turn_socksSendDone h
  | socksRecvDone k n out => exact turn_socksRecvDone h
  | clientSent k n out => exact turn_clientSent h
  | rearm o kinds =>
    rw [handle] at h
    split at h
    · next ho =>
      cases h
      exact .rearms o kinds ho
    · cases h
  | deviceError =>
    cases h
    exact .flags { s.flags with quitting := true }
  | stopPipe =>
    rw [handle] at h
    split at h
    · cases h
      exact .flags { s.flags with quitting := true, stopBytes := 0 }
    · cases h

end Turn

/-! ### `tun2socks_bridge_run` -/

/-- `BReactor_Free`: the assertions, then the epoll descriptor. -/
def State.reactorFree (s : State) (ndebug : Bool) (next : Pc) : State :=
  if !ndebug && !s.regs.isEmpty then { s with aborted := true } else (s.closeFd s.efd).goto next

/-- The next statement; `ok` says how the call in it turns out, if it can fail. -/
def exec (ndebug : Bool) (s : State) (ok : Bool) : Option State :=
  match s.pc with
  | .idle => none
  | .globalInit => some (s.goto (if ok then .processArguments else .failLog))
  | .processArguments => some (s.goto (if ok then .reactorInit else .failLog))
  | .reactorInit =>
    if ok then
      some { s.openFd .epoll with
        efd := some (s.fresh .epoll), objects := [], regs := [], quitting := false, pc := .pipe }
    else some (s.goto .failLog)
  | .pipe =>
    if ok then
      let s' := s.openFd .stopRead
      some { s'.openFd .stopWrite with
        stopPipe := (some (s.fresh .stopRead), some (s'.fresh .stopWrite)), stopBytes := 0, pc := .fcntl }
    else some (s.goto .failReactor)
  | .fcntl => some (s.goto (if ok then .addStopFd else .failPipe))
  | .addStopFd =>
    if ok then some ((s.attach .stopFd [.fileDescriptor]).goto .dup) else some (s.goto .failPipe)
  | .dup =>
    if ok then some { s.openFd .tun with dupFd := some (s.fresh .tun), pc := .tapInit }
    else some (s.goto .failStopfd)
  | .tapInit =>
    -- with `BTAP_INIT_FD`, `BTap_Init2` leaves the descriptor open when it fails
    if ok then
      s.dupFd.map fun fd => (s.btapInit2 .fd fd (frameMtu ((s.cfg.map (·.mtu)).getD 0))).goto .readInterface
    else some (s.goto .closeDup)
  | .closeDup => some ((s.closeFd s.dupFd).goto .failStopfd)
  | .readInterface => some ((s.attach .readInterface [.pending]).goto .readBuffer)
  | .readBuffer =>
    if ok then
      -- the first receive is a job of the device's output
      let s := { s with regs := s.regs ++ [Registration.mk .device .job] }
      some ((s.attach .readBuffer []).goto .udpClient)
    else some (s.goto .failTap)
  | .udpClient =>
    some { s.attach .udpClient [] with
      udpMtu := Tun2socks.udpMtu ((s.cfg.map (·.mtu)).getD 0) (s.cfg.any (·.netifIp6addr.isSome))
      pc := .initJob }
  | .initJob => some ((s.attach .initJob [.pending, .job]).goto .alloc)
  | .alloc =>
    if ok then some ((s.attach .writeBuf []).goto .tcpTimer)
    else some { s with allocFailed := true, pc := .failUdpmode }
  | .tcpTimer =>
    some { s.attach .tcpTimer [.timer] with
      haveNetif := false, listener := false, listenerIp6 := false, clients := [], numClients := 0,
      pc := .loop }
  | .loop => if s.quitting then some (s.goto .murder) else none
  | .murder =>
    match s.clients with
    | (k, c) :: _ => some (clientMurder s k c)
    | [] => some { s with haveNetif := false, listener := false, listenerIp6 := false, pc := .removeTimer }
  | .removeTimer => some ((s.release .tcpTimer).goto .freeWriteBuf)
  | .freeWriteBuf => some ((s.release .writeBuf).goto .freeInitJob)
  | .freeInitJob => some ((s.release .initJob).goto .freeUdpClient)
  | .freeUdpClient => some ((s.release .udpClient).goto .freeReadBuffer)
  | .freeReadBuffer => some ((s.release .readBuffer).goto .freeReadInterface)
  | .freeReadInterface => some ((s.release .readInterface).goto .freeTap)
  | .freeTap => some (s.btapFree.goto .removeStopFd)
  | .removeStopFd => some ((s.release .stopFd).goto .closeStopRead)
  | .closeStopRead => some ((s.closeFd s.stopPipe.1).goto .closeStopWrite)
  | .closeStopWrite => some ((s.closeFd s.stopPipe.2).goto .clearStopPipe)
  | .clearStopPipe => some { s with stopPipe := (none, none), pc := .freeReactor }
  | .freeReactor => some (s.reactorFree ndebug .succeed)
  | .succeed => some { s with result := some 0, pc := .idle }
  | .failUdpmode => some ((s.release .udpClient).goto .failReadBuffer)
  | .failReadBuffer => some ((s.release .readBuffer).goto .failTap)
  | .failTap => some ((s.release .readInterface).goto .failDevice)
  | .failDevice => some (s.btapFree.goto .failStopfd)
  | .failStopfd => some ((s.release .stopFd).goto .failPipe)
  | .failPipe => some ((s.closeFd s.stopPipe.1).goto .failPipeWrite)
  | .failPipeWrite => some ((s.closeFd s.stopPipe.2).goto .failClear)
  | .failClear => some { s with stopPipe := (none, none), pc := .failReactor }
  | .failReactor => some (s.reactorFree ndebug .failLog)
  | .failLog => some { s with result := some (-1), pc := .idle }

/-- A step of the caller, of the call or of its loop. -/
inductive Label where
  /-- A call of `tun2socks_bridge_run`; `none` is a null pointer. -/
  | run (cfg : Option BridgeConfig)
  /-- The call goes on. -/
  | next (ok : Bool)
  | event (e : LoopEvent)
  /-- `tun2socks_bridge_stop` tests `bridge_stop_pipe[1]`. -/
  | stopCall
  /-- It writes to `bridge_stop_pipe[1]`, which it reads again. -/
  | stopWrite
  deriving DecidableEq

/-- One step; `none` where it cannot be taken. -/
def step (ndebug : Bool) (s : State) (l : Label) : Option State :=
  if s.aborted then none
  else match l with
  | .run cfg =>
    if s.pc ≠ .idle then none
    else if cfg.any (·.accepted) then
      some { s with cfg := cfg, allocFailed := false, pc := .globalInit }
    else some { s with result := some (-1) }
  | .next ok => exec ndebug s ok
  | .event e => if s.pc = .loop ∧ s.quitting = false then handle s e else none
  | .stopCall => if s.stopPipe.2.isSome then some { s with stopping := s.stopping + 1 } else some s
  | .stopWrite =>
    if s.stopping = 0 then none
    else if s.stopPipe.2.isSome then some { s with stopping := s.stopping - 1, stopBytes := s.stopBytes + 1 }
    else some { s with stopping := s.stopping - 1 }

/-- Before the first call. -/
def init : State := {}

/-- What the service passes. -/
def bridgeConfig : BridgeConfig where
  tunFd := 42
  mtu := 1500
  netifIpaddr := some "10.0.0.1"
  netifNetmask := some "255.255.255.0"
  netifIp6addr := none
  socksServerAddr := some "127.0.0.1:1080"

end BypassVpn.Tun2socks
