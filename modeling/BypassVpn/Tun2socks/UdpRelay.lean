import Mathlib.Data.List.Nodup
import BypassVpn.Lib.Transition
import BypassVpn.Ciadpi.UdpTunnel

/-!
# Datagrams through tun2socks and ciadpi

The connections of a `SocksUdpClient`, one for each local address, each with its association in ciadpi, and the
datagrams between them. Sockets may lose datagrams; they do not reorder them.

* `Relay`, `Event`, `Relay.step`: one connection and its association; `Clients`, `Label`, `step`: all of them.
* **`relay_out`**: what is sent to the network, and where; **`relay_back`**: what comes back.
* **`relay_family`**: no datagram of the other address family gets through.
* **`relay_keyed`**: each local address has its own connection; **`dns_done`**: which connections end with a reply.
-/

namespace BypassVpn.UdpRelay

open Ciadpi UdpTunnel SocksUdpClient Transition

/-- A datagram and the address at its other end. -/
abbrev Dgram := SockaddrU × List UInt8

/-- A `SocksUdpClient_connection` and its association. -/
structure Relay where
  localAddr : SockaddrU
  /-- `first_data` until `first_job_handler` has run. -/
  first : Option Dgram
  dnsId : Option ℕ
  /-- The socket is bound. -/
  bound : Bool
  /-- The socket knows where to send. -/
  up : Bool
  sendBuffer : List (List UInt8)
  /-- `none` before the association is made, and after its end. -/
  assoc : Option Assoc
  toServer : List (List UInt8)
  toClient : List (List UInt8)
  /-- What the remote socket has received and `on_udp_tunnel` has not read. -/
  inbox : List Dgram
  /-- What the user has submitted, the packets `on_udp_tunnel` has read, and what was sent to the network. -/
  submitted : List Dgram
  served : List (List UInt8)
  sent : List (SockaddrU × Datagram)
  /-- What the remote socket has received, and what was passed to the user. -/
  arrived : List Dgram
  handed : List Dgram
  deriving DecidableEq

/-- What the two ends are configured with. -/
structure Params where
  maxConnections : ℕ
  udpMtu : ℕ
  /-- The family of the address of the SOCKS server. -/
  tcpFamily : Family
  addrs : AddrParams
  baddr : Family
  /-- The TTL of a new socket. -/
  socketTtl : Int
  defTtl : Int
  cfg : JniConfig
  /-- The buffer of ciadpi takes every datagram of the client. -/
  room : udpMtu + headerMax < (initParams defTtl cfg).params.bfsize

variable (P : Params)

/-- The parameters of ciadpi. -/
def Params.globals : Globals := initParams P.defTtl P.cfg

/-- The size of the buffers. -/
def Params.bfsize : ℕ := P.globals.params.bfsize

theorem Params.fits : P.udpMtu + headerMax < P.bfsize := P.room

/-- A callback of one connection or of its server, and how its calls turn out. -/
inductive Event
  | firstJob (room : Bool)
  | connected (bind : Bool)
  | associate
  | up
  | flush (lost : Bool)
  | serve (calls : ClientCalls)
  | arrive (src : SockaddrU) (data : List UInt8)
  | answer (call : Sent)
  | lose
  | receive
  | closeServer
  | free

/-- The event is a pending job. -/
def Event.isJob : Event → Bool
  | .firstJob _ => true
  | _ => false

/-- `connection_init`. -/
def Relay.init (localAddr remoteAddr : SockaddrU) (data : List UInt8) : Relay where
  localAddr := localAddr
  first := some (remoteAddr, data)
  dnsId := getDnsId remoteAddr data
  bound := false
  up := false
  sendBuffer := []
  assoc := none
  toServer := []
  toClient := []
  inbox := []
  submitted := [(remoteAddr, data)]
  served := []
  sent := []
  arrived := []
  handed := []

/-- `connection_send`; `room` says that the buffer takes another packet. -/
def Relay.send (r : Relay) (x : Dgram) (room : Bool) : Relay :=
  { r with
    dnsId := keepDnsId r.dnsId x.1 x.2
    sendBuffer := if room then r.sendBuffer ++ [udpForm x.1 x.2] else r.sendBuffer }

/-- The association ends: `on_udp_tunnel` returns `-1`, or the connection it belongs to is closed. -/
def Relay.endAssoc (r : Relay) : Relay := { r with assoc := none, inbox := [] }

/-- `recv_if_handler_send` for the packet `p`, and whether the connection stays. -/
def Relay.receive (r : Relay) (p : List UInt8) : Relay × Bool :=
  match recvIfHandlerSend P.udpMtu (p.take (P.udpMtu + headerMax)) with
  | none => (r, true)
  | some x =>
    let r := { r with handed := r.handed ++ [x] }
    if r.dnsId = none then (r, true)
    else if getDnsId x.1 x.2 = r.dnsId then (r, false)
    else ({ r with dnsId := none }, true)

/-- What an event does to a connection and its association, and whether the connection stays. -/
def Relay.step (r : Relay) : Event → Option (Relay × Bool)
  | .firstJob room => r.first.map fun x => ({ r.send x room with first := none }, true)
  | .connected bind =>
    -- the socket has the family of the local address, and is bound to the local address of the TCP connection
    if r.bound = false then some ({ r with bound := bind && r.localAddr.family == P.tcpFamily },
      bind && r.localAddr.family == P.tcpFamily)
    else none
  | .associate =>
    if r.bound = true ∧ r.up = false ∧ r.assoc = none then some ({ r with assoc := some (.init P.socketTtl) }, true)
    else none
  | .up => if r.bound = true ∧ r.up = false ∧ r.assoc.isSome then some ({ r with up := true }, true) else none
  | .flush lost =>
    match r.sendBuffer with
    | [] => none
    | p :: rest =>
      if r.up = true then
        some ({ r with sendBuffer := rest, toServer := if lost then r.toServer else r.toServer ++ [p] }, true)
      else none
  | .serve calls =>
    match r.assoc, r.toServer with
    | some as, p :: rest =>
      let r := { r with toServer := rest, served := r.served ++ [p] }
      match fromClient P.globals P.addrs P.baddr P.bfsize as p calls with
      | (none, sent) => some ({ r with sent := r.sent ++ sent }.endAssoc, true)
      | (some as, sent) => some ({ r with assoc := some as, sent := r.sent ++ sent }, true)
    | _, _ => none
  | .arrive src data =>
    match r.assoc with
    | none => none
    | some as =>
      -- a socket that is connected takes datagrams of its peer only
      if as.remote = none ∨ as.remote = some src then
        some ({ r with inbox := r.inbox ++ [(src, data)], arrived := r.arrived ++ [(src, data)] }, true)
      else none
  | .answer call =>
    match r.assoc, r.inbox with
    | some as, x :: rest =>
      let r := { r with
        inbox := rest
        assoc := some (as.remoteRound (x.2.take (P.bfsize - S_SIZE_I6)).length) }
      match fromRemote P.bfsize x.1 x.2, as.clientKnown, call with
      | some p, true, .ok => some ({ r with toClient := r.toClient ++ [p] }, true)
      | some _, true, .skipped => some (r, true)
      | _, _, _ => some (r.endAssoc, true)
    | _, _ => none
  | .lose =>
    match r.toClient with
    | [] => none
    | _ :: rest => some ({ r with toClient := rest }, true)
  | .receive =>
    match r.toClient with
    | [] => none
    | p :: rest => if r.bound = true then some ({ r with toClient := rest }.receive P p) else none
  | .closeServer => some (r.endAssoc, true)
  | .free => some (r, false)

/-! ### All connections -/

/-- A `SocksUdpClient`. -/
structure Clients where
  /-- `connections_tree`. -/
  conns : List Relay
  /-- The connections that were freed, and all that the user has submitted. -/
  freed : List Relay
  log : List (SockaddrU × Dgram)

/-- Before the first datagram. -/
def Clients.init : Clients := ⟨[], [], []⟩

/-- The device submits a datagram, or a connection takes a step. -/
inductive Label
  | submit (localAddr : SockaddrU) (x : Dgram) (room : Bool)
  | act (localAddr : SockaddrU) (e : Event)

/-- No job is pending: the reactor runs the jobs before it looks for events. -/
def Clients.idle (s : Clients) : Bool := s.conns.all fun r => r.first.isNone

/-- The connection of an address. -/
def find (s : Clients) (a : SockaddrU) : Option Relay := s.conns.find? fun r => r.localAddr = a

/-- The list with `r` in place of the connection of its address. -/
def put (s : Clients) (r : Relay) : List Relay := s.conns.map fun c => if c.localAddr = r.localAddr then r else c

/-- One step; `none` where it cannot be taken. -/
def step (s : Clients) : Label → Option Clients
  | .submit a x room =>
    -- `process_device_udp_packet` has checked the size; the kernel sends nothing to port zero
    if s.idle = true ∧ x.2.length ≤ P.udpMtu ∧ x.1.family = a.family ∧ x.1.port ≠ [0, 0] then
      let log := s.log ++ [(a, x)]
      match find s a with
      | none =>
        if P.maxConnections ≤ s.conns.length then some { s with log := log }
        else some { s with conns := s.conns ++ [.init a x.1 x.2], log := log }
      | some r => some { s with conns := put s { r.send x room with submitted := r.submitted ++ [x] }, log := log }
    else none
  | .act a e =>
    if s.idle = true ∨ e.isJob = true then
      (find s a).bind fun r => (r.step P e).map fun (r, stays) =>
        if stays then { s with conns := put s r }
        else { s with conns := s.conns.filter fun c => c.localAddr ≠ a, freed := s.freed ++ [r] }
    else none

/-! ### What holds of a connection -/

/-- A datagram of the user as a packet for ciadpi. -/
def form (x : Dgram) : List UInt8 := udpForm x.1 x.2

/-- The packet ciadpi makes of a datagram of the network. -/
def replyForm (x : Dgram) : List UInt8 := udpForm (mapFix x.1 false) (x.2.take (P.bfsize - S_SIZE_I6))

/-- What the user gets of it. -/
def deliver (x : Dgram) : Option Dgram := recvIfHandlerSend P.udpMtu ((replyForm P x).take (P.udpMtu + headerMax))

/-- The way out: `on_udp_tunnel` has read `read`, has sent `bursts` for it, and `pend` is on its way. -/
structure Out (r : Relay) (read pend : List Dgram) (bursts : List (List Datagram)) : Prop where
  served : r.served = read.map form
  queued : r.toServer ++ r.sendBuffer = pend.map form
  order : (read ++ (pend ++ r.first.toList)).Sublist r.submitted
  passed : List.Forall₂ (fun x ds => Burst P.globals x.2 ds) read bursts
  sent : ∀ x ∈ read.head?, r.sent = bursts.flatten.map fun d => (target P.baddr x.1, d)
  quiet : read = [] → r.sent = []
  remote : ∀ as ∈ r.assoc, as.remote = read.head?.map fun x => target P.baddr x.1

/-- The way back: `got` has come to the client, and `pend` is on its way. -/
structure Back (r : Relay) (got pend : List Dgram) : Prop where
  queued : r.toClient = pend.map (replyForm P)
  order : (got ++ (pend ++ r.inbox)).Sublist r.arrived
  handed : r.handed = got.filterMap (deliver P)

/-- A connection goes through its states in order. -/
structure Gate (r : Relay) : Prop where
  family : r.bound = true → r.localAddr.family = P.tcpFamily
  bound : r.up = true → r.bound = true
  down : r.up = false → r.toServer = [] ∧ r.served = []
  silent : r.served = [] → (∀ as ∈ r.assoc, as.clientKnown = false) ∧ r.toClient = [] ∧ r.handed = []

/-- A connection that still counts as one of the DNS has carried queries of one number, and no reply. -/
def Dns (r : Relay) : Prop :=
  ∀ i, r.dnsId = some i → (∀ x ∈ r.submitted, getDnsId x.1 x.2 = some i) ∧ r.handed = []

/-- What holds of a connection. -/
structure Good (r : Relay) : Prop where
  out : ∃ read pend bursts, Out P r read pend bursts
  back : ∃ got pend, Back P r got pend
  gate : Gate P r
  fit : ∀ x ∈ r.submitted, x.2.length ≤ P.udpMtu ∧ x.1.port ≠ [0, 0]

variable {P}

theorem good_init {a : SockaddrU} {x : Dgram} (hx : x.2.length ≤ P.udpMtu) (hp : x.1.port ≠ [0, 0]) :
    Good P (.init a x.1 x.2) where
  out := ⟨[], [], [], rfl, rfl, List.Sublist.refl _, .nil, by simp, fun _ => rfl, by simp [Relay.init]⟩
  back := ⟨[], [], rfl, List.Sublist.refl _, rfl⟩
  gate := ⟨by simp [Relay.init], by simp [Relay.init], fun _ => ⟨rfl, rfl⟩, fun _ => ⟨by simp [Relay.init], rfl, rfl⟩⟩
  fit := fun y hy => by rw [List.mem_singleton.mp hy]; exact ⟨hx, hp⟩

variable {r : Relay}

theorem Good.outOf (h : Good P r) {r' : Relay} (h₁ : r'.toServer ++ r'.sendBuffer = r.toServer ++ r.sendBuffer)
    (h₂ : r'.first = r.first) (h₃ : r'.submitted = r.submitted) (h₄ : r'.served = r.served) (h₅ : r'.sent = r.sent)
    (h₆ : ∀ as ∈ r'.assoc, ∃ as' ∈ r.assoc, as.remote = as'.remote) :
    ∃ read pend bursts, Out P r' read pend bursts := by
  obtain ⟨read, pend, bursts, hout⟩ := h.out
  refine ⟨read, pend, bursts, h₄.trans hout.served, h₁.trans hout.queued, ?_, hout.passed, ?_, ?_, fun as has => ?_⟩
  · rw [h₂, h₃]
    exact hout.order
  · rw [h₅]
    exact hout.sent
  · rw [h₅]
    exact hout.quiet
  · obtain ⟨as', has', heq⟩ := h₆ as has
    exact heq.trans (hout.remote as' has')

theorem Good.backOf (h : Good P r) {r' : Relay} (h₁ : r'.toClient = r.toClient)
    (h₂ : r'.inbox.Sublist r.inbox) (h₃ : r'.arrived = r.arrived) (h₄ : r'.handed = r.handed) :
    ∃ got pend, Back P r' got pend := by
  obtain ⟨got, pend, hback⟩ := h.back
  refine ⟨got, pend, h₁.trans hback.queued, ?_, h₄.trans hback.handed⟩
  rw [h₃]
  exact ((List.Sublist.refl got).append ((List.Sublist.refl pend).append h₂)).trans hback.order

theorem Good.submit (h : Good P r) (hfirst : r.first = none) {x : Dgram} (hx : x.2.length ≤ P.udpMtu)
    (hp : x.1.port ≠ [0, 0]) (room : Bool) : Good P { r.send x room with submitted := r.submitted ++ [x] } where
  out := by
    obtain ⟨read, pend, bursts, hout⟩ := h.out
    have horder := hout.order
    rw [hfirst, Option.toList_none, List.append_nil] at horder
    refine ⟨read, pend ++ if room then [x] else [], bursts, hout.served, ?_, ?_, hout.passed, hout.sent, hout.quiet,
      hout.remote⟩
    · cases room with
      | true =>
        simp only [Relay.send, if_pos]
        rw [← List.append_assoc, hout.queued, List.map_append]
        rfl
      | false =>
        simp only [Relay.send, Bool.false_eq_true, if_false, List.append_nil]
        exact hout.queued
    · simp only [Relay.send, hfirst, Option.toList_none, List.append_nil]
      rw [← List.append_assoc]
      refine horder.append ?_
      cases room with
      | true => exact List.Sublist.refl _
      | false => exact List.nil_sublist _
  back := h.backOf rfl (List.Sublist.refl _) rfl rfl
  gate := ⟨h.gate.family, h.gate.bound, h.gate.down, h.gate.silent⟩
  fit := by
    intro y hy
    rcases List.mem_append.mp hy with hy | hy
    · exact h.fit y hy
    · rw [List.mem_singleton.mp hy]
      exact ⟨hx, hp⟩

theorem Good.firstJob (h : Good P r) {x : Dgram} (hx : r.first = some x) (room : Bool) :
    Good P { r.send x room with first := none } where
  out := by
    obtain ⟨read, pend, bursts, hout⟩ := h.out
    have horder := hout.order
    rw [hx, Option.toList_some] at horder
    refine ⟨read, pend ++ if room then [x] else [], bursts, hout.served, ?_, ?_, hout.passed, hout.sent, hout.quiet,
      hout.remote⟩
    · cases room with
      | true =>
        simp only [Relay.send, if_pos]
        rw [← List.append_assoc, hout.queued, List.map_append]
        rfl
      | false =>
        simp only [Relay.send, Bool.false_eq_true, if_false, List.append_nil]
        exact hout.queued
    · refine List.Sublist.trans ?_ horder
      simp only [Option.toList_none, List.append_nil]
      refine (List.Sublist.refl _).append ((List.Sublist.refl _).append ?_)
      cases room with
      | true => exact List.Sublist.refl _
      | false => exact List.nil_sublist _
  back := h.backOf rfl (List.Sublist.refl _) rfl rfl
  gate := ⟨h.gate.family, h.gate.bound, h.gate.down, h.gate.silent⟩
  fit := h.fit

theorem Good.connected (h : Good P r) (hb : r.bound = false) (b : Bool)
    (hf : b = true → r.localAddr.family = P.tcpFamily) : Good P { r with bound := b } where
  out := h.outOf rfl rfl rfl rfl rfl fun as has => ⟨as, has, rfl⟩
  back := h.backOf rfl (List.Sublist.refl _) rfl rfl
  gate := ⟨hf, fun hu => absurd ((h.gate.bound hu).symm.trans hb) (by simp), h.gate.down, h.gate.silent⟩
  fit := h.fit

theorem Good.associate (h : Good P r) (hup : r.up = false) (ttl : Int) :
    Good P { r with assoc := some (.init ttl) } where
  out := by
    obtain ⟨read, pend, bursts, hout⟩ := h.out
    have hread : read = [] := List.map_eq_nil_iff.mp (hout.served.symm.trans (h.gate.down hup).2)
    refine ⟨read, pend, bursts, hout.served, hout.queued, hout.order, hout.passed, hout.sent, hout.quiet, ?_⟩
    rintro as ⟨⟩
    rw [hread]
    rfl
  back := h.backOf rfl (List.Sublist.refl _) rfl rfl
  gate := by
    refine ⟨h.gate.family, h.gate.bound, h.gate.down, fun hs => ⟨?_, (h.gate.silent hs).2⟩⟩
    rintro as ⟨⟩
    rfl
  fit := h.fit

theorem Good.up (h : Good P r) (hb : r.bound = true) : Good P { r with up := true } where
  out := h.outOf rfl rfl rfl rfl rfl fun as has => ⟨as, has, rfl⟩
  back := h.backOf rfl (List.Sublist.refl _) rfl rfl
  gate := ⟨h.gate.family, fun _ => hb, fun hu => absurd hu (by simp), h.gate.silent⟩
  fit := h.fit

theorem Good.flush (h : Good P r) (hup : r.up = true) {p : List UInt8} {rest : List (List UInt8)}
    (hq : r.sendBuffer = p :: rest) (lost : Bool) :
    Good P { r with sendBuffer := rest, toServer := if lost then r.toServer else r.toServer ++ [p] } where
  out := by
    cases lost with
    | false =>
      refine h.outOf ?_ rfl rfl rfl rfl fun as has => ⟨as, has, rfl⟩
      simp [hq]
    | true =>
      obtain ⟨read, pend, bursts, hout⟩ := h.out
      have hqueued := hout.queued
      rw [hq] at hqueued
      -- the packet is one of those on their way
      obtain ⟨as, bs, rfl, has, hbs⟩ := List.map_eq_append_iff.mp hqueued.symm
      obtain ⟨x, bs, rfl, -, hbs⟩ := List.map_eq_cons_iff.mp hbs
      refine ⟨read, as ++ bs, bursts, hout.served, ?_, ?_, hout.passed, hout.sent, hout.quiet, hout.remote⟩
      · rw [List.map_append, has, hbs]
        rfl
      · refine List.Sublist.trans ?_ hout.order
        exact (List.Sublist.refl _).append (((List.Sublist.refl _).append (List.sublist_cons_self _ _)).append
          (List.Sublist.refl _))
  back := h.backOf rfl (List.Sublist.refl _) rfl rfl
  gate := ⟨h.gate.family, h.gate.bound, fun hu => absurd (hup.symm.trans hu) (by simp), h.gate.silent⟩
  fit := h.fit

theorem Good.endAssoc (h : Good P r) : Good P r.endAssoc where
  out := h.outOf rfl rfl rfl rfl rfl fun as has => absurd has (by simp [Relay.endAssoc])
  back := h.backOf rfl (List.nil_sublist _) rfl rfl
  gate := ⟨h.gate.family, h.gate.bound, h.gate.down, fun hs => ⟨by simp [Relay.endAssoc], (h.gate.silent hs).2⟩⟩
  fit := h.fit

@[simp] theorem port_target (f : Family) (a : SockaddrU) : (target f a).port = a.port := by
  rw [target]
  split_ifs
  · exact port_mapFix a true
  · rfl

/-- The address the association is for is the one of the first datagram. -/
theorem Out.meant {read pend : List Dgram} {bursts : List (List Datagram)} (h : Out P r read pend bursts) {as : Assoc}
    (has : r.assoc = some as) (x : Dgram) :
    (read ++ [x]).head?.map (fun y => target P.baddr y.1) = some (as.meant P.baddr x.1) := by
  have hrem := h.remote as has
  cases read with
  | nil =>
    rw [List.head?_nil, Option.map_none] at hrem
    rw [Assoc.meant, hrem]
    rfl
  | cons y read =>
    rw [List.head?_cons, Option.map_some] at hrem
    rw [Assoc.meant, hrem]
    rfl

theorem Out.sent_meant {read pend : List Dgram} {bursts : List (List Datagram)} (h : Out P r read pend bursts)
    {as : Assoc} (has : r.assoc = some as) (x : Dgram) :
    r.sent = bursts.flatten.map fun d => (as.meant P.baddr x.1, d) := by
  have hmeant := h.meant has x
  cases read with
  | nil =>
    rw [h.quiet rfl, List.forall₂_nil_left_iff.mp h.passed]
    rfl
  | cons y read =>
    rw [List.cons_append, List.head?_cons, Option.map_some, Option.some.injEq] at hmeant
    rw [← hmeant]
    exact h.sent y rfl

/-- The datagram at the head of those on their way is read. -/
theorem Out.serve {read pend : List Dgram} {bursts : List (List Datagram)} (h : Out P r read pend bursts) {as : Assoc}
    (has : r.assoc = some as) {p : List UInt8} {rest : List (List UInt8)} (hq : r.toServer = p :: rest) :
    ∃ x pend', x ∈ r.submitted ∧ p = form x ∧
      ∀ o : RoundOutcome, Passes P.globals (as.meant P.baddr x.1) x.2 o → ∀ inbox : List Dgram, ∃ bursts',
        Out P { r with
          toServer := rest, served := r.served ++ [p], assoc := o.1, sent := r.sent ++ o.2, inbox := inbox }
          (read ++ [x]) pend' bursts' := by
  have hqueued := h.queued
  rw [hq, List.cons_append] at hqueued
  obtain ⟨x, pend', rfl, rfl, hpend'⟩ := List.map_eq_cons_iff.mp hqueued.symm
  have hmeant := h.meant has x
  have hmem : x ∈ r.submitted :=
    h.order.subset (List.mem_append_right _ (List.mem_append_left _ List.mem_cons_self))
  refine ⟨x, pend', hmem, rfl, fun o ho inbox => ?_⟩
  obtain ⟨ds, hburst, hds⟩ := ho.burst
  refine ⟨bursts ++ [ds], ?_, hpend'.symm, ?_, ?_, ?_, ?_, ?_⟩
  · dsimp only
    rw [h.served, List.map_append]
    rfl
  · dsimp only
    rw [List.append_assoc]
    exact h.order
  · exact List.rel_append h.passed (.cons hburst .nil)
  · intro y hy
    have htarget : target P.baddr y.1 = as.meant P.baddr x.1 := by
      rw [Option.mem_def.mp hy, Option.map_some, Option.some.injEq] at hmeant
      exact hmeant
    dsimp only
    rw [htarget, h.sent_meant has x, hds, List.flatten_append, List.map_append, List.flatten_singleton]
  · exact fun he => absurd he (by simp)
  · exact fun as' has' => (ho.remote as' has').trans hmeant.symm

theorem Good.up_of_toServer (h : Good P r) {p : List UInt8} {rest : List (List UInt8)} (hq : r.toServer = p :: rest) :
    r.up = true := by
  cases hu : r.up with
  | true => rfl
  | false => exact absurd (hq.symm.trans (h.gate.down hu).1) (by simp)

/-- The datagram is read, and sent on with its decoys, or not; the association may end, and with it the inbox goes. -/
theorem Good.serve (h : Good P r) {as : Assoc} (has : r.assoc = some as) {p : List UInt8}
    {rest : List (List UInt8)} (hq : r.toServer = p :: rest) (calls : ClientCalls) {inbox : List Dgram}
    (hin : inbox.Sublist r.inbox) {o : RoundOutcome}
    (ho : fromClient P.globals P.addrs P.baddr P.bfsize as p calls = o) :
    Good P { r with
      toServer := rest, served := r.served ++ [p], assoc := o.1, sent := r.sent ++ o.2, inbox := inbox } where
  out := by
    obtain ⟨read, pend, bursts, hout⟩ := h.out
    obtain ⟨x, pend', hx, rfl, hnext⟩ := hout.serve has hq
    have hfits : (udpForm x.1 x.2).length ≤ P.bfsize := by
      have := s5Size_le x.1.family
      have := (h.fit x hx).1
      have := P.fits
      rw [length_udpForm]
      omega
    have hset : ∀ b ∈ as.remote, b.port ≠ [0, 0] := by
      intro b hb
      rw [hout.remote as has] at hb
      obtain ⟨y, hy, rfl⟩ := Option.map_eq_some_iff.mp hb
      rw [port_target]
      exact (h.fit y (hout.order.subset (List.mem_append_left _ (List.mem_of_mem_head? hy)))).2
    have hpasses : Passes P.globals (as.meant P.baddr x.1) x.2 o :=
      ho ▸ fromClient_form (udpPacket_initParams P.defTtl P.cfg) hset hfits calls
    obtain ⟨bursts', hout'⟩ := hnext o hpasses inbox
    exact ⟨_, _, _, hout'⟩
  back := h.backOf rfl hin rfl rfl
  gate := by
    have hup := h.up_of_toServer hq
    refine ⟨h.gate.family, h.gate.bound, fun hu => absurd (hup.symm.trans hu) (by simp), fun hs => ?_⟩
    exact absurd hs (by simp)
  fit := h.fit

/-! ### The way back -/

theorem Good.arrive (h : Good P r) (x : Dgram) :
    Good P { r with inbox := r.inbox ++ [x], arrived := r.arrived ++ [x] } where
  out := h.outOf rfl rfl rfl rfl rfl fun as has => ⟨as, has, rfl⟩
  back := by
    obtain ⟨got, pend, hback⟩ := h.back
    refine ⟨got, pend, hback.queued, ?_, hback.handed⟩
    simp only [← List.append_assoc]
    have := hback.order.append (List.Sublist.refl [x])
    simpa only [List.append_assoc] using this
  gate := ⟨h.gate.family, h.gate.bound, h.gate.down, h.gate.silent⟩
  fit := h.fit

theorem Good.read (h : Good P r) {as : Assoc} (has : r.assoc = some as) {x : Dgram} {rest : List Dgram}
    (hq : r.inbox = x :: rest) (n : ℕ) : Good P { r with inbox := rest, assoc := some (as.remoteRound n) } where
  out := by
    refine h.outOf rfl rfl rfl rfl rfl ?_
    rintro _ ⟨⟩
    exact ⟨as, has, as.remote_remoteRound n⟩
  back := h.backOf rfl (by rw [hq]; exact List.sublist_cons_self _ _) rfl rfl
  gate := by
    refine ⟨h.gate.family, h.gate.bound, h.gate.down, fun hs => ⟨?_, (h.gate.silent hs).2⟩⟩
    rintro _ ⟨⟩
    exact (as.clientKnown_remoteRound n).trans ((h.gate.silent hs).1 as has)
  fit := h.fit

theorem Good.answer (h : Good P r) {as : Assoc} (has : r.assoc = some as) (hknown : as.clientKnown = true) {x : Dgram}
    {rest : List Dgram} (hq : r.inbox = x :: rest) {p : List UInt8} (hp : fromRemote P.bfsize x.1 x.2 = some p)
    (n : ℕ) :
    Good P { r with inbox := rest, assoc := some (as.remoteRound n), toClient := r.toClient ++ [p] } where
  out := (h.read has hq n).outOf rfl rfl rfl rfl rfl fun as has => ⟨as, has, rfl⟩
  back := by
    obtain ⟨got, pend, hback⟩ := h.back
    rw [fromRemote_eq] at hp
    refine ⟨got, pend ++ [x], ?_, ?_, hback.handed⟩
    · simp only [hback.queued, List.map_append, ← Option.some.inj hp]
      rfl
    · have := hback.order
      rw [hq] at this
      simpa only [List.append_assoc, List.singleton_append] using this
  gate := by
    refine ⟨h.gate.family, h.gate.bound, h.gate.down, fun hs => ?_⟩
    exact absurd (((h.gate.silent hs).1 as has).symm.trans hknown) (by simp)
  fit := h.fit

theorem Good.lose (h : Good P r) {p : List UInt8} {rest : List (List UInt8)} (hq : r.toClient = p :: rest) :
    Good P { r with toClient := rest } where
  out := h.outOf rfl rfl rfl rfl rfl fun as has => ⟨as, has, rfl⟩
  back := by
    obtain ⟨got, pend, hback⟩ := h.back
    obtain ⟨x, pend', rfl, -, hpend'⟩ := List.map_eq_cons_iff.mp (hback.queued.symm.trans hq)
    refine ⟨got, pend', hpend'.symm, ?_, hback.handed⟩
    exact ((List.Sublist.refl got).append (List.sublist_cons_self x _)).trans hback.order
  gate := by
    refine ⟨h.gate.family, h.gate.bound, h.gate.down, fun hs => ?_⟩
    exact absurd (hq.symm.trans (h.gate.silent hs).2.1) (by simp)
  fit := h.fit

theorem Good.receive (h : Good P r) {p : List UInt8} {rest : List (List UInt8)} (hq : r.toClient = p :: rest)
    {o : Option Dgram} (ho : recvIfHandlerSend P.udpMtu (p.take (P.udpMtu + headerMax)) = o) (d : Option ℕ) :
    Good P { r with toClient := rest, handed := r.handed ++ o.toList, dnsId := d } where
  out := h.outOf rfl rfl rfl rfl rfl fun as has => ⟨as, has, rfl⟩
  back := by
    obtain ⟨got, pend, hback⟩ := h.back
    obtain ⟨x, pend', rfl, rfl, hpend'⟩ := List.map_eq_cons_iff.mp (hback.queued.symm.trans hq)
    have hx : deliver P x = o := ho
    refine ⟨got ++ [x], pend', hpend'.symm, ?_, ?_⟩
    · have := hback.order
      simpa only [List.append_assoc, List.cons_append, List.nil_append] using this
    · simp only [List.filterMap_append, hback.handed, List.filterMap_cons, List.filterMap_nil, hx]
      cases o <;> rfl
  gate := by
    refine ⟨h.gate.family, h.gate.bound, h.gate.down, fun hs => ?_⟩
    exact absurd (hq.symm.trans (h.gate.silent hs).2.1) (by simp)
  fit := h.fit

/-! ### The steps of a connection -/

variable (P) in
theorem receive_cases (r : Relay) (p : List UInt8) :
    ∃ (o : Option Dgram) (d : Option ℕ) (stays : Bool),
      recvIfHandlerSend P.udpMtu (p.take (P.udpMtu + headerMax)) = o ∧
      r.receive P p = ({ r with handed := r.handed ++ o.toList, dnsId := d }, stays) ∧
      (stays = true → d = none ∨ d = r.dnsId ∧ o = none) ∧
      (stays = false → ∃ x i, o = some x ∧ r.dnsId = some i ∧ getDnsId x.1 x.2 = some i) := by
  rw [Relay.receive]
  cases ho : recvIfHandlerSend P.udpMtu (p.take (P.udpMtu + headerMax)) with
  | none => exact ⟨none, r.dnsId, true, rfl, by simp, fun _ => .inr ⟨rfl, rfl⟩, by simp⟩
  | some x =>
    dsimp only
    cases hd : r.dnsId with
    | none => exact ⟨some x, none, true, rfl, by simp, fun _ => .inl rfl, by simp⟩
    | some i =>
      by_cases hx : getDnsId x.1 x.2 = some i
      · refine ⟨some x, some i, false, rfl, ?_, by simp, fun _ => ⟨x, i, rfl, rfl, hx⟩⟩
        rw [if_neg (by simp), if_pos hx]
        simp
      · refine ⟨some x, none, true, rfl, ?_, fun _ => .inl rfl, by simp⟩
        rw [if_neg (by simp), if_neg hx]
        rfl

theorem keepDnsId_eq_some {d : Option ℕ} {a : SockaddrU} {data : List UInt8} {i : ℕ}
    (h : keepDnsId d a data = some i) : d = some i ∧ getDnsId a data = some i := by
  rw [keepDnsId] at h
  split_ifs at h with hc
  subst h
  exact ⟨rfl, by simpa using hc⟩

/-- What no event changes, and that a connection stops to count as one of the DNS once it has a reply. -/
structure Keeps (r r' : Relay) (stays : Bool) : Prop where
  localAddr : r'.localAddr = r.localAddr
  submitted : r'.submitted = r.submitted
  dns : stays = true → r'.dnsId = none ∨ r'.dnsId = r.dnsId ∧ r'.handed = r.handed

theorem keepDnsId_cases (d : Option ℕ) (a : SockaddrU) (data : List UInt8) :
    keepDnsId d a data = none ∨ keepDnsId d a data = d := by
  rw [keepDnsId]
  split_ifs
  · exact .inl rfl
  · exact .inr rfl

variable {r' : Relay} {stays : Bool}

theorem Keeps.same (ha : r'.localAddr = r.localAddr) (hs : r'.submitted = r.submitted)
    (hd : r'.dnsId = r.dnsId) (hh : r'.handed = r.handed) : Keeps r r' stays :=
  ⟨ha, hs, fun _ => .inr ⟨hd, hh⟩⟩

theorem Good.flush_step {lost : Bool} (h : Good P r) (hs : r.step P (.flush lost) = some (r', stays)) :
    Good P r' ∧ Keeps r r' stays := by
  rw [Relay.step] at hs
  cases hq : r.sendBuffer with
  | nil => rw [hq] at hs; exact absurd hs (by simp)
  | cons p rest =>
    rw [hq] at hs
    obtain ⟨hup, hs⟩ := Option.ite_none_right_eq_some.mp hs
    obtain ⟨rfl, -⟩ := Prod.mk.inj (Option.some.inj hs)
    exact ⟨h.flush hup hq lost, .same rfl rfl rfl rfl⟩

/-- The association serves a packet, and goes on or ends. -/
theorem Good.serve_step {calls : ClientCalls} (h : Good P r) (hs : r.step P (.serve calls) = some (r', stays)) :
    Good P r' ∧ Keeps r r' stays := by
  rw [Relay.step] at hs
  cases has : r.assoc with
  | none => rw [has] at hs; exact absurd hs (by simp)
  | some as =>
    cases hq : r.toServer with
    | nil => rw [has, hq] at hs; exact absurd hs (by simp)
    | cons p rest =>
      rw [has, hq] at hs
      dsimp only at hs
      cases hc : fromClient P.globals P.addrs P.baddr P.bfsize as p calls with
      | mk o sent =>
        rw [hc] at hs
        cases o with
        | none =>
          obtain ⟨rfl, -⟩ := Prod.mk.inj (Option.some.inj hs)
          exact ⟨h.serve has hq calls (List.nil_sublist _) hc, .same rfl rfl rfl rfl⟩
        | some as' =>
          obtain ⟨rfl, -⟩ := Prod.mk.inj (Option.some.inj hs)
          exact ⟨h.serve has hq calls (List.Sublist.refl _) hc, .same rfl rfl rfl rfl⟩

theorem Good.arrive_step {src : SockaddrU} {data : List UInt8} (h : Good P r)
    (hs : r.step P (.arrive src data) = some (r', stays)) : Good P r' ∧ Keeps r r' stays := by
  rw [Relay.step] at hs
  cases has : r.assoc with
  | none => rw [has] at hs; exact absurd hs (by simp)
  | some as =>
    rw [has] at hs
    obtain ⟨_, hs⟩ := Option.ite_none_right_eq_some.mp hs
    obtain ⟨rfl, -⟩ := Prod.mk.inj (Option.some.inj hs)
    have hgood := h.arrive (src, data)
    rw [has] at hgood
    exact ⟨hgood, .same rfl rfl rfl rfl⟩

/-- A datagram of the network is passed to the client, only read, or ends the association. -/
theorem Good.answer_step {call : Sent} (h : Good P r) (hs : r.step P (.answer call) = some (r', stays)) :
    Good P r' ∧ Keeps r r' stays := by
  rw [Relay.step] at hs
  cases has : r.assoc with
  | none => rw [has] at hs; exact absurd hs (by simp)
  | some as =>
    cases hq : r.inbox with
    | nil => rw [has, hq] at hs; exact absurd hs (by simp)
    | cons x rest =>
      rw [has, hq] at hs
      dsimp only at hs
      split at hs
      · rename_i hp hknown
        obtain ⟨rfl, -⟩ := Prod.mk.inj (Option.some.inj hs)
        exact ⟨h.answer has hknown hq hp _, .same rfl rfl rfl rfl⟩
      · obtain ⟨rfl, -⟩ := Prod.mk.inj (Option.some.inj hs)
        exact ⟨h.read has hq _, .same rfl rfl rfl rfl⟩
      · obtain ⟨rfl, -⟩ := Prod.mk.inj (Option.some.inj hs)
        exact ⟨(h.read has hq _).endAssoc, .same rfl rfl rfl rfl⟩

/-- A reply is handed to the user: a connection that stays is no longer one of the DNS. -/
theorem Good.receive_step (h : Good P r) (hs : r.step P .receive = some (r', stays)) :
    Good P r' ∧ Keeps r r' stays := by
  rw [Relay.step] at hs
  cases hq : r.toClient with
  | nil => rw [hq] at hs; exact absurd hs (by simp)
  | cons p rest =>
    rw [hq] at hs
    obtain ⟨_, hs⟩ := Option.ite_none_right_eq_some.mp hs
    obtain ⟨o, d, stays', ho, hrec, hstays, -⟩ := receive_cases P { r with toClient := rest } p
    rw [hrec] at hs
    obtain ⟨rfl, rfl⟩ := Prod.mk.inj (Option.some.inj hs)
    refine ⟨h.receive hq ho d, rfl, rfl, fun hst => (hstays hst).imp_right fun hd => ⟨hd.1, ?_⟩⟩
    rw [hd.2]
    exact List.append_nil _

/-- **What holds of a connection is kept by every event.** -/
theorem good_step (h : Good P r) {e : Event} (hs : r.step P e = some (r', stays)) :
    Good P r' ∧ Keeps r r' stays := by
  cases e with
  | firstJob room =>
    obtain ⟨x, hx, heq⟩ := Option.map_eq_some_iff.mp hs
    obtain ⟨rfl, -⟩ := Prod.mk.inj heq
    exact ⟨h.firstJob hx room, rfl, rfl, fun _ => (keepDnsId_cases _ _ _).imp_right fun hd => ⟨hd, rfl⟩⟩
  | connected bind =>
    obtain ⟨hb, hs⟩ := Option.ite_none_right_eq_some.mp hs
    obtain ⟨rfl, -⟩ := Prod.mk.inj (Option.some.inj hs)
    exact ⟨h.connected hb _ fun hbind => beq_iff_eq.mp (Bool.and_eq_true_iff.mp hbind).2, .same rfl rfl rfl rfl⟩
  | associate =>
    obtain ⟨⟨_, hup, _⟩, hs⟩ := Option.ite_none_right_eq_some.mp hs
    obtain ⟨rfl, -⟩ := Prod.mk.inj (Option.some.inj hs)
    exact ⟨h.associate hup _, .same rfl rfl rfl rfl⟩
  | up =>
    obtain ⟨⟨hb, _, _⟩, hs⟩ := Option.ite_none_right_eq_some.mp hs
    obtain ⟨rfl, -⟩ := Prod.mk.inj (Option.some.inj hs)
    exact ⟨h.up hb, .same rfl rfl rfl rfl⟩
  | flush lost => exact h.flush_step hs
  | serve calls => exact h.serve_step hs
  | arrive src data => exact h.arrive_step hs
  | answer call => exact h.answer_step hs
  | lose =>
    rw [Relay.step] at hs
    cases hq : r.toClient with
    | nil => rw [hq] at hs; exact absurd hs (by simp)
    | cons p rest =>
      rw [hq] at hs
      obtain ⟨rfl, -⟩ := Prod.mk.inj (Option.some.inj hs)
      exact ⟨h.lose hq, .same rfl rfl rfl rfl⟩
  | receive => exact h.receive_step hs
  | closeServer =>
    obtain ⟨rfl, -⟩ := Prod.mk.inj (Option.some.inj hs)
    exact ⟨h.endAssoc, .same rfl rfl rfl rfl⟩
  | free =>
    obtain ⟨rfl, -⟩ := Prod.mk.inj (Option.some.inj hs)
    exact ⟨h, .same rfl rfl rfl rfl⟩

theorem Dns.step (h : Dns r) (hk : Keeps r r' true) : Dns r' := by
  intro i hi
  rcases hk.dns rfl with hd | ⟨hd, hh⟩
  · exact absurd (hi.symm.trans hd) (by simp)
  · rw [hk.submitted, hh]
    exact h i (hd.symm.trans hi)

theorem Dns.submit (h : Dns r) (x : Dgram) (room : Bool) :
    Dns { r.send x room with submitted := r.submitted ++ [x] } := by
  intro i hi
  obtain ⟨hd, hx⟩ := keepDnsId_eq_some hi
  refine ⟨fun y hy => ?_, (h i hd).2⟩
  rcases List.mem_append.mp hy with hy | hy
  · exact (h i hd).1 y hy
  · rw [List.mem_singleton.mp hy]
    exact hx

theorem dns_init (a : SockaddrU) (x : Dgram) : Dns (.init a x.1 x.2) :=
  fun _ hi => ⟨fun _ hy => by rw [List.mem_singleton.mp hy]; exact hi, rfl⟩

/-! ### Runs -/

/-- What the user has submitted from `a`. -/
def Clients.from (s : Clients) (a : SockaddrU) : List Dgram := (s.log.filter fun l => l.1 = a).map Prod.snd

variable (P)

/-- What holds of all connections. -/
structure Inv (s : Clients) : Prop where
  good : ∀ r ∈ s.conns ++ s.freed, Good P r
  dns : ∀ r ∈ s.conns, Dns r
  keyed : (s.conns.map Relay.localAddr).Nodup
  few : s.conns.length ≤ P.maxConnections
  logged : ∀ r ∈ s.conns ++ s.freed, r.submitted.Sublist (s.from r.localAddr)

variable {P} {s : Clients} {a : SockaddrU}

theorem find_some (h : find s a = some r) : r ∈ s.conns ∧ r.localAddr = a :=
  ⟨List.mem_of_find?_eq_some h, by simpa using List.find?_some h⟩

theorem find_none (h : find s a = none) : ∀ r ∈ s.conns, r.localAddr ≠ a := by
  simpa using List.find?_eq_none.mp h

theorem mem_put {r c : Relay} (h : c ∈ put s r) : c = r ∨ c ∈ s.conns := by
  obtain ⟨d, hd, rfl⟩ := List.mem_map.mp h
  split_ifs
  · exact .inl rfl
  · exact .inr hd

theorem localAddr_put (s : Clients) (r : Relay) :
    (put s r).map Relay.localAddr = s.conns.map Relay.localAddr := by
  rw [put, List.map_map]
  refine List.map_congr_left fun c _ => ?_
  rw [Function.comp]
  split_ifs with h
  · exact h.symm
  · rfl

theorem length_put (s : Clients) (r : Relay) : (put s r).length = s.conns.length := List.length_map _

theorem from_sublist (s : Clients) (a : SockaddrU) (l : SockaddrU × Dgram) :
    (s.from a).Sublist ({ s with log := s.log ++ [l] }.from a) := by
  rw [Clients.from, Clients.from, List.filter_append, List.map_append]
  exact List.sublist_append_left _ _

theorem from_submit (s : Clients) (a : SockaddrU) (x : Dgram) :
    { s with log := s.log ++ [(a, x)] }.from a = s.from a ++ [x] := by
  rw [Clients.from, Clients.from, List.filter_append, List.map_append]
  simp

theorem idle_first (h : s.idle = true) : ∀ r ∈ s.conns, r.first = none := fun r hr =>
  Option.isNone_iff_eq_none.mp (List.all_eq_true.mp h r hr)

theorem inv_init : Inv P .init :=
  ⟨by simp [Clients.init], by simp [Clients.init], by simp [Clients.init], Nat.zero_le _, by simp [Clients.init]⟩

theorem Inv.put (h : Inv P s) {r : Relay} (hg : Good P r) (hd : Dns r) {log : List (SockaddrU × Dgram)}
    (hlog : ∀ b, (s.from b).Sublist ({ s with log := log }.from b))
    (hr : r.submitted.Sublist ({ s with log := log }.from r.localAddr)) :
    Inv P { s with conns := UdpRelay.put s r, log := log } where
  good := by
    intro c hc
    rcases List.mem_append.mp hc with hc | hc
    · rcases mem_put hc with rfl | hc
      · exact hg
      · exact h.good c (List.mem_append_left _ hc)
    · exact h.good c (List.mem_append_right _ hc)
  dns := by
    intro c hc
    rcases mem_put hc with rfl | hc
    · exact hd
    · exact h.dns c hc
  keyed := by
    have := h.keyed
    rwa [← localAddr_put s r] at this
  few := by
    have := h.few
    rwa [← length_put s r] at this
  logged := by
    intro c hc
    rcases List.mem_append.mp hc with hc | hc
    · rcases mem_put hc with rfl | hc
      · exact hr
      · exact (h.logged c (List.mem_append_left _ hc)).trans (hlog _)
    · exact (h.logged c (List.mem_append_right _ hc)).trans (hlog _)

theorem Inv.opens (h : Inv P s) {x : Dgram} (hg : Good P (.init a x.1 x.2)) (hf : find s a = none)
    (hfull : s.conns.length < P.maxConnections) :
    Inv P { s with conns := s.conns ++ [.init a x.1 x.2], log := s.log ++ [(a, x)] } := by
  have hmem : ∀ c ∈ s.conns ++ [Relay.init a x.1 x.2] ++ s.freed,
      c = .init a x.1 x.2 ∨ c ∈ s.conns ++ s.freed := by
    intro c hc
    simp only [List.mem_append, List.mem_singleton] at hc ⊢
    tauto
  refine ⟨fun c hc => ?_, fun c hc => ?_, ?_, ?_, fun c hc => ?_⟩
  · rcases hmem c hc with rfl | hc
    · exact hg
    · exact h.good c hc
  · rcases List.mem_append.mp hc with hc | hc
    · exact h.dns c hc
    · rw [List.mem_singleton.mp hc]
      exact dns_init a x
  · rw [List.map_append, List.nodup_append]
    refine ⟨h.keyed, by simp, ?_⟩
    rintro b hb _ hb' rfl
    obtain ⟨c, hc, rfl⟩ := List.mem_map.mp hb
    exact find_none hf c hc (List.mem_singleton.mp hb')
  · rw [List.length_append]
    exact Nat.succ_le_of_lt hfull
  · rcases hmem c hc with rfl | hc
    · have hlast := List.sublist_append_right (s.from a) [x]
      rw [← from_submit] at hlast
      exact hlast
    · exact (h.logged c hc).trans (from_sublist s _ (a, x))

theorem Inv.frees (h : Inv P s) (hg : Good P r') (hr : r'.submitted.Sublist (s.from r'.localAddr)) (a : SockaddrU) :
    Inv P { s with conns := s.conns.filter fun c => c.localAddr ≠ a, freed := s.freed ++ [r'] } := by
  have hmem : ∀ c ∈ (s.conns.filter fun c => c.localAddr ≠ a) ++ (s.freed ++ [r']),
      c = r' ∨ c ∈ s.conns ++ s.freed := by
    intro c hc
    simp only [List.mem_append, List.mem_filter, List.mem_singleton] at hc ⊢
    tauto
  refine ⟨fun c hc => ?_, fun c hc => h.dns c (List.mem_of_mem_filter hc), ?_, ?_, fun c hc => ?_⟩
  · rcases hmem c hc with rfl | hc
    · exact hg
    · exact h.good c hc
  · exact h.keyed.sublist (List.filter_sublist.map _)
  · exact (List.length_filter_le _ _).trans h.few
  · rcases hmem c hc with rfl | hc
    · exact hr
    · exact h.logged c hc

theorem inv_step {s' : Clients} {l : Label} (h : Inv P s) (hs : step P s l = some s') : Inv P s' := by
  cases l with
  | submit a x room =>
    obtain ⟨⟨hidle, hsize, -, hport⟩, hs⟩ := Option.ite_none_right_eq_some.mp hs
    dsimp only at hs
    have hgrow : ∀ b, (s.from b).Sublist ({ s with log := s.log ++ [(a, x)] }.from b) :=
      fun b => from_sublist s b (a, x)
    cases hf : find s a with
    | none =>
      rw [hf] at hs
      dsimp only at hs
      split_ifs at hs with hfull
      · obtain rfl := Option.some.inj hs
        exact ⟨h.good, h.dns, h.keyed, h.few, fun c hc => (h.logged c hc).trans (hgrow _)⟩
      · obtain rfl := Option.some.inj hs
        exact h.opens (good_init hsize hport) hf (Nat.lt_of_not_le hfull)
    | some r =>
      rw [hf] at hs
      obtain rfl := Option.some.inj hs
      obtain ⟨hr, rfl⟩ := find_some hf
      have hgood := (h.good r (List.mem_append_left _ hr)).submit (idle_first hidle r hr) hsize hport room
      refine h.put hgood ((h.dns r hr).submit x room) hgrow ?_
      have hlast := (h.logged r (List.mem_append_left _ hr)).append (List.Sublist.refl [x])
      rw [← from_submit] at hlast
      exact hlast
  | act a e =>
    obtain ⟨_, hs⟩ := Option.ite_none_right_eq_some.mp hs
    obtain ⟨r, hf, hs⟩ := Option.bind_eq_some_iff.mp hs
    obtain ⟨⟨r', stays⟩, he, hs⟩ := Option.map_eq_some_iff.mp hs
    obtain ⟨hr, rfl⟩ := find_some hf
    have hr' := List.mem_append_left s.freed hr
    obtain ⟨hgood, hkeeps⟩ := good_step (h.good r hr') he
    have hlog : r'.submitted.Sublist (s.from r'.localAddr) := by
      rw [hkeeps.submitted, hkeeps.localAddr]
      exact h.logged r hr'
    cases stays with
    | true =>
      obtain rfl := hs.symm
      exact h.put hgood ((h.dns r hr).step hkeeps) (fun _ => List.Sublist.refl _) hlog
    | false =>
      obtain rfl := hs.symm
      exact h.frees hgood hlog _

theorem inv_of_reachable (h : Reachable (step P) .init anyStep s) : Inv P s :=
  h.invariant inv_init fun _ _ _ _ hi _ hs => inv_step hi hs

/-! ### What comes of the datagrams -/

/-- The preset `universal` asks for one decoy. -/
def sampleParams : Params where
  maxConnections := 256
  udpMtu := 1472
  tcpFamily := .AF_INET
  addrs := ⟨true, true, fun _ => none⟩
  baddr := .AF_INET6
  socketTtl := 64
  defTtl := 64
  cfg := ciadpiStart .arm64V8a (ciadpiArgs (loadPreset "universal") "" true)
  room := by decide

/-- The address of a client. -/
def sampleLocal : SockaddrU := ⟨.AF_INET, [10, 0, 0, 2], [0x9c, 0x40], rfl, rfl⟩

/-- A host of the network, and its DNS port. -/
def sampleHost (n : UInt8) : SockaddrU := ⟨.AF_INET, [192, 0, 2, n], [0, 53], rfl, rfl⟩

/-- Every call succeeds. -/
def sampleCalls : ClientCalls := ⟨true, true, .good, false⟩

/-- Two datagrams from one port to two hosts; the first host answers. -/
def sampleLabels : List Label :=
  [.submit sampleLocal (sampleHost 1, [0, 7, 1]) true, .act sampleLocal (.firstJob true),
    .act sampleLocal (.connected true), .act sampleLocal .associate, .act sampleLocal .up,
    .act sampleLocal (.flush false), .submit sampleLocal (sampleHost 2, [0, 7, 2]) true,
    .act sampleLocal (.flush false), .act sampleLocal (.serve sampleCalls),
    .act sampleLocal (.serve sampleCalls), .act sampleLocal (.arrive (mapFix (sampleHost 1) true) [0, 7, 9]),
    .act sampleLocal (.answer .ok)]

/-- What is sent for them: a decoy and the datagram, twice. -/
def sampleSent : List (SockaddrU × Datagram) :=
  [⟨[], 6⟩, ⟨[0, 7, 1], 64⟩, ⟨[], 6⟩, ⟨[0, 7, 2], 64⟩].map fun d => (mapFix (sampleHost 1) true, d)

theorem reachable_sample :
    ∃ s, Reachable (step sampleParams) .init anyStep s ∧
      s.conns.map (fun r => (r.localAddr, r.sent)) = [(sampleLocal, sampleSent)] :=
  reachable_of_run (step sampleParams) .init anyStep_of_true sampleLabels
    (fun s => s.conns.map fun r => (r.localAddr, r.sent)) (by decide +kernel)

/-- **A user with one address at the other end** has its datagrams sent there. -/
theorem relay_single (h : Reachable (step P) .init anyStep s) {r : Relay} (hr : r ∈ s.conns ++ s.freed)
    {b : SockaddrU} (hb : ∀ x ∈ s.from r.localAddr, x.1 = b) :
    ∃ (read : List Dgram) (bursts : List (List Datagram)), read.Sublist (s.from r.localAddr) ∧
      List.Forall₂ (fun x ds => Burst P.globals x.2 ds) read bursts ∧
      r.sent = bursts.flatten.map fun d => (target P.baddr b, d) := by
  have hinv := inv_of_reachable h
  obtain ⟨read, pend, bursts, hout⟩ := (hinv.good r hr).out
  have hread : read.Sublist (s.from r.localAddr) :=
    (List.sublist_append_left _ _).trans (hout.order.trans (hinv.logged r hr))
  refine ⟨read, bursts, hread, hout.passed, ?_⟩
  cases read with
  | nil =>
    rw [hout.quiet rfl, List.forall₂_nil_left_iff.mp hout.passed]
    rfl
  | cons x read =>
    rw [← hb x (hread.subset List.mem_cons_self)]
    exact hout.sent x rfl

/-- What the user gets of a datagram of the network. -/
def Gets (P : Params) (x : Dgram) : Option Dgram :=
  if x.2.length ≤ P.udpMtu then some (mapFix x.1 false, x.2)
  else if (mapFix x.1 false).family = .AF_INET6 then some (mapFix x.1 false, x.2.take P.udpMtu)
  else none

theorem deliver_eq (x : Dgram) : deliver P x = Gets P x := by
  have hfits := P.fits
  rw [deliver, replyForm, Gets]
  generalize mapFix x.1 false = a
  have hmax : headerMax = 22 := rfl
  have hsize : S_SIZE_I6 = 22 := rfl
  cases hf : a.family with
  | AF_INET6 =>
    have h6 : a.family.s5Size = headerMax := by
      rw [hf]
      rfl
    rw [Nat.add_comm, ← h6, udpForm_take, recvIfHandlerSend_form, List.take_take,
      Nat.min_eq_left (by omega), if_neg (by rw [List.length_take]; omega), if_pos rfl]
    split_ifs with hle
    · rw [List.take_of_length_le hle]
    · rfl
  | AF_INET =>
    have h4 : P.udpMtu + headerMax = a.family.s5Size + (P.udpMtu + 12) := by
      rw [hf, hmax]
      have : Family.s5Size .AF_INET = 10 := rfl
      omega
    rw [h4, udpForm_take, recvIfHandlerSend_form, List.take_take]
    have hlen : (x.2.take (min (P.udpMtu + 12) (P.bfsize - S_SIZE_I6))).length > P.udpMtu ↔ ¬x.2.length ≤ P.udpMtu := by
      rw [List.length_take]
      omega
    by_cases hle : x.2.length ≤ P.udpMtu
    · rw [if_neg (fun hc => hlen.mp hc hle), if_pos hle, List.take_of_length_le (by omega)]
    · rw [if_pos (hlen.mpr hle), if_neg hle, if_neg (by simp)]

/-- **The way back.** What the user gets are datagrams of the network with the address they came from, in their order
and none twice. One that is too long is dropped, or cut where it came from an IPv6 address. -/
theorem relay_back (h : Reachable (step P) .init anyStep s) {r : Relay} (hr : r ∈ s.conns ++ s.freed) :
    ∃ got : List Dgram, got.Sublist r.arrived ∧ r.handed = got.filterMap (Gets P) := by
  obtain ⟨got, pend, hback⟩ := ((inv_of_reachable h).good r hr).back
  refine ⟨got, (List.sublist_append_left _ _).trans hback.order, hback.handed.trans ?_⟩
  exact List.filterMap_congr fun x _ => deliver_eq x

/-- The reply of the first host is passed to the user. -/
theorem relay_back_sample :
    ∃ r : Relay, r.localAddr = sampleLocal ∧ r.handed = [(sampleHost 1, [0, 7, 9])] ∧
      ∃ got : List Dgram, got.Sublist r.arrived ∧ r.handed = got.filterMap (Gets sampleParams) := by
  obtain ⟨s, hs, hb⟩ := reachable_of_run (step sampleParams) .init anyStep_of_true
    (sampleLabels ++ [.act sampleLocal .receive]) (b := [(sampleLocal, [(sampleHost 1, [0, 7, 9])])])
    (fun s => s.freed.map fun r => (r.localAddr, r.handed)) (by decide +kernel)
  obtain ⟨r, hr⟩ := List.map_eq_singleton_iff.mp hb
  obtain ⟨hl, hhanded⟩ := Prod.mk.inj hr.2
  exact ⟨r, hl, hhanded, relay_back hs (List.mem_append_right _ (by simp [hr.1] : r ∈ s.freed))⟩

/-- **No datagram of the other address family gets through**: its socket cannot be bound to the local address of the
connection to the SOCKS server, so that `connected` frees its connection, as it was. -/
theorem relay_family (h : Reachable (step P) .init anyStep s) {r : Relay} (hr : r ∈ s.conns ++ s.freed)
    (hf : r.localAddr.family ≠ P.tcpFamily) :
    (r.toServer = [] ∧ r.served = [] ∧ r.sent = [] ∧ r.handed = []) ∧
      ∀ bind s', r ∈ s.conns → step P s (.act r.localAddr (.connected bind)) = some s' →
        s'.freed = s.freed ++ [r] ∧ ∀ c ∈ s'.conns, c.localAddr ≠ r.localAddr := by
  have hinv := inv_of_reachable h
  have hgood := hinv.good r hr
  have hbound : r.bound = false := by
    cases hb : r.bound with
    | false => rfl
    | true => exact absurd (hgood.gate.family hb) hf
  have hup : r.up = false := by
    cases hu : r.up with
    | false => rfl
    | true => exact absurd ((hgood.gate.bound hu).symm.trans hbound) (by simp)
  obtain ⟨htoServer, hserved⟩ := hgood.gate.down hup
  obtain ⟨read, pend, bursts, hout⟩ := hgood.out
  have hread : read = [] := List.map_eq_nil_iff.mp (hout.served.symm.trans hserved)
  refine ⟨⟨htoServer, hserved, hout.quiet hread, (hgood.gate.silent hserved).2.2⟩, fun bind s' hconns hs => ?_⟩
  obtain ⟨_, hs⟩ := Option.ite_none_right_eq_some.mp hs
  obtain ⟨c, hfind, hs⟩ := Option.bind_eq_some_iff.mp hs
  obtain ⟨hc, ha⟩ := find_some hfind
  obtain rfl : c = r := List.inj_on_of_nodup_map hinv.keyed hc hconns ha
  have hstep : c.step P (.connected bind) = some (c, false) := by
    have hfamily : (c.localAddr.family == P.tcpFamily) = false := beq_false_of_ne hf
    rw [Relay.step, if_pos hbound, hfamily, Bool.and_false, ← hbound]
  rw [hstep] at hs
  obtain rfl := Option.some.inj hs
  exact ⟨rfl, fun d hd => by simpa using (List.mem_filter.mp hd).2⟩

/-- An IPv6 datagram: its connection goes when the TCP connection is there. -/
theorem relay_family_sample :
    ∃ (s s' : Clients) (r : Relay), r.localAddr = mapFix sampleLocal true ∧ r ∈ s.conns ∧
      step sampleParams s (.act r.localAddr (.connected true)) = some s' ∧ s'.freed = s.freed ++ [r] ∧
      r.toServer = [] ∧ r.served = [] ∧ r.sent = [] ∧ r.handed = [] ∧ ∀ c ∈ s'.conns, c.localAddr ≠ r.localAddr := by
  obtain ⟨s, hs, hb⟩ := reachable_of_run (step sampleParams) .init anyStep_of_true
    [.submit (mapFix sampleLocal true) (mapFix (sampleHost 1) true, [1]) true,
      .act (mapFix sampleLocal true) (.firstJob true)]
    (b := ([mapFix sampleLocal true], true)) (fun s => (s.conns.map Relay.localAddr,
      (step sampleParams s (.act (mapFix sampleLocal true) (.connected true))).isSome)) (by decide +kernel)
  obtain ⟨hb, hstep⟩ := Prod.mk.inj hb
  obtain ⟨r, hr, hl⟩ := List.map_eq_singleton_iff.mp hb
  obtain ⟨s', hs'⟩ := Option.isSome_iff_exists.mp hstep
  have hmem : r ∈ s.conns := by simp [hr]
  rw [← hl] at hs'
  obtain ⟨⟨h₁, h₂, h₃, h₄⟩, hfree⟩ := relay_family hs (List.mem_append_left _ hmem) (by rw [hl]; decide)
  obtain ⟨hfreed, hconns⟩ := hfree true s' hmem hs'
  exact ⟨s, s', r, hl, hmem, hs', hfreed, h₁, h₂, h₃, h₄, hconns⟩

/-- Each local address has one connection, and there are not too many. -/
theorem relay_keyed (h : Reachable (step P) .init anyStep s) :
    (s.conns.map Relay.localAddr).Nodup ∧ s.conns.length ≤ P.maxConnections :=
  ⟨(inv_of_reachable h).keyed, (inv_of_reachable h).few⟩

/-- **A connection ends with a reply only if it was one of the DNS**: all that was submitted on it were queries of the
number that the reply has, and it is the first reply. -/
theorem dns_done (h : Reachable (step P) .init anyStep s) {r : Relay} (hr : r ∈ s.conns) {s' : Clients}
    (hs : step P s (.act r.localAddr .receive) = some s') (hend : ∀ c ∈ s'.conns, c.localAddr ≠ r.localAddr) :
    ∃ i x r', (∀ y ∈ r.submitted, getDnsId y.1 y.2 = some i) ∧ r.handed = [] ∧ s'.freed = s.freed ++ [r'] ∧
      r'.handed = [x] ∧ getDnsId x.1 x.2 = some i := by
  have hinv := inv_of_reachable h
  obtain ⟨_, hs⟩ := Option.ite_none_right_eq_some.mp hs
  obtain ⟨c, hf, hs⟩ := Option.bind_eq_some_iff.mp hs
  obtain ⟨⟨r', stays⟩, he, hs⟩ := Option.map_eq_some_iff.mp hs
  obtain ⟨hc, ha⟩ := find_some hf
  obtain rfl : c = r := List.inj_on_of_nodup_map hinv.keyed hc hr ha
  -- a connection that stays is among those of the next state
  obtain rfl : stays = false := by
    cases stays with
    | false => rfl
    | true =>
      obtain rfl := hs
      have hkeeps := (good_step (hinv.good c (List.mem_append_left _ hc)) he).2
      refine absurd hkeeps.localAddr (hend r' (List.mem_map.mpr ⟨c, hc, if_pos hkeeps.localAddr.symm⟩))
  obtain rfl := hs
  rw [Relay.step] at he
  cases hq : c.toClient with
  | nil => rw [hq] at he; exact absurd he (by simp)
  | cons p rest =>
    rw [hq] at he
    obtain ⟨_, he⟩ := Option.ite_none_right_eq_some.mp he
    obtain ⟨o, d, b, _, hrec, -, hdns⟩ := receive_cases P { c with toClient := rest } p
    rw [hrec] at he
    obtain ⟨rfl, rfl⟩ := Prod.mk.inj (Option.some.inj he)
    obtain ⟨x, i, rfl, hi, hx⟩ := hdns rfl
    obtain ⟨hall, hnone⟩ := hinv.dns c hc i hi
    refine ⟨i, x, _, hall, hnone, rfl, ?_, hx⟩
    simp only [hnone, Option.toList_some, List.nil_append]

theorem dns_done_sample :
    ∃ (r r' : Relay) (i : ℕ) (x : Dgram), (∀ y ∈ r.submitted, getDnsId y.1 y.2 = some i) ∧ r.handed = [] ∧
      r'.handed = [x] ∧ getDnsId x.1 x.2 = some i := by
  obtain ⟨s, hs, hb⟩ := reachable_of_run (step sampleParams) .init anyStep_of_true
    (sampleLabels.take 6 ++ [.act sampleLocal (.serve sampleCalls),
      .act sampleLocal (.arrive (mapFix (sampleHost 1) true) [0, 7, 9]), .act sampleLocal (.answer .ok)])
    (b := ([sampleLocal], some [])) (fun s => (s.conns.map Relay.localAddr,
      (step sampleParams s (.act sampleLocal .receive)).map fun s => s.conns.map Relay.localAddr)) (by decide +kernel)
  obtain ⟨hb, hstep⟩ := Prod.mk.inj hb
  obtain ⟨r, hr, hl⟩ := List.map_eq_singleton_iff.mp hb
  obtain ⟨s', hs', hnil⟩ := Option.map_eq_some_iff.mp hstep
  rw [← hl] at hs'
  obtain ⟨i, x, r', h₁, h₂, _, h₄, h₅⟩ := dns_done hs (by simp [hr] : r ∈ s.conns) hs'
    (by simp [List.map_eq_nil_iff.mp hnil])
  exact ⟨r, r', i, x, h₁, h₂, h₄, h₅⟩

end BypassVpn.UdpRelay
