import BypassVpn.Lib.Transition
import BypassVpn.Tun2socks.BSocksClient
import BypassVpn.Ciadpi.Request

/-!
# A SOCKS5 session of tun2socks with ciadpi

A `BSocksClient`, the connection of `proxy.c` that serves it, and the two streams between them. Each side writes
and reads as many bytes at a time as the streams take and give.

* `Session`, `Label`, `step`.
* `Phase`: what each side has sent and read in each phase; **`Phase.server`**, **`Phase.client`**: the phases as the
  two sides see them.
* **`phase_step`**: every step leads to a phase.
-/

namespace BypassVpn.SocksSession

open Ciadpi BSocksClient Request Conev Transition

/-- A client of tun2socks, the server of ciadpi, and what is on its way between them. -/
structure Session where
  client : Client
  /-- The client has reported an error or was freed. -/
  gone : Bool
  conn : Conn
  /-- The bytes on their way to the server, and those on their way to the client. -/
  up : List UInt8
  down : List UInt8
  /-- What the server has answered: the method and the reply. -/
  answers : List UInt8
  /-- What the user of the client has written and read once it was up. -/
  app : List UInt8
  got : List UInt8
  /-- What the tunnel of the server has read and written. -/
  relayed : List UInt8
  data : List UInt8
  deriving DecidableEq

/-- Before the connection. -/
def Session.init (authInfo : List AuthInfo) (destAddr : Option SockaddrU) (udp : Bool) : Session where
  client := BSocksClient.init authInfo destAddr udp
  gone := false
  conn := .init
  up := []
  down := []
  answers := []
  app := []
  got := []
  relayed := []
  data := []

/-- A step of one of the ends, or of the connection. -/
inductive Label
  | connector (bound : Option SockaddrU)
  | continueJob
  | write (k : ℕ)
  | read (k : ℕ)
  | request (k : ℕ) (calls : RequestCalls)
  | connect (error : Option Errno)
  | userWrite (bs : List UInt8)
  | userRead (k : ℕ)
  | tunnelRead (k : ℕ)
  | tunnelWrite (bs : List UInt8)
  | closeClient
  | closeServer

/-- A handler of the client: an error ends it, and what is in the streams is lost to it. -/
def Session.handle (s : Session) (r : Option Client) (ok : Session) : Session :=
  match r with
  | none => { s with gone := true }
  | some c => { ok with client := c }

/-- The client has asked for bytes. -/
def receiving (c : Client) : Bool :=
  c.state = .SENT_HELLO ∨ c.state = .SENT_REQUEST ∨ c.state = .SENT_PASSWORD ∨ c.state = .RECEIVED_REPLY_HEADER

variable (params : AddrParams) (udpOn : Bool)

/-- One step; `none` where it cannot be taken. -/
def step (s : Session) : Label → Option Session
  | .connector bound =>
    if s.gone = false ∧ s.client.state = .CONNECTING then
      some { s with client := connectorHandler s.client bound }
    else none
  | .continueJob =>
    if s.gone = false ∧ s.client.state = .CONNECTED_HANDLER then some (s.handle (continueJobHandler s.client) s)
    else none
  | .write k =>
    if s.gone = false ∧ 0 < k ∧ k ≤ s.client.unsent.length then
      some (s.handle (written s.client k) { s with up := s.up ++ s.client.unsent.take k })
    else none
  | .read k =>
    if s.gone = false ∧ receiving s.client = true ∧ 0 < k ∧ k ≤ s.down.length ∧
        s.client.recvd.length + k ≤ s.client.recvTotal then
      some (s.handle (recvHandlerDone s.client (s.down.take k)) { s with down := s.down.drop k })
    else none
  | .request k calls =>
    if s.conn.closed = false ∧ s.conn.cb = .onRequest ∧ 0 < k ∧ k ≤ s.up.length then
      let r := onRequest params udpOn s.conn (s.up.take k) calls
      some { s with conn := r.1, up := s.up.drop k, down := s.down ++ r.2, answers := s.answers ++ r.2 }
    else none
  | .connect error =>
    if s.conn.closed = false ∧ s.conn.cb = .onIgnore ∧ (s.conn.accepted.map Prod.fst) = some S_CMD_CONN then
      let r := onConnectReply s.conn error
      some { s with conn := r.1, down := s.down ++ r.2, answers := s.answers ++ r.2 }
    else none
  | .userWrite bs =>
    if s.gone = false ∧ s.client.state = .UP ∧ s.client.udp = false then
      some { s with up := s.up ++ bs, app := s.app ++ bs }
    else none
  | .userRead k =>
    if s.gone = false ∧ s.client.state = .UP ∧ s.client.udp = false ∧ k ≤ s.down.length then
      some { s with down := s.down.drop k, got := s.got ++ s.down.take k }
    else none
  | .tunnelRead k =>
    if s.conn.closed = false ∧ s.conn.cb = .onTunnel ∧ k ≤ s.up.length then
      some { s with up := s.up.drop k, relayed := s.relayed ++ s.up.take k }
    else none
  | .tunnelWrite bs =>
    if s.conn.closed = false ∧ s.conn.cb = .onTunnel then
      some { s with down := s.down ++ bs, data := s.data ++ bs }
    else none
  | .closeClient => some { s with gone := true }
  | .closeServer => some { s with conn := { s.conn with closed := true } }

/-! ### The phases -/

/-- The command of the client. -/
def cmd (udp : Bool) : UInt8 := if udp then S_CMD_AUDP else S_CMD_CONN

/-- The address of a reply to CONNECT. -/
def anyAddr : SockaddrU := ⟨.AF_INET, [0, 0, 0, 0], [0, 0], rfl, rfl⟩

/-- A reply with the address `b`. -/
def replyWith (b : SockaddrU) : List UInt8 := [S_VER5, 0, 0] ++ s5Form b

/-- Nothing has gone through the tunnel. -/
def Quiet (s : Session) : Prop := s.app = [] ∧ s.got = [] ∧ s.relayed = [] ∧ s.data = []

/-- What the server has answered when it has read the hello, and before. -/
def answersTo (flagS5 : Bool) : List UInt8 := if flagS5 then [S_VER5, S_AUTH_NONE] else []

/-- The connection waits for a message. -/
structure Waiting (flagS5 : Bool) (c : Conn) (answers : List UInt8) : Prop where
  cb : c.cb = .onRequest
  flag : c.flagS5 = flagS5
  accepted : c.accepted = none
  answers : answers = answersTo flagS5

/-- The connection serves a client that asked for `a`, and `b` was in its reply. -/
structure Serving (client : Client) (c : Conn) (answers : List UInt8) (a b : SockaddrU) : Prop where
  dest : client.destAddr = some a
  accepted : c.accepted = some (cmd client.udp, a)
  reply : answersTo true ++ replyWith b <+: answers
  tcp : client.udp = false → b = anyAddr ∧ c.cb = .onTunnel
  udp : client.udp = true → c.cb = .onIgnore

/-- What the server answers to a hello without a method it knows, or to one that is cut. -/
def BadHello (bs : List UInt8) : Prop := bs = [] ∨ bs = [S_VER5, S_AUTH_BAD]

/-- The bytes behind a reply to CONNECT are what the tunnel has written. -/
def Behind (s : Session) (rest : List UInt8) : Prop :=
  s.client.udp = false → s.up = [] ∧ s.app = [] ∧ s.relayed = [] ∧ s.got = [] ∧ rest = s.data

/-- Neither side has sent anything. -/
structure Idle (s : Session) : Prop where
  state : s.client.state = .CONNECTING ∨ s.client.state = .CONNECTED_HANDLER
  unsent : s.client.unsent = []
  up : s.up = []
  down : s.down = []
  waiting : Waiting false s.conn s.answers
  quiet : Quiet s

/-- The client writes the hello. -/
structure SendingHello (s : Session) : Prop where
  state : s.client.state = .SENDING_HELLO
  unsent : s.client.unsent ≠ []
  few : s.client.authInfo.length ≤ 255
  methods : s.client.authInfo ≠ []
  message : s.up ++ s.client.unsent = hello s.client.authInfo
  down : s.down = []
  waiting : Waiting false s.conn s.answers
  quiet : Quiet s

/-- The hello is on its way. -/
structure SentHello (s : Session) : Prop where
  state : s.client.state = .SENT_HELLO
  unsent : s.client.unsent = []
  few : s.client.authInfo.length ≤ 255
  methods : s.client.authInfo ≠ []
  recvd : s.client.recvd = []
  recvTotal : s.client.recvTotal = 2
  message : s.up = hello s.client.authInfo
  down : s.down = []
  waiting : Waiting false s.conn s.answers
  quiet : Quiet s

/-- The server has chosen the method, and the client has not read all of that. -/
structure Chosen (s : Session) : Prop where
  state : s.client.state = .SENT_HELLO
  unsent : s.client.unsent = []
  method : S_AUTH_NONE ∈ s.client.authInfo.map AuthInfo.authType
  recvd : s.client.recvd.length < 2
  recvTotal : s.client.recvTotal = 2
  up : s.up = []
  message : s.client.recvd ++ s.down = [S_VER5, S_AUTH_NONE]
  waiting : Waiting true s.conn s.answers
  quiet : Quiet s

/-- The client writes the request for `a`. -/
structure SendingRequest (s : Session) (a : SockaddrU) : Prop where
  state : s.client.state = .SENDING_REQUEST
  unsent : s.client.unsent ≠ []
  dest : s.client.destAddr = some a
  message : s.up ++ s.client.unsent = BSocksClient.request s.client.udp a
  down : s.down = []
  waiting : Waiting true s.conn s.answers
  quiet : Quiet s

/-- The request is on its way. -/
structure SentRequest (s : Session) (a : SockaddrU) : Prop where
  state : s.client.state = .SENT_REQUEST
  unsent : s.client.unsent = []
  dest : s.client.destAddr = some a
  recvd : s.client.recvd = []
  recvTotal : s.client.recvTotal = 4
  message : s.up = BSocksClient.request s.client.udp a
  down : s.down = []
  waiting : Waiting true s.conn s.answers
  quiet : Quiet s

/-- The server connects to `a`. -/
structure Accepted (s : Session) (a : SockaddrU) : Prop where
  state : s.client.state = .SENT_REQUEST
  unsent : s.client.unsent = []
  udp : s.client.udp = false
  dest : s.client.destAddr = some a
  recvd : s.client.recvd = []
  recvTotal : s.client.recvTotal = 4
  up : s.up = []
  down : s.down = []
  cb : s.conn.cb = .onIgnore
  accepted : s.conn.accepted = some (S_CMD_CONN, a)
  answers : s.answers = answersTo true
  quiet : Quiet s

/-- The server has replied with `b`, and the client has not read the header. -/
structure Replied (s : Session) (a b : SockaddrU) (rest : List UInt8) : Prop where
  state : s.client.state = .SENT_REQUEST
  unsent : s.client.unsent = []
  recvd : s.client.recvd.length < 4
  recvTotal : s.client.recvTotal = 4
  message : s.client.recvd ++ s.down = replyWith b ++ rest
  serving : Serving s.client s.conn s.answers a b
  behind : Behind s rest

/-- The client reads the address of the reply. -/
structure HeaderRead (s : Session) (a b : SockaddrU) (rest : List UInt8) : Prop where
  state : s.client.state = .RECEIVED_REPLY_HEADER
  unsent : s.client.unsent = []
  bindType : s.client.bindType = b.family
  recvd : s.client.recvd.length < addrLen b.family
  recvTotal : s.client.recvTotal = addrLen b.family
  message : s.client.recvd ++ s.down = b.addr ++ b.port ++ rest
  serving : Serving s.client s.conn s.answers a b
  behind : Behind s rest

/-- The client is up. -/
structure Up (s : Session) (a b : SockaddrU) : Prop where
  state : s.client.state = .UP
  unsent : s.client.unsent = []
  bindAddr : s.client.bindAddr = some b
  serving : Serving s.client s.conn s.answers a b
  relay : s.client.udp = false → s.relayed ++ s.up = s.app ∧ s.got ++ s.down = s.data

/-- The server has closed the connection, with an answer that satisfies `Bad`, of which the client asks for `n`
bytes; the client may still be writing its message. -/
structure Refused (sending sent : State) (n : ℕ) (Bad : List UInt8 → Prop) (s : Session) : Prop where
  closed : s.conn.closed = true
  accepted : ∀ x, s.conn.accepted = some x → ∃ a, s.client.destAddr = some a ∧ x = (cmd s.client.udp, a)
  answer : s.client.state = sending ∧ Bad s.down ∨
    s.client.state = sent ∧ s.client.unsent = [] ∧ s.client.recvTotal = n ∧ s.client.recvd.length < n ∧
      Bad (s.client.recvd ++ s.down)
  quiet : Quiet s

/-- Where a session is. -/
inductive Phase (s : Session) : Prop
  | idle (h : Idle s)
  | sendingHello (h : SendingHello s)
  | sentHello (h : SentHello s)
  | chosen (h : Chosen s)
  | sendingRequest (a : SockaddrU) (h : SendingRequest s a)
  | sentRequest (a : SockaddrU) (h : SentRequest s a)
  | accepted (a : SockaddrU) (h : Accepted s a)
  | replied (a b : SockaddrU) (rest : List UInt8) (h : Replied s a b rest)
  | headerRead (a b : SockaddrU) (rest : List UInt8) (h : HeaderRead s a b rest)
  | up (a b : SockaddrU) (h : Up s a b)
  | refusedHello (h : Refused .SENDING_HELLO .SENT_HELLO 2 BadHello s)
  | refused (h : Refused .SENDING_REQUEST .SENT_REQUEST 4 Refusal s)

/-- What is on its way to a server that waits. -/
inductive Asking (s : Session) : Prop
  | sendingHello (h : SendingHello s)
  | sentHello (h : SentHello s)
  | sendingRequest (a : SockaddrU) (h : SendingRequest s a)
  | sentRequest (a : SockaddrU) (h : SentRequest s a)

/-- How far the client of a server that serves it has read the reply. -/
inductive Served (s : Session) (a b : SockaddrU) : Prop
  | replied (rest : List UInt8) (h : Replied s a b rest)
  | headerRead (rest : List UInt8) (h : HeaderRead s a b rest)
  | up (h : Up s a b)

/-- **The phases as the server sees them.** -/
inductive ServerSide (s : Session) : Prop
  | refused (closed : s.conn.closed = true) (accepted : ∀ x, s.conn.accepted = some x →
      ∃ a, s.client.destAddr = some a ∧ x = (cmd s.client.udp, a))
  | waiting (flagS5 : Bool) (h : Waiting flagS5 s.conn s.answers) (asking : s.up = [] ∨ Asking s)
  | accepted (a : SockaddrU) (h : Accepted s a)
  | serving (a b : SockaddrU) (h : Serving s.client s.conn s.answers a b) (served : Served s a b)

theorem Phase.server {s : Session} (h : Phase s) : ServerSide s := by
  cases h with
  | idle h => exact .waiting _ h.waiting (.inl h.up)
  | sendingHello h => exact .waiting _ h.waiting (.inr (.sendingHello h))
  | sentHello h => exact .waiting _ h.waiting (.inr (.sentHello h))
  | chosen h => exact .waiting _ h.waiting (.inl h.up)
  | sendingRequest a h => exact .waiting _ h.waiting (.inr (.sendingRequest a h))
  | sentRequest a h => exact .waiting _ h.waiting (.inr (.sentRequest a h))
  | accepted a h => exact .accepted a h
  | replied a b rest h => exact .serving a b h.serving (.replied rest h)
  | headerRead a b rest h => exact .serving a b h.serving (.headerRead rest h)
  | up a b h => exact .serving a b h.serving (.up h)
  | refusedHello h => exact .refused h.closed h.accepted
  | refused h => exact .refused h.closed h.accepted

/-- The phases with the client in the state `st`. -/
def ClientSide (s : Session) : State → Prop
  | .CONNECTING | .CONNECTED_HANDLER => Idle s
  | .SENDING_HELLO => SendingHello s
  | .SENT_HELLO => SentHello s ∨ Chosen s
  | .SENDING_REQUEST => ∃ a, SendingRequest s a
  | .SENT_REQUEST => (∃ a, SentRequest s a) ∨ (∃ a, Accepted s a) ∨ ∃ a b rest, Replied s a b rest
  | .RECEIVED_REPLY_HEADER => ∃ a b rest, HeaderRead s a b rest
  | .UP => ∃ a b, Up s a b
  -- a password is never asked for
  | .SENDING_PASSWORD | .SENT_PASSWORD => False

/-- The states in which the client may find that the server has refused it. -/
def refusable (st : State) : Prop :=
  st = .SENDING_HELLO ∨ st = .SENT_HELLO ∨ st = .SENDING_REQUEST ∨ st = .SENT_REQUEST

/-- **The phases as the client sees them.** -/
theorem Phase.client {s : Session} (h : Phase s) :
    ClientSide s s.client.state ∨ s.conn.closed = true ∧ refusable s.client.state := by
  cases h with
  | idle h =>
    left
    rcases h.state with hs | hs <;> rw [hs] <;> exact h
  | sendingHello h => exact .inl (by rw [h.state]; exact h)
  | sentHello h => exact .inl (by rw [h.state]; exact .inl h)
  | chosen h => exact .inl (by rw [h.state]; exact .inr h)
  | sendingRequest a h => exact .inl (by rw [h.state]; exact ⟨a, h⟩)
  | sentRequest a h => exact .inl (by rw [h.state]; exact .inl ⟨a, h⟩)
  | accepted a h => exact .inl (by rw [h.state]; exact .inr (.inl ⟨a, h⟩))
  | replied a b rest h => exact .inl (by rw [h.state]; exact .inr (.inr ⟨a, b, rest, h⟩))
  | headerRead a b rest h => exact .inl (by rw [h.state]; exact ⟨a, b, rest, h⟩)
  | up a b h => exact .inl (by rw [h.state]; exact ⟨a, b, h⟩)
  | refusedHello h => exact .inr ⟨h.closed, h.answer.elim (fun h => .inl h.1) fun h => .inr (.inl h.1)⟩
  | refused h =>
    exact .inr ⟨h.closed, h.answer.elim (fun h => .inr (.inr (.inl h.1))) fun h => .inr (.inr (.inr h.1))⟩

/-! ### The messages of the client -/

theorem hello_eq (authInfo : List AuthInfo) : hello authInfo = helloOf (authInfo.map AuthInfo.authType) := by
  rw [helloOf, List.length_map]
  rfl

theorem request_eq (udp : Bool) (a : SockaddrU) : BSocksClient.request udp a = requestOf (cmd udp) a := by
  cases udp <;> rfl

theorem received_method {c : Client} (hs : c.state = .SENT_HELLO)
    (h : S_AUTH_NONE ∈ c.authInfo.map AuthInfo.authType) :
    received c [S_VER5, S_AUTH_NONE] = authFinished c := by
  obtain ⟨ai, hai, ht⟩ := List.mem_map.mp h
  have hf : (c.authInfo.find? fun ai => ai.authType = S_AUTH_NONE).isSome :=
    List.find?_isSome.mpr ⟨ai, hai, decide_eq_true ht⟩
  obtain ⟨ai', hai'⟩ := Option.isSome_iff_exists.mp hf
  have ht' : ai'.authType = S_AUTH_NONE := by simpa using List.find?_some hai'
  have hr : received c [S_VER5, S_AUTH_NONE] =
      (c.authInfo.find? fun ai => ai.authType = S_AUTH_NONE).bind (authenticate c) := by
    rw [received, hs]
    rfl
  rw [hr, hai', Option.bind_some]
  exact if_pos ht'

theorem received_noMethod {c : Client} (hs : c.state = .SENT_HELLO) : received c [S_VER5, S_AUTH_BAD] = none := by
  have hr : received c [S_VER5, S_AUTH_BAD] =
      (c.authInfo.find? fun ai => ai.authType = S_AUTH_BAD).bind (authenticate c) := by
    rw [received, hs]
    rfl
  rw [hr]
  cases hf : c.authInfo.find? fun ai => ai.authType = S_AUTH_BAD with
  | none => rfl
  | some ai =>
    have ht : ai.authType = S_AUTH_BAD := by simpa using List.find?_some hf
    rw [Option.bind_some, authenticate, ht, if_neg (by decide), if_neg (by decide)]

theorem received_reply {c : Client} (hs : c.state = .SENT_REQUEST) (b : SockaddrU) :
    received c [S_VER5, 0, 0, b.family.atp] =
      some { startReceive c (addrLen b.family) with state := .RECEIVED_REPLY_HEADER, bindType := b.family } := by
  rw [received, hs]
  cases b.family <;> rfl

theorem received_refusal {c : Client} (hs : c.state = .SENT_REQUEST) {e : ℕ} (h0 : 0 < e) (h1 : e < 256) :
    received c [S_VER5, UInt8.ofNat e, 0, S_ATP_I4] = none := by
  have hne : UInt8.ofNat e ≠ SOCKS_REP_SUCCEEDED := by
    intro h
    have := congrArg UInt8.toNat h
    rw [UInt8.toNat_ofNat', Nat.mod_eq_of_lt h1] at this
    exact h0.ne' this
  rw [received, hs]
  exact if_pos hne

theorem received_rest {c : Client} (hs : c.state = .RECEIVED_REPLY_HEADER) (b : SockaddrU)
    (hb : c.bindType = b.family) :
    received c (b.addr ++ b.port) = some { c with state := .UP, bindAddr := some b } := by
  have h := readAddr_append [] [] b
  rw [List.nil_append, List.append_nil, List.length_nil, Nat.zero_add, ← hb] at h
  rw [received, hs]
  exact congrArg (fun x => some { c with state := .UP, bindAddr := x }) h

/-! ### The steps of the client -/

/-- What the client has of `L`, once it has read `k` bytes more. -/
theorem read_split {r d L : List UInt8} {k : ℕ} (h : r ++ d = L) (hk : k ≤ d.length) :
    r ++ d.take k = L.take (r.length + k) ∧ d.drop k = L.drop (r.length + k) ∧
      (r ++ d.take k).length = r.length + k := by
  refine ⟨?_, ?_, ?_⟩
  · rw [← h, List.take_length_add_append]
  · rw [← h, List.drop_length_add_append]
  · rw [List.length_append, List.length_take, Nat.min_eq_left hk]

theorem Waiting.closed {f : Bool} {c : Conn} {answers : List UInt8} (h : Waiting f c answers) :
    Waiting f { c with closed := true } answers :=
  ⟨h.cb, h.flag, h.accepted, h.answers⟩

/-- A connection serves the client also when more is answered, or when one of them is closed. -/
theorem Serving.mono {client client' : Client} {c c' : Conn} {answers : List UInt8} {a b : SockaddrU}
    (h : Serving client c answers a b) (hdest : client'.destAddr = client.destAddr) (hudp : client'.udp = client.udp)
    (hcb : c'.cb = c.cb) (hacc : c'.accepted = c.accepted) : Serving client' c' answers a b where
  dest := hdest.trans h.dest
  accepted := by rw [hacc, hudp, h.accepted]
  reply := h.reply
  tcp hu := by
    rw [hcb]
    exact h.tcp (hudp.symm.trans hu)
  udp hu := hcb.trans (h.udp (hudp.symm.trans hu))

theorem Phase.gone {s : Session} (h : Phase s) : Phase { s with gone := true } := by
  cases h with
  | idle h => exact .idle { h with }
  | sendingHello h => exact .sendingHello { h with }
  | sentHello h => exact .sentHello { h with }
  | chosen h => exact .chosen { h with }
  | sendingRequest a h => exact .sendingRequest a { h with }
  | sentRequest a h => exact .sentRequest a { h with }
  | accepted a h => exact .accepted a { h with }
  | replied a b rest h => exact .replied a b rest { h with }
  | headerRead a b rest h => exact .headerRead a b rest { h with }
  | up a b h => exact .up a b { h with }
  | refusedHello h => exact .refusedHello { h with }
  | refused h => exact .refused { h with }

/-- A step of a handler: it errs, or it keeps the phases. -/
theorem Phase.handle {s ok : Session} {r : Option Client} (h : Phase s)
    (hr : ∀ c, r = some c → Phase { ok with client := c }) : Phase (s.handle r ok) := by
  cases r with
  | none => exact h.gone
  | some c => exact hr c rfl

theorem written_hello {c : Client} (hs : c.state = .SENDING_HELLO) :
    written c c.unsent.length = some { startReceive c 2 with state := .SENT_HELLO, unsent := [] } := by
  rw [written_all, sendHandlerDone, hs]
  rfl

theorem written_request {c : Client} (hs : c.state = .SENDING_REQUEST) :
    written c c.unsent.length = some { startReceive c 4 with state := .SENT_REQUEST, unsent := [] } := by
  rw [written_all, sendHandlerDone, hs]
  rfl

section Refused

variable {s : Session} {sending sent : State} {n : ℕ} {Bad : List UInt8 → Prop}

theorem Refused.of_unsent (h : Refused sending sent n Bad s) (hu : s.client.unsent ≠ []) :
    s.client.state = sending ∧ Bad s.down :=
  h.answer.resolve_right fun h => hu h.2.1

theorem Refused.write_part (h : Refused sending sent n Bad s) {k : ℕ} (hu : s.client.unsent ≠ []) (up : List UInt8) :
    Refused sending sent n Bad { s with client := { s.client with unsent := s.client.unsent.drop k }, up := up } where
  closed := h.closed
  accepted := h.accepted
  answer := .inl (h.of_unsent hu)
  quiet := h.quiet

theorem Refused.write_all (h : Refused sending sent n Bad s) (hu : s.client.unsent ≠ []) (h0 : 0 < n) (up : List UInt8) :
    Refused sending sent n Bad
      { s with client := { startReceive s.client n with state := sent, unsent := [] }, up := up } where
  closed := h.closed
  accepted := h.accepted
  answer := .inr ⟨rfl, rfl, rfl, h0, (h.of_unsent hu).2⟩
  quiet := h.quiet

theorem Refused.read_part (h : Refused sending sent n Bad s) {k : ℕ} (hsent : s.client.state ≠ sending)
    (hlen : (s.client.recvd ++ s.down.take k).length < s.client.recvTotal) :
    Refused sending sent n Bad
      { s with client := { s.client with recvd := s.client.recvd ++ s.down.take k }, down := s.down.drop k } where
  closed := h.closed
  accepted := h.accepted
  answer := by
    obtain ⟨hs, hu, ht, -, hb⟩ := h.answer.resolve_left fun h => hsent h.1
    refine .inr ⟨hs, hu, ht, ht ▸ hlen, ?_⟩
    dsimp only
    rwa [List.append_assoc, List.take_append_drop]
  quiet := h.quiet

end Refused

/-- The client writes a part of its message; what the sender has written stands behind the rest. -/
theorem Phase.write_part {s : Session} (h : Phase s) {k : ℕ} (hk : k < s.client.unsent.length) :
    Phase { s with
      client := { s.client with unsent := s.client.unsent.drop k }, up := s.up ++ s.client.unsent.take k } := by
  have hnil : s.client.unsent ≠ [] := List.ne_nil_of_length_pos (by omega)
  have hne : s.client.unsent.drop k ≠ [] := by
    rw [Ne, List.drop_eq_nil_iff]
    omega
  have hcat : s.up ++ s.client.unsent.take k ++ s.client.unsent.drop k = s.up ++ s.client.unsent := by
    rw [List.append_assoc, List.take_append_drop]
  cases h with
  | sendingHello h => exact .sendingHello { h with unsent := hne, message := hcat.trans h.message }
  | sendingRequest a h => exact .sendingRequest a { h with unsent := hne, message := hcat.trans h.message }
  | refusedHello h => exact .refusedHello (h.write_part hnil _)
  | refused h => exact .refused (h.write_part hnil _)
  | idle h | sentHello h | chosen h => exact absurd h.unsent hnil
  | sentRequest a h | accepted a h => exact absurd h.unsent hnil
  | replied a b rest h | headerRead a b rest h => exact absurd h.unsent hnil
  | up a b h => exact absurd h.unsent hnil

theorem Phase.write_all {s : Session} (h : Phase s) {c : Client} (hne : s.client.unsent ≠ [])
    (hc : written s.client s.client.unsent.length = some c) :
    Phase { s with client := c, up := s.up ++ s.client.unsent } := by
  cases h with
  | sendingHello h =>
    rw [written_hello h.state] at hc
    obtain rfl := Option.some.inj hc
    exact .sentHello { h with state := rfl, unsent := rfl, recvd := rfl, recvTotal := rfl }
  | sendingRequest a h =>
    rw [written_request h.state] at hc
    obtain rfl := Option.some.inj hc
    exact .sentRequest a { h with state := rfl, unsent := rfl, recvd := rfl, recvTotal := rfl }
  | refusedHello h =>
    rw [written_hello (h.of_unsent hne).1] at hc
    obtain rfl := Option.some.inj hc
    exact .refusedHello (h.write_all hne (by decide) _)
  | refused h =>
    rw [written_request (h.of_unsent hne).1] at hc
    obtain rfl := Option.some.inj hc
    exact .refused (h.write_all hne (by decide) _)
  | idle h | sentHello h | chosen h => exact absurd h.unsent hne
  | sentRequest a h | accepted a h => exact absurd h.unsent hne
  | replied a b rest h | headerRead a b rest h => exact absurd h.unsent hne
  | up a b h => exact absurd h.unsent hne

theorem Phase.write {s : Session} (h : Phase s) {k : ℕ} (hk : k ≤ s.client.unsent.length) (h0 : 0 < k) :
    Phase (s.handle (written s.client k) { s with up := s.up ++ s.client.unsent.take k }) := by
  refine h.handle fun c hc => ?_
  rcases hk.lt_or_eq with hlt | rfl
  · rw [written_of_lt _ hlt] at hc
    obtain rfl := Option.some.inj hc
    exact h.write_part hlt
  · rw [List.take_length]
    exact h.write_all (List.ne_nil_of_length_pos h0) hc

theorem replyWith_take (b : SockaddrU) (rest : List UInt8) :
    (replyWith b ++ rest).take 4 = [S_VER5, 0, 0, b.family.atp] := rfl

theorem replyWith_drop (b : SockaddrU) (rest : List UInt8) :
    (replyWith b ++ rest).drop 4 = b.addr ++ b.port ++ rest := rfl

theorem length_addrPort (b : SockaddrU) : (b.addr ++ b.port).length = addrLen b.family := by
  rw [List.length_append, b.addr_size, b.port_size]
  rfl

/-- A client that has asked for bytes has written its message and is not up. -/
theorem receiving_ne {c : Client} (h : receiving c = true) :
    c.state ≠ .SENDING_HELLO ∧ c.state ≠ .SENDING_REQUEST ∧ c.state ≠ .UP := by
  simp only [receiving, Bool.decide_or, Bool.or_eq_true, decide_eq_true_eq] at h
  refine ⟨?_, ?_, ?_⟩ <;> intro hs <;> simp [hs] at h

theorem Phase.read_part {s : Session} (h : Phase s) {k : ℕ} (hdown : s.down ≠ []) (hr : receiving s.client = true)
    (hlen : (s.client.recvd ++ s.down.take k).length < s.client.recvTotal) :
    Phase { s with
      client := { s.client with recvd := s.client.recvd ++ s.down.take k }, down := s.down.drop k } := by
  obtain ⟨hhello, hrequest, hup⟩ := receiving_ne hr
  have hcat : s.client.recvd ++ s.down.take k ++ s.down.drop k = s.client.recvd ++ s.down := by
    rw [List.append_assoc, List.take_append_drop]
  cases h with
  | chosen h => exact .chosen { h with recvd := h.recvTotal ▸ hlen, message := hcat.trans h.message }
  | replied a b rest h =>
    exact .replied a b rest { h with
      recvd := h.recvTotal ▸ hlen
      message := hcat.trans h.message
      serving := h.serving.mono rfl rfl rfl rfl }
  | headerRead a b rest h =>
    exact .headerRead a b rest { h with
      recvd := h.recvTotal ▸ hlen
      message := hcat.trans h.message
      serving := h.serving.mono rfl rfl rfl rfl }
  | refusedHello h => exact .refusedHello (h.read_part hhello hlen)
  | refused h => exact .refused (h.read_part hrequest hlen)
  | up a b h => exact absurd h.state hup
  | idle h | sendingHello h | sentHello h => exact absurd h.down hdown
  | sendingRequest a h | sentRequest a h | accepted a h => exact absurd h.down hdown

theorem Phase.read_all {s : Session} (h : Phase s) {k : ℕ} {c : Client} (hdown : s.down ≠ [])
    (hr : receiving s.client = true)
    (hc : received s.client ((s.client.recvd ++ s.down).take s.client.recvTotal) = some c)
    (hdrop : s.down.drop k = (s.client.recvd ++ s.down).drop s.client.recvTotal) :
    Phase { s with client := c, down := s.down.drop k } := by
  obtain ⟨hhello, hrequest, hup⟩ := receiving_ne hr
  rw [hdrop]
  cases h with
  | chosen h =>
    have hc : received s.client [S_VER5, S_AUTH_NONE] = some c := by rwa [h.message, h.recvTotal] at hc
    rw [received_method h.state h.method] at hc
    obtain ⟨a, ha, rfl⟩ := Option.map_eq_some_iff.mp hc
    refine .sendingRequest a
      { h with state := rfl, unsent := List.cons_ne_nil _ _, dest := ha, message := ?_, down := ?_ }
    · rw [h.up]
      rfl
    · rw [h.message, h.recvTotal]
      rfl
  | replied a b rest h =>
    rw [h.message, h.recvTotal, replyWith_take, received_reply h.state] at hc
    obtain rfl := Option.some.inj hc
    refine .headerRead a b rest { h with
      state := rfl, bindType := rfl, recvd := Nat.succ_pos _, recvTotal := rfl, message := ?_
      serving := h.serving.mono rfl rfl rfl rfl }
    rw [h.message, h.recvTotal, replyWith_drop]
    rfl
  | headerRead a b rest h =>
    rw [h.message, h.recvTotal, ← length_addrPort, List.take_left, received_rest h.state b h.bindType] at hc
    obtain rfl := Option.some.inj hc
    refine .up a b { h with
      state := rfl, bindAddr := rfl, serving := h.serving.mono rfl rfl rfl rfl, relay := fun hu => ?_ }
    obtain ⟨hup, happ, hrel, hgot, hrest⟩ := h.behind hu
    refine ⟨?_, ?_⟩
    · rw [hup, happ, hrel, List.append_nil]
    · rw [h.message, h.recvTotal, ← length_addrPort, List.drop_left, hgot, List.nil_append]
      exact hrest
  | refusedHello h =>
    obtain ⟨hs, -, ht, -, hb⟩ := h.answer.resolve_left fun h => hhello h.1
    rcases hb with hb | hb
    · exact absurd (List.append_eq_nil_iff.mp hb).2 hdown
    · have hc : received s.client [S_VER5, S_AUTH_BAD] = some c := by rwa [hb, ht] at hc
      rw [received_noMethod hs] at hc
      cases hc
  | refused h =>
    obtain ⟨hs, -, ht, -, e, he₀, he₁, hb⟩ := h.answer.resolve_left fun h => hrequest h.1
    have hc : received s.client [S_VER5, UInt8.ofNat e, 0, S_ATP_I4] = some c := by rwa [hb, ht] at hc
    rw [received_refusal hs he₀ he₁] at hc
    cases hc
  | up a b h => exact absurd h.state hup
  | idle h | sendingHello h | sentHello h => exact absurd h.down hdown
  | sendingRequest a h | sentRequest a h | accepted a h => exact absurd h.down hdown

/-- The client reads on. -/
theorem Phase.read {s : Session} (h : Phase s) {k : ℕ} (hk : k ≤ s.down.length) (h0 : 0 < k)
    (hr : receiving s.client = true) (hfit : s.client.recvd.length + k ≤ s.client.recvTotal) :
    Phase (s.handle (recvHandlerDone s.client (s.down.take k)) { s with down := s.down.drop k }) := by
  refine h.handle fun c hc => ?_
  have hdown : s.down ≠ [] := List.ne_nil_of_length_pos (by omega)
  obtain ⟨htake, hdrop, hlen⟩ := read_split (L := s.client.recvd ++ s.down) rfl hk
  rcases hfit.lt_or_eq with hlt | heq
  · rw [recvHandlerDone_of_lt _ (hlen ▸ hlt)] at hc
    obtain rfl := Option.some.inj hc
    exact h.read_part hdown hr (hlen ▸ hlt)
  · rw [recvHandlerDone_all _ (hlen.trans heq), htake, heq] at hc
    rw [heq] at hdrop
    exact h.read_all hdown hr hc hdrop

/-! ### The steps of the server -/

/-- The session after `on_request` has read `k` bytes. -/
def Session.requested (s : Session) (k : ℕ) (calls : RequestCalls) : Session :=
  let r := onRequest params udpOn s.conn (s.up.take k) calls
  { s with conn := r.1, up := s.up.drop k, down := s.down ++ r.2, answers := s.answers ++ r.2 }

theorem take_of_append {xs ys l : List UInt8} (h : xs ++ ys = l) {k : ℕ} (hk : k ≤ xs.length) : xs.take k = l.take k := by
  rw [← h, List.take_append_of_le_length hk]

theorem lt_length_of_append {xs ys l : List UInt8} (h : xs ++ ys = l) {k : ℕ} (hk : k ≤ xs.length)
    (hcut : k < xs.length ∨ ys ≠ []) : k < l.length := by
  rw [← h, List.length_append]
  rcases hcut with hlt | hne
  · omega
  · have := List.length_pos_iff.mpr hne
    omega

/-- The session after the server has closed the connection with the answer `bs`. -/
def Session.refused (s : Session) (k : ℕ) (bs : List UInt8) : Session :=
  { s with
    conn := { s.conn with closed := true }, up := s.up.drop k, down := s.down ++ bs, answers := s.answers ++ bs }

theorem requested_hello_cut {s : Session} {k : ℕ} (h0 : 0 < k) (hk : k ≤ s.up.length)
    (hw : Waiting false s.conn s.answers) (hn : s.client.authInfo.length ≤ 255)
    (hup : s.up ++ s.client.unsent = hello s.client.authInfo) (hcut : k < s.up.length ∨ s.client.unsent ≠ [])
    (calls : RequestCalls) : s.requested params udpOn k calls = s.refused k [] := by
  have hlt := lt_length_of_append hup hk hcut
  rw [hello_eq] at hup hlt
  rw [helloOf, List.length_cons, List.length_cons] at hlt
  rw [Session.requested, take_of_append hup hk, onRequest_hello_cut hw.flag (by rwa [List.length_map]) h0 hlt]
  rfl

theorem requested_request_cut {s : Session} {k : ℕ} (h0 : 0 < k) (hk : k ≤ s.up.length)
    (hw : Waiting true s.conn s.answers) {a : SockaddrU}
    (hup : s.up ++ s.client.unsent = BSocksClient.request s.client.udp a)
    (hcut : k < s.up.length ∨ s.client.unsent ≠ []) (calls : RequestCalls) :
    ∃ bs, Refusal bs ∧ s.requested params udpOn k calls = s.refused k bs := by
  have hlt := lt_length_of_append hup hk hcut
  rw [request_eq] at hup hlt
  rw [length_requestOf] at hlt
  obtain ⟨bs, hbs, hr⟩ : ∃ bs, Refusal bs ∧ onRequest params udpOn s.conn ((requestOf (cmd s.client.udp) a).take k)
      calls = fail s.conn bs := onRequest_request_cut hw.flag (cmd s.client.udp) a h0 hlt calls
  refine ⟨bs, hbs, ?_⟩
  rw [Session.requested, take_of_append hup hk, hr]
  rfl

/-- A message of which the server reads a part, or the part that is written, ends the session. -/
theorem Asking.cut {s : Session} (h : Asking s) {k : ℕ} (h0 : 0 < k) (hk : k ≤ s.up.length)
    (hcut : k < s.up.length ∨ s.client.unsent ≠ []) (calls : RequestCalls) :
    ∃ bs, s.requested params udpOn k calls = s.refused k bs ∧ Phase (s.refused k bs) ∧ s.conn.accepted = none := by
  cases h with
  | sendingHello h =>
    refine ⟨[], requested_hello_cut params udpOn h0 hk h.waiting h.few h.message hcut calls, ?_, h.waiting.accepted⟩
    refine .refusedHello ⟨rfl, by simp [Session.refused, h.waiting.accepted], .inl ⟨h.state, .inl ?_⟩, h.quiet⟩
    simp [Session.refused, h.down]
  | sentHello h =>
    have hcat : s.up ++ s.client.unsent = hello s.client.authInfo := by rw [h.unsent, List.append_nil, h.message]
    refine ⟨[], requested_hello_cut params udpOn h0 hk h.waiting h.few hcat hcut calls, ?_, h.waiting.accepted⟩
    refine .refusedHello ⟨rfl, by simp [Session.refused, h.waiting.accepted],
      .inr ⟨h.state, h.unsent, h.recvTotal, by simp [Session.refused, h.recvd], .inl ?_⟩, h.quiet⟩
    simp [Session.refused, h.recvd, h.down]
  | sendingRequest a h =>
    obtain ⟨bs, hbs, hr⟩ := requested_request_cut params udpOn h0 hk h.waiting h.message hcut calls
    refine ⟨bs, hr, .refused ⟨rfl, by simp [Session.refused, h.waiting.accepted], .inl ⟨h.state, ?_⟩, h.quiet⟩,
      h.waiting.accepted⟩
    simpa [Session.refused, h.down] using hbs
  | sentRequest a h =>
    have hcat : s.up ++ s.client.unsent = BSocksClient.request s.client.udp a := by
      rw [h.unsent, List.append_nil, h.message]
    obtain ⟨bs, hbs, hr⟩ := requested_request_cut params udpOn h0 hk h.waiting hcat hcut calls
    refine ⟨bs, hr, .refused ⟨rfl, by simp [Session.refused, h.waiting.accepted],
      .inr ⟨h.state, h.unsent, h.recvTotal, by simp [Session.refused, h.recvd], ?_⟩, h.quiet⟩, h.waiting.accepted⟩
    simpa [Session.refused, h.recvd, h.down] using hbs

theorem SentHello.requested {s : Session} (h : SentHello s) (calls : RequestCalls) :
    Phase (s.requested params udpOn s.up.length calls) := by
  rw [Session.requested, List.take_length, List.drop_length, h.message, hello_eq,
    onRequest_hello h.waiting.flag (by simpa using h.methods) (by simpa using h.few)]
  have hans : s.answers = [] := h.waiting.answers
  by_cases hm : S_AUTH_NONE ∈ s.client.authInfo.map AuthInfo.authType
  · rw [if_pos hm]
    refine .chosen { h with
      method := hm, recvd := by simp [h.recvd], up := rfl, message := by simp [h.recvd, h.down]
      waiting := ⟨h.waiting.cb, rfl, h.waiting.accepted, ?_⟩ }
    rw [hans]
    rfl
  · rw [if_neg hm]
    exact .refusedHello ⟨rfl, by simp [fail, h.waiting.accepted],
      .inr ⟨h.state, h.unsent, h.recvTotal, by simp [h.recvd], .inr (by simp [h.recvd, h.down, fail])⟩, h.quiet⟩

theorem SentRequest.requested {s : Session} {a : SockaddrU} (h : SentRequest s a) (calls : RequestCalls) :
    Phase (s.requested params udpOn s.up.length calls) := by
  have hans : s.answers = answersTo true := h.waiting.answers
  rw [Session.requested, List.take_length, List.drop_length, h.message, request_eq, onRequest_request h.waiting.flag]
  rcases served_cases params udpOn s.conn (cmd s.client.udp) a calls with ⟨bs, hbs, hr⟩ | ⟨hm, hr⟩ | ⟨hm, b, rest,
    cl, hr⟩
  · rw [hr]
    exact .refused ⟨rfl, by simp [fail, h.waiting.accepted],
      .inr ⟨h.state, h.unsent, h.recvTotal, by simp [h.recvd], by simpa [h.recvd, h.down, fail] using hbs⟩, h.quiet⟩
  · have hu : s.client.udp = false := by
      cases hu : s.client.udp with
      | false => rfl
      | true => rw [hu] at hm; exact absurd hm (by decide)
    rw [hr, hm]
    exact .accepted a { h with
      udp := hu, up := rfl, down := by simp [h.down], cb := rfl, accepted := rfl, answers := by simp [hans] }
  · have hu : s.client.udp = true := by
      cases hu : s.client.udp with
      | true => rfl
      | false => rw [hu] at hm; exact absurd hm (by decide)
    rw [hr]
    have hreply : answersTo true ++ replyWith b <+: s.answers ++ ([S_VER5, 0, 0] ++ s5Form b ++ rest) := by
      rw [hans, replyWith, ← List.append_assoc]
      exact List.prefix_append _ _
    refine .replied a b rest { h with
      recvd := by simp [h.recvd], message := by simp [h.recvd, h.down, replyWith]
      serving := ⟨h.dest, rfl, hreply, fun hf => ?_, fun _ => rfl⟩, behind := fun hf => ?_ }
    · exact absurd (hu.symm.trans hf) (by simp)
    · exact absurd (hu.symm.trans hf) (by simp)

theorem not_onRequest_of_serving {client : Client} {c : Conn} {answers : List UInt8} {a b : SockaddrU}
    (h : Serving client c answers a b) : c.cb ≠ .onRequest := by
  cases hu : client.udp with
  | false => simp [(h.tcp hu).2]
  | true => simp [h.udp hu]

/-- A server that waits and finds something has a message, or a part of one. -/
theorem Phase.asking {s : Session} (h : Phase s) (hc : s.conn.closed = false) (hcb : s.conn.cb = .onRequest)
    (hup : s.up ≠ []) : Asking s := by
  cases h.server with
  | refused closed => exact absurd (closed.symm.trans hc) (by simp)
  | waiting f _ asking => exact asking.resolve_left hup
  | accepted a h => exact absurd (h.cb.symm.trans hcb) (by simp)
  | serving a b h => exact absurd hcb (not_onRequest_of_serving h)

/-- The server reads a message, or a part of one. -/
theorem Phase.requested {s : Session} (h : Phase s) (hc : s.conn.closed = false) (hcb : s.conn.cb = .onRequest)
    {k : ℕ} (h0 : 0 < k) (hk : k ≤ s.up.length) (calls : RequestCalls) :
    Phase (s.requested params udpOn k calls) := by
  have hask := h.asking hc hcb (List.ne_nil_of_length_pos (by omega))
  by_cases hcut : k < s.up.length ∨ s.client.unsent ≠ []
  · obtain ⟨bs, hr, hp, -⟩ := hask.cut params udpOn h0 hk hcut calls
    rwa [hr]
  · rw [not_or, not_not] at hcut
    obtain rfl : k = s.up.length := by omega
    cases hask with
    | sendingHello h => exact absurd hcut.2 h.unsent
    | sendingRequest a h => exact absurd hcut.2 h.unsent
    | sentHello h => exact h.requested params udpOn calls
    | sentRequest a h => exact h.requested params udpOn calls

/-- A server that connects does so for a client that waits for the reply to CONNECT. -/
theorem Phase.connecting {s : Session} (h : Phase s) (hc : s.conn.closed = false) (hcb : s.conn.cb = .onIgnore)
    (hacc : s.conn.accepted.map Prod.fst = some S_CMD_CONN) : ∃ a, Accepted s a := by
  cases h.server with
  | refused closed => exact absurd (closed.symm.trans hc) (by simp)
  | waiting f h => exact absurd (h.cb.symm.trans hcb) (by simp)
  | accepted a h => exact ⟨a, h⟩
  | serving a b h =>
    -- a connection that serves a client is in the tunnel, or is there for datagrams
    cases hu : s.client.udp with
    | false => simp [(h.tcp hu).2] at hcb
    | true =>
      have hne : cmd true ≠ S_CMD_CONN := by decide
      rw [h.accepted, hu] at hacc
      exact absurd (Option.some.inj hacc) hne

theorem Phase.connect {s : Session} (h : Phase s) (hc : s.conn.closed = false) (hcb : s.conn.cb = .onIgnore)
    (hacc : s.conn.accepted.map Prod.fst = some S_CMD_CONN) (error : Option Errno) :
    Phase { s with
      conn := (onConnectReply s.conn error).1, down := s.down ++ (onConnectReply s.conn error).2
      answers := s.answers ++ (onConnectReply s.conn error).2 } := by
  obtain ⟨a, h⟩ := h.connecting hc hcb hacc
  have hudp : s.client.udp ≠ true := by simp [h.udp]
  cases error with
  | none =>
    have hserving : Serving s.client (onConnectReply s.conn none).1 (s.answers ++ (onConnectReply s.conn none).2) a
        anyAddr := by
      refine ⟨h.dest, ?_, ?_, fun _ => ⟨rfl, rfl⟩, fun hu => absurd hu hudp⟩
      · simp only [onConnectReply, h.accepted, h.udp]
        rfl
      · rw [h.answers]
        exact List.prefix_refl _
    refine .replied a anyAddr [] { h with
      recvd := by simp [h.recvd], message := ?_, serving := hserving, behind := fun _ => ?_ }
    · simp only [h.recvd, h.down]
      rfl
    · exact ⟨h.up, h.quiet.1, h.quiet.2.2.1, h.quiet.2.1, h.quiet.2.2.2.symm⟩
  | some e =>
    refine .refused ⟨rfl, fun x hx => ?_, .inr ⟨h.state, h.unsent, h.recvTotal, by simp [h.recvd], ?_⟩, h.quiet⟩
    · simp only [onConnectReply, fail, h.accepted, Option.some.injEq] at hx
      exact ⟨a, h.dest, by rw [← hx, h.udp]; rfl⟩
    · simpa [h.recvd, h.down, onConnectReply, fail] using refusal_respError e

theorem Phase.closed {s : Session} (h : Phase s) : Phase { s with conn := { s.conn with closed := true } } := by
  cases h with
  | idle h => exact .idle { h with waiting := h.waiting.closed }
  | sendingHello h => exact .sendingHello { h with waiting := h.waiting.closed }
  | sentHello h => exact .sentHello { h with waiting := h.waiting.closed }
  | chosen h => exact .chosen { h with waiting := h.waiting.closed }
  | sendingRequest a h => exact .sendingRequest a { h with waiting := h.waiting.closed }
  | sentRequest a h => exact .sentRequest a { h with waiting := h.waiting.closed }
  | accepted a h => exact .accepted a { h with }
  | replied a b rest h => exact .replied a b rest { h with serving := h.serving.mono rfl rfl rfl rfl }
  | headerRead a b rest h => exact .headerRead a b rest { h with serving := h.serving.mono rfl rfl rfl rfl }
  | up a b h => exact .up a b { h with serving := h.serving.mono rfl rfl rfl rfl }
  | refusedHello h => exact .refusedHello { h with closed := rfl }
  | refused h => exact .refused { h with closed := rfl }

/-! ### The tunnel -/

theorem Phase.served {s : Session} (h : Phase s) (hc : s.conn.closed = false) (hcb : s.conn.cb = .onTunnel) :
    ∃ a b, Served s a b := by
  cases h.server with
  | refused closed => exact absurd (closed.symm.trans hc) (by simp)
  | waiting f h => exact absurd (h.cb.symm.trans hcb) (by simp)
  | accepted a h => exact absurd (h.cb.symm.trans hcb) (by simp)
  | serving a b _ served => exact ⟨a, b, served⟩

/-- The tunnel reads what the user of the client has written; before the client is up there is nothing. -/
theorem Phase.tunnelRead {s : Session} (h : Phase s) (hc : s.conn.closed = false) (hcb : s.conn.cb = .onTunnel)
    (k : ℕ) : Phase { s with up := s.up.drop k, relayed := s.relayed ++ s.up.take k } := by
  have hbehind : ∀ rest, Behind s rest →
      Behind { s with up := s.up.drop k, relayed := s.relayed ++ s.up.take k } rest := by
    intro rest hb hu
    obtain ⟨hup, happ, hrel, hgot, hrest⟩ := hb hu
    exact ⟨by simp [hup], happ, by simp [hup, hrel], hgot, hrest⟩
  obtain ⟨a, b, hs⟩ := h.served hc hcb
  cases hs with
  | replied rest h => exact .replied a b rest { h with behind := hbehind rest h.behind }
  | headerRead rest h => exact .headerRead a b rest { h with behind := hbehind rest h.behind }
  | up h =>
    refine .up a b { h with relay := fun hu => ⟨?_, (h.relay hu).2⟩ }
    rw [← (h.relay hu).1]
    simp only [List.append_assoc, List.take_append_drop]

theorem Phase.tunnelWrite {s : Session} (h : Phase s) (hc : s.conn.closed = false) (hcb : s.conn.cb = .onTunnel)
    (bs : List UInt8) : Phase { s with down := s.down ++ bs, data := s.data ++ bs } := by
  have hbehind : ∀ rest, Behind s rest →
      Behind { s with down := s.down ++ bs, data := s.data ++ bs } (rest ++ bs) := by
    intro rest hb hu
    obtain ⟨hup, happ, hrel, hgot, hrest⟩ := hb hu
    exact ⟨hup, happ, hrel, hgot, congrArg (· ++ bs) hrest⟩
  obtain ⟨a, b, hs⟩ := h.served hc hcb
  cases hs with
  | replied rest h =>
    refine .replied a b (rest ++ bs) { h with message := ?_, behind := hbehind rest h.behind }
    rw [← List.append_assoc, ← List.append_assoc, ← h.message]
  | headerRead rest h =>
    refine .headerRead a b (rest ++ bs) { h with message := ?_, behind := hbehind rest h.behind }
    rw [← List.append_assoc, ← List.append_assoc, ← h.message]
  | up h =>
    refine .up a b { h with relay := fun hu => ⟨(h.relay hu).1, ?_⟩ }
    rw [← (h.relay hu).2]
    exact (List.append_assoc _ _ _).symm

/-! ### Runs -/

theorem Phase.of_up {s : Session} (h : Phase s) (hs : s.client.state = .UP) : ∃ a b, Up s a b := by
  have hc := h.client
  rw [hs] at hc
  exact hc.resolve_right fun h => by simp [refusable] at h

theorem Phase.of_idle {s : Session} (h : Phase s)
    (hs : s.client.state = .CONNECTING ∨ s.client.state = .CONNECTED_HANDLER) : Idle s := by
  have hc := h.client
  rcases hs with hs | hs <;> rw [hs] at hc <;> exact hc.resolve_right fun h => by simp [refusable] at h

theorem Phase.continueJob {s : Session} (h : Phase s) (hs : s.client.state = .CONNECTED_HANDLER) :
    Phase (s.handle (continueJobHandler s.client) s) := by
  refine h.handle fun c hc => ?_
  have hi := h.of_idle (.inr hs)
  rw [continueJobHandler] at hc
  by_cases hn : s.client.authInfo.length = 0 ∨ 255 < s.client.authInfo.length
  · rw [if_pos hn] at hc
    cases hc
  · rw [if_neg hn] at hc
    obtain rfl := Option.some.inj hc
    have hle : s.client.authInfo.length ≤ 255 := by omega
    have hne : s.client.authInfo ≠ [] := List.ne_nil_of_length_pos (by omega)
    refine .sendingHello { hi with
      state := rfl, unsent := List.cons_ne_nil _ _, few := hle, methods := hne, message := ?_ }
    rw [hi.up]
    rfl

/-- **The invariant of a session.** -/
theorem phase_step {s s' : Session} {l : Label} (h : Phase s) (hs : step params udpOn s l = some s') : Phase s' := by
  cases l with
  | connector bound =>
    obtain ⟨hg, hs⟩ := Option.ite_none_right_eq_some.mp hs
    obtain rfl := (Option.some.inj hs).symm
    have hi := h.of_idle (.inl hg.2)
    exact .idle { hi with state := .inr rfl }
  | continueJob =>
    obtain ⟨hg, hs⟩ := Option.ite_none_right_eq_some.mp hs
    obtain rfl := (Option.some.inj hs).symm
    exact h.continueJob hg.2
  | write k =>
    obtain ⟨hg, hs⟩ := Option.ite_none_right_eq_some.mp hs
    obtain rfl := (Option.some.inj hs).symm
    exact h.write hg.2.2 hg.2.1
  | read k =>
    obtain ⟨⟨_, hr, h0, hk, hfit⟩, hs⟩ := Option.ite_none_right_eq_some.mp hs
    obtain rfl := (Option.some.inj hs).symm
    exact h.read hk h0 hr hfit
  | request k calls =>
    obtain ⟨⟨hc, hcb, h0, hk⟩, hs⟩ := Option.ite_none_right_eq_some.mp hs
    obtain rfl := (Option.some.inj hs).symm
    exact h.requested params udpOn hc hcb h0 hk calls
  | connect error =>
    obtain ⟨⟨hc, hcb, hacc⟩, hs⟩ := Option.ite_none_right_eq_some.mp hs
    obtain rfl := (Option.some.inj hs).symm
    exact h.connect hc hcb hacc error
  | userWrite bs =>
    obtain ⟨⟨_, hup, hu⟩, hs⟩ := Option.ite_none_right_eq_some.mp hs
    obtain rfl := (Option.some.inj hs).symm
    obtain ⟨a, b, h⟩ := h.of_up hup
    refine .up a b { h with relay := fun hu => ⟨?_, (h.relay hu).2⟩ }
    rw [← (h.relay hu).1]
    exact (List.append_assoc _ _ _).symm
  | userRead k =>
    obtain ⟨⟨_, hup, hu, _⟩, hs⟩ := Option.ite_none_right_eq_some.mp hs
    obtain rfl := (Option.some.inj hs).symm
    obtain ⟨a, b, h⟩ := h.of_up hup
    refine .up a b { h with relay := fun hu => ⟨(h.relay hu).1, ?_⟩ }
    rw [← (h.relay hu).2]
    simp only [List.append_assoc, List.take_append_drop]
  | tunnelRead k =>
    obtain ⟨⟨hc, hcb, _⟩, hs⟩ := Option.ite_none_right_eq_some.mp hs
    obtain rfl := (Option.some.inj hs).symm
    exact h.tunnelRead hc hcb k
  | tunnelWrite bs =>
    obtain ⟨⟨hc, hcb⟩, hs⟩ := Option.ite_none_right_eq_some.mp hs
    obtain rfl := (Option.some.inj hs).symm
    exact h.tunnelWrite hc hcb bs
  | closeClient =>
    obtain rfl := (Option.some.inj hs).symm
    exact h.gone
  | closeServer =>
    obtain rfl := (Option.some.inj hs).symm
    exact h.closed

variable {authInfo : List AuthInfo} {dest : Option SockaddrU} {udp : Bool} {s : Session}

theorem phase_init : Phase (.init authInfo dest udp) :=
  .idle ⟨.inl rfl, rfl, rfl, rfl, ⟨rfl, rfl, rfl, rfl⟩, rfl, rfl, rfl, rfl⟩

theorem phase_of_reachable (h : Reachable (step params udpOn) (.init authInfo dest udp) anyStep s) : Phase s :=
  h.invariant phase_init fun _ _ _ _ hp _ hs => phase_step params udpOn hp hs

end BypassVpn.SocksSession
