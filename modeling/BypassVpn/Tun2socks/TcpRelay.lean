import BypassVpn.Tun2socks.Bridge

/-!
# The relay of a TCP client

What a `tcp_client` of tun2socks does with the bytes: from lwIP into `buf` and on to the SOCKS server, and from there
through `socks_recv_buf` back to lwIP. The callbacks come in any order that lwIP, `StreamPassInterface` and
`StreamRecvInterface` allow.

* `Relay`: the client, the operations that are under way, and what has passed so far.
* `clientRecvFunc`, …, `clientSentFunc`: the callbacks; `none` where an assertion fails.
* `Event`, `Enabled`, `step`: the system.
-/

namespace BypassVpn.TcpRelay

open Region Transition

/-- Octets of the stream. -/
abbrev Bytes := List UInt8

/-! ### Data -/

/-- `sizeof(client->buf)`, which is `TCP_WND`. -/
abbrev bufSize : ℕ := Tun2socks.clientBufSize

def CLIENT_SOCKS_RECV_BUF_SIZE : ℕ := 8192

/-- `err_t`. -/
inductive Err where
  | ERR_OK
  | ERR_MEM
  /-- Any other. -/
  | ERR_FAIL
  deriving DecidableEq

/-- How the calls of `client_socks_recv_send_out` turn out. -/
structure SendOut where
  /-- In each round, `tcp_sndbuf` and what `tcp_write` returns; at the end of the list the send buffer is full. -/
  writes : List (ℕ × Err)
  output : Bool
  deriving DecidableEq

/-- One client; the defaults are what `listener_accept_func` sets up. -/
structure Relay where
  clientClosed : Bool := false
  aborted : Bool := false
  socksUp : Bool := false
  socksClosed : Bool := false
  /-- The first `buf_used` bytes. -/
  buf : Bytes := []
  /-- The first `socks_recv_buf_used` bytes; `none` for -1. -/
  socksRecvBuf : Option Bytes := none
  socksRecvBufSent : ℕ := 0
  socksRecvWaiting : Bool := false
  socksRecvTcpPending : ℕ := 0
  /-- `client_dealloc` was called. -/
  freed : Bool := false
  /-- The callbacks of the pcb that are set. -/
  errFunc : Bool := true
  recvFunc : Bool := true
  sentFunc : Bool := false
  /-- The length of the `Send` that is under way. -/
  sending : Option ℕ := none
  receiving : Bool := false
  /-- What lwIP has passed on, and how much of it was confirmed to it by `tcp_recved`. -/
  fromClient : Bytes := []
  recved : ℕ := 0
  toSocks : Bytes := []
  fromSocks : Bytes := []
  /-- What lwIP was given, and how much of it the peer has acknowledged. -/
  toClient : Bytes := []
  acked : ℕ := 0
  /-- The client has closed, failed or was aborted. -/
  clientGone : Bool := false
  /-- The SOCKS server has closed or failed. -/
  socksGone : Bool := false
  deriving DecidableEq

/-- The rest of `socks_recv_buf`. -/
def Relay.held (r : Relay) : Bytes := (r.socksRecvBuf.getD []).drop r.socksRecvBufSent

/-- `ASSERT`. -/
def ASSERT (p : Prop) [Decidable p] : Option Unit := if p then some () else none

theorem assert_bind {α : Type} {p : Prop} [Decidable p] (hp : p) (f : Unit → Option α) :
    (ASSERT p >>= f) = f () := by
  rw [ASSERT, if_pos hp]
  rfl

/-! ### Closing -/

/-- `client_dealloc`. -/
def clientDealloc (r : Relay) : Option Relay := do
  ASSERT r.clientClosed
  ASSERT r.socksClosed
  some { r with freed := true }

/-- `tcp_err`, `tcp_recv` and `tcp_sent` with `NULL`. -/
def removeCallbacks (r : Relay) : Relay := { r with errFunc := false, recvFunc := false, sentFunc := false }

/-- `client_abort_pcb`. -/
def clientAbortPcb (r : Relay) : Option Relay := do
  ASSERT (r.aborted = false)
  some { r with aborted := true }

/-- `BSocksClient_Free`: nothing it was asked for is reported any more. -/
def bSocksClientFree (r : Relay) : Relay := { r with sending := none, receiving := false }

/-- Data for the client are kept until they are acknowledged. -/
def Relay.keepsClient (r : Relay) : Bool :=
  r.socksUp && (r.socksRecvBuf.isSome || decide (0 < r.socksRecvTcpPending)) && !r.clientClosed

-- the calls nest, each closes one of the two sides: a depth of three is enough
mutual

/-- `client_handle_freed_client`; the calls nest to `depth`. -/
def clientHandleFreedClient (close : Bool) : ℕ → Relay → Option Relay
  | 0, _ => none
  | depth + 1, r => do
    ASSERT (r.clientClosed = false)
    let r := { r with clientClosed := true }
    if r.buf ≠ [] ∧ r.socksClosed = false then some r
    else if r.socksClosed = false then clientFreeSocks close depth r
    else clientDealloc r

/-- `close` tells how `tcp_close` turns out. -/
def clientFreeClient (close : Bool) : ℕ → Relay → Option Relay
  | 0, _ => none
  | depth + 1, r => do
    ASSERT (r.clientClosed = false)
    let r := removeCallbacks r
    let r ← if close then some r else clientAbortPcb r
    clientHandleFreedClient close depth r

/-- `client_free_socks`; the calls nest to `depth`. -/
def clientFreeSocks (close : Bool) : ℕ → Relay → Option Relay
  | 0, _ => none
  | depth + 1, r => do
    ASSERT (r.socksClosed = false)
    let r := { r with recvFunc := if r.socksUp ∧ r.clientClosed = false then false else r.recvFunc }
    let r := { bSocksClientFree r with socksClosed := true }
    if r.keepsClient then some r
    else if r.clientClosed = false then clientFreeClient close depth r
    else clientDealloc r

end

/-- `client_abort_client`. -/
def clientAbortClient (r : Relay) : Option Relay := do
  ASSERT (r.clientClosed = false)
  let r ← clientAbortPcb (removeCallbacks r)
  clientHandleFreedClient true 4 { r with clientGone := true }

/-- `client_murder`. -/
def clientMurder (r : Relay) : Option Relay := do
  let r := { r with clientGone := true, socksGone := true }
  let r ← if r.clientClosed then some r
    else (clientAbortPcb (removeCallbacks r)).map fun r => { r with clientClosed := true }
  let r := if r.socksClosed then r else { bSocksClientFree r with socksClosed := true }
  clientDealloc r

/-! ### From the client to the SOCKS server -/

/-- `StreamPassInterface_Sender_Send` of the whole buffer. -/
def senderSend (r : Relay) : Option Relay := do
  ASSERT (0 < r.buf.length)
  ASSERT (r.sending = none)
  some { r with sending := some r.buf.length }

/-- `client_send_to_socks`. -/
def clientSendToSocks (r : Relay) : Option Relay := do
  ASSERT (r.socksClosed = false)
  ASSERT r.socksUp
  ASSERT (0 < r.buf.length)
  senderSend r

/-- `client_err_func`. -/
def clientErrFunc (r : Relay) : Option Relay := do
  ASSERT (r.clientClosed = false)
  -- lwIP has freed the pcb
  clientHandleFreedClient true 4 { removeCallbacks r with clientGone := true }

/-- `client_recv_func` with a `pbuf`. -/
def clientRecvFunc (p : Bytes) (r : Relay) : Option Relay := do
  ASSERT (r.clientClosed = false)
  ASSERT (0 < p.length)
  if p.length > bufSize - r.buf.length then some r
  else
    let r := { r with buf := r.buf ++ p, fromClient := r.fromClient ++ p }
    if r.buf.length = p.length ∧ r.socksUp then
      ASSERT (r.socksClosed = false)
      clientSendToSocks r
    else some r

/-- `client_recv_func` without one. -/
def clientRecvFin (close : Bool) (r : Relay) : Option Relay := do
  ASSERT (r.clientClosed = false)
  clientFreeClient close 4 { r with clientGone := true }

/-- `client_socks_send_handler_done`. -/
def clientSocksSendHandlerDone (dataLen : ℕ) (r : Relay) : Option Relay := do
  ASSERT (r.socksClosed = false)
  ASSERT r.socksUp
  ASSERT (0 < r.buf.length)
  ASSERT (0 < dataLen)
  ASSERT (dataLen ≤ r.buf.length)
  let r := { r with
    toSocks := r.toSocks ++ r.buf.take dataLen
    buf := r.buf.drop dataLen
    sending := none
    recved := if r.clientClosed then r.recved else r.recved + dataLen }
  if 0 < r.buf.length then senderSend r
  else if r.clientClosed then clientFreeSocks true 4 r
  else some r

/-! ### From the SOCKS server to the client -/

/-- `client_socks_recv_initiate`. -/
def clientSocksRecvInitiate (r : Relay) : Option Relay := do
  ASSERT (r.clientClosed = false)
  ASSERT (r.socksClosed = false)
  ASSERT r.socksUp
  ASSERT (r.socksRecvBuf = none)
  ASSERT (r.receiving = false)
  some { r with receiving := true }

/-- The loop of `client_socks_recv_send_out`; the flag is false when `tcp_write` fails. -/
def writeLoop (data : Bytes) : List (ℕ × Err) → Relay → Relay × Bool
  | [], r => (r, true)
  | (sndbuf, err) :: writes, r =>
    let toWrite := min (data.length - r.socksRecvBufSent) sndbuf
    if toWrite = 0 then (r, true)
    else
      match err with
      | .ERR_MEM => (r, true)
      | .ERR_FAIL => (r, false)
      | .ERR_OK =>
        let r := { r with
          toClient := r.toClient ++ slice data r.socksRecvBufSent toWrite
          socksRecvBufSent := r.socksRecvBufSent + toWrite
          socksRecvTcpPending := r.socksRecvTcpPending + toWrite }
        if r.socksRecvBufSent < data.length then writeLoop data writes r else (r, true)

/-- The flag is false when the client was aborted. -/
def clientSocksRecvSendOut (out : SendOut) (r : Relay) : Option (Relay × Bool) := do
  let data := r.socksRecvBuf.getD []
  ASSERT (r.clientClosed = false)
  ASSERT r.socksUp
  ASSERT (0 < data.length)
  ASSERT (r.socksRecvBufSent < data.length)
  ASSERT (r.socksRecvWaiting = false)
  match writeLoop data out.writes r with
  | (r, false) => (clientAbortClient r).map (·, false)
  | (r, true) =>
    if out.output = false then (clientAbortClient r).map (·, false)
    else if r.socksRecvBufSent < data.length then
      -- all data were confirmed, and still none can be queued
      if r.socksRecvTcpPending = 0 then (clientAbortClient r).map (·, false)
      else some ({ r with socksRecvWaiting := true }, true)
    else some ({ r with socksRecvBuf := none }, true)

/-- `client_socks_recv_handler_done`. -/
def clientSocksRecvHandlerDone (data : Bytes) (out : SendOut) (r : Relay) : Option Relay := do
  ASSERT (0 < data.length)
  ASSERT (data.length ≤ CLIENT_SOCKS_RECV_BUF_SIZE)
  ASSERT (r.socksClosed = false)
  ASSERT r.socksUp
  ASSERT (r.socksRecvBuf = none)
  let r := { r with receiving := false, fromSocks := r.fromSocks ++ data }
  if r.clientClosed then some r
  else
    let r := { r with socksRecvBuf := some data, socksRecvBufSent := 0, socksRecvWaiting := false }
    let (r, up) ← clientSocksRecvSendOut out r
    if up = true ∧ r.socksRecvBuf = none then clientSocksRecvInitiate r else some r

/-- `client_sent_func`: the peer has acknowledged `len` bytes. -/
def clientSentFunc (len : ℕ) (out : SendOut) (close : Bool) (r : Relay) : Option Relay := do
  ASSERT (r.clientClosed = false)
  ASSERT r.socksUp
  ASSERT (0 < len)
  ASSERT (len ≤ r.socksRecvTcpPending)
  let r := { r with acked := r.acked + len, socksRecvTcpPending := r.socksRecvTcpPending - len }
  if 0 < (r.socksRecvBuf.getD []).length then
    ASSERT r.socksRecvWaiting
    ASSERT (r.socksRecvBufSent < (r.socksRecvBuf.getD []).length)
    let (r, up) ← clientSocksRecvSendOut out { r with socksRecvWaiting := false }
    if up = false then some r
    else
      ASSERT (0 < r.socksRecvTcpPending)
      if r.socksRecvBuf = none ∧ r.socksClosed = false then clientSocksRecvInitiate r else some r
  else if r.socksClosed = true ∧ r.socksRecvTcpPending = 0 then clientFreeClient close 4 r
  else some r

/-- `BSOCKSCLIENT_EVENT_UP` -/
def clientSocksUp (r : Relay) : Option Relay := do
  ASSERT (r.socksClosed = false)
  ASSERT (r.socksUp = false)
  let r := { r with
    socksRecvBuf := none
    socksRecvTcpPending := 0
    sentFunc := if r.clientClosed then r.sentFunc else true
    socksUp := true }
  let r ← if 0 < r.buf.length then clientSendToSocks r else some r
  if r.clientClosed then some r else clientSocksRecvInitiate r

/-- `BSOCKSCLIENT_EVENT_ERROR`, or with `closed` `BSOCKSCLIENT_EVENT_ERROR_CLOSED`. -/
def clientSocksError (closed close : Bool) (r : Relay) : Option Relay := do
  ASSERT (r.socksClosed = false)
  ASSERT (closed = true → r.socksUp = true)
  clientFreeSocks close 4 { r with socksGone := true }

/-! ### The system -/

/-- A callback of lwIP or of the SOCKS client, and how its calls turn out. -/
inductive Event where
  | recv (p : Bytes)
  | fin (close : Bool)
  | err
  | up
  | socksError (closed close : Bool)
  | sendDone (dataLen : ℕ)
  | recvDone (data : Bytes) (out : SendOut)
  | sent (len : ℕ) (out : SendOut) (close : Bool)
  /-- The end of the bridge. -/
  | murder
  deriving DecidableEq

/-- What lwIP and the SOCKS client may call: callbacks that are set, with data within the window that lwIP has announced
and acknowledgements of what was written; operations that are under way. -/
def Enabled (r : Relay) (e : Event) : Prop :=
  r.freed = false ∧
    match e with
    | .recv p => r.recvFunc = true ∧ 0 < p.length ∧ r.fromClient.length + p.length ≤ r.recved + bufSize
    | .fin _ => r.recvFunc = true
    | .err => r.errFunc = true
    | .up => r.socksClosed = false ∧ r.socksUp = false
    | .socksError closed _ => r.socksClosed = false ∧ (closed = true → r.socksUp = true)
    | .sendDone n => 0 < n ∧ n ≤ r.sending.getD 0
    | .recvDone data _ => r.receiving = true ∧ 0 < data.length ∧ data.length ≤ CLIENT_SOCKS_RECV_BUF_SIZE
    | .sent n _ _ => r.sentFunc = true ∧ 0 < n ∧ r.acked + n ≤ r.toClient.length
    | .murder => True

instance (r : Relay) : (e : Event) → Decidable (Enabled r e)
  | .recv _ => inferInstanceAs (Decidable (_ ∧ _ ∧ _ ∧ _))
  | .fin _ => inferInstanceAs (Decidable (_ ∧ _))
  | .err => inferInstanceAs (Decidable (_ ∧ _))
  | .up => inferInstanceAs (Decidable (_ ∧ _ ∧ _))
  | .socksError _ _ => inferInstanceAs (Decidable (_ ∧ _ ∧ (_ → _)))
  | .sendDone _ => inferInstanceAs (Decidable (_ ∧ _ ∧ _))
  | .recvDone _ _ => inferInstanceAs (Decidable (_ ∧ _ ∧ _ ∧ _))
  | .sent _ _ _ => inferInstanceAs (Decidable (_ ∧ _ ∧ _ ∧ _))
  | .murder => inferInstanceAs (Decidable (_ ∧ _))

/-- The callback of the event. -/
def step (r : Relay) : Event → Option Relay
  | .recv p => clientRecvFunc p r
  | .fin close => clientRecvFin close r
  | .err => clientErrFunc r
  | .up => clientSocksUp r
  | .socksError closed close => clientSocksError closed close r
  | .sendDone n => clientSocksSendHandlerDone n r
  | .recvDone data out => clientSocksRecvHandlerDone data out r
  | .sent n out close => clientSentFunc n out close r
  | .murder => clientMurder r

end BypassVpn.TcpRelay
