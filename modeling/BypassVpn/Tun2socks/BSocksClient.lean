import BypassVpn.Ciadpi.Address

/-!
# `BSocksClient.c`: the client's side of SOCKS5

The states of a `BSocksClient` and its handlers. `none` is `report_error`: the owner frees the client.
Allocations succeed. What it sends is written bit by bit, and what it receives comes bit by bit.

* `Client`; `connectorHandler`, `continueJobHandler`, `sendHandlerDone`, `recvHandlerDone`, `authFinished`.
* `hello`, `request`: the messages.
* `written_of_lt`, `written_all`, `recvHandlerDone_of_lt`, `recvHandlerDone_all`: the parts of a message and its end.
-/

namespace BypassVpn.BSocksClient

open Ciadpi Region

/-- The version octet. -/
def SOCKS_VERSION : UInt8 := 0x05

def SOCKS_METHOD_NO_AUTHENTICATION_REQUIRED : UInt8 := 0x00
def SOCKS_METHOD_USERNAME_PASSWORD : UInt8 := 0x02

def SOCKS_CMD_CONNECT : UInt8 := 0x01
def SOCKS_CMD_UDP_ASSOCIATE : UInt8 := 0x03

def SOCKS_ATYP_IPV4 : UInt8 := 0x01
def SOCKS_ATYP_IPV6 : UInt8 := 0x04

def SOCKS_REP_SUCCEEDED : UInt8 := 0x00

/-- A `struct BSocksClient_auth_info`. -/
structure AuthInfo where
  authType : UInt8
  username : List UInt8
  password : List UInt8
  deriving DecidableEq

/-- `STATE_…` -/
inductive State
  | CONNECTING
  | CONNECTED_HANDLER
  | SENDING_HELLO
  | SENT_HELLO
  | SENDING_PASSWORD
  | SENT_PASSWORD
  | SENDING_REQUEST
  | SENT_REQUEST
  | RECEIVED_REPLY_HEADER
  | UP
  deriving DecidableEq

/-- A `BSocksClient`. -/
structure Client where
  state : State
  authInfo : List AuthInfo
  /-- `none` where the address has no type that can be sent. -/
  destAddr : Option SockaddrU
  udp : Bool
  /-- What the sender has still to write of the message. -/
  unsent : List UInt8
  /-- What has come of the `recvTotal` bytes asked for. -/
  recvd : List UInt8
  recvTotal : ℕ
  bindType : Family
  bindAddr : Option SockaddrU
  deriving DecidableEq

/-- `BSocksClient_Init` -/
def init (authInfo : List AuthInfo) (destAddr : Option SockaddrU) (udp : Bool) : Client where
  state := .CONNECTING
  authInfo := authInfo
  destAddr := destAddr
  udp := udp
  unsent := []
  recvd := []
  recvTotal := 0
  bindType := .AF_INET
  bindAddr := none

/-- The client waits for `total` octets. -/
def startReceive (c : Client) (total : ℕ) : Client := { c with recvd := [], recvTotal := total }

/-- `connector_handler` without an error; its user sets the address of a UDP client (`BSocksClient_SetDestAddr`). -/
def connectorHandler (c : Client) (bound : Option SockaddrU) : Client :=
  { c with state := .CONNECTED_HANDLER, destAddr := if c.udp then bound else c.destAddr }

/-- The hello: the methods the client knows. -/
def hello (authInfo : List AuthInfo) : List UInt8 :=
  SOCKS_VERSION :: UInt8.ofNat authInfo.length :: authInfo.map AuthInfo.authType

/-- `continue_job_handler`: the hello is sent; `none` where an assertion fails. -/
def continueJobHandler (c : Client) : Option Client :=
  if c.authInfo.length = 0 ∨ 255 < c.authInfo.length then none
  else some { c with state := .SENDING_HELLO, unsent := hello c.authInfo }

/-- The request for `a`. -/
def request (udp : Bool) (a : SockaddrU) : List UInt8 :=
  [SOCKS_VERSION, if udp then SOCKS_CMD_UDP_ASSOCIATE else SOCKS_CMD_CONNECT, 0] ++ s5Form a

/-- `auth_finished`: the request is sent; `none` where there is no address. -/
def authFinished (c : Client) : Option Client :=
  c.destAddr.map fun a => { c with state := .SENDING_REQUEST, unsent := request c.udp a }

/-- The answer to a method; a method of another type does not come up. -/
def authenticate (c : Client) (ai : AuthInfo) : Option Client :=
  if ai.authType = SOCKS_METHOD_NO_AUTHENTICATION_REQUIRED then authFinished c
  else if ai.authType = SOCKS_METHOD_USERNAME_PASSWORD then
    if ai.username.length = 0 ∨ 255 < ai.username.length ∨ ai.password.length = 0 ∨ 255 < ai.password.length then none
    else some { c with
      state := .SENDING_PASSWORD
      unsent := 1 :: UInt8.ofNat ai.username.length :: ai.username ++
        UInt8.ofNat ai.password.length :: ai.password }
  else none

/-- The bytes of an address behind the header of a reply. -/
def addrLen (f : Family) : ℕ := f.size + 2

/-- `recv_handler_done` once all that was asked for has come. -/
def received (c : Client) (buffer : List UInt8) : Option Client :=
  match c.state with
  | .SENT_HELLO =>
    if buffer.getD 0 0 ≠ SOCKS_VERSION then none
    else (c.authInfo.find? fun ai => ai.authType = buffer.getD 1 0).bind (authenticate c)
  | .SENT_REQUEST =>
    if buffer.getD 0 0 ≠ SOCKS_VERSION then none
    else if buffer.getD 1 0 ≠ SOCKS_REP_SUCCEEDED then none
    else if buffer.getD 3 0 = SOCKS_ATYP_IPV4 then
      some { startReceive c (addrLen .AF_INET) with state := .RECEIVED_REPLY_HEADER, bindType := .AF_INET }
    else if buffer.getD 3 0 = SOCKS_ATYP_IPV6 then
      some { startReceive c (addrLen .AF_INET6) with state := .RECEIVED_REPLY_HEADER, bindType := .AF_INET6 }
    else none
  | .SENT_PASSWORD =>
    if buffer.getD 0 0 ≠ 1 then none
    else if buffer.getD 1 0 ≠ 0 then none
    else authFinished c
  | .RECEIVED_REPLY_HEADER =>
    some { c with state := .UP, bindAddr := readAddr c.bindType buffer 0 c.bindType.size }
  | _ => none

/-- `recv_handler_done` -/
def recvHandlerDone (c : Client) (data : List UInt8) : Option Client :=
  if (c.recvd ++ data).length < c.recvTotal then some { c with recvd := c.recvd ++ data }
  else received c (c.recvd ++ data)

/-- `send_handler_done` -/
def sendHandlerDone (c : Client) : Option Client :=
  match c.state with
  | .SENDING_HELLO => some { startReceive c 2 with state := .SENT_HELLO }
  | .SENDING_REQUEST => some { startReceive c 4 with state := .SENT_REQUEST }
  | .SENDING_PASSWORD => some { startReceive c 2 with state := .SENT_PASSWORD }
  | _ => none

/-- The sender has written `k` bytes more. -/
def written (c : Client) (k : ℕ) : Option Client :=
  let c := { c with unsent := c.unsent.drop k }
  if c.unsent = [] then sendHandlerDone c else some c

/-! ### Parts of a message -/

theorem written_of_lt (c : Client) {k : ℕ} (hk : k < c.unsent.length) :
    written c k = some { c with unsent := c.unsent.drop k } := by
  have hne : c.unsent.drop k ≠ [] := by
    rw [Ne, List.drop_eq_nil_iff]
    omega
  exact if_neg hne

theorem written_all (c : Client) : written c c.unsent.length = sendHandlerDone { c with unsent := [] } := by
  rw [written, List.drop_length]
  exact if_pos rfl

theorem recvHandlerDone_of_lt (c : Client) {data : List UInt8} (h : (c.recvd ++ data).length < c.recvTotal) :
    recvHandlerDone c data = some { c with recvd := c.recvd ++ data } := if_pos h

theorem recvHandlerDone_all (c : Client) {data : List UInt8} (h : (c.recvd ++ data).length = c.recvTotal) :
    recvHandlerDone c data = received c (c.recvd ++ data) := if_neg (by omega)

end BypassVpn.BSocksClient
