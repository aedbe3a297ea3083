import BypassVpn.Ciadpi.Address
import BypassVpn.Ciadpi.Conev

/-!
# `proxy.c`: the server's side of SOCKS5

`on_request` with what one `recv` has put into its buffer, as the app sets it up: SOCKS5 and nothing else. What the
calls to the system return is given; what is sent is returned.

* `authSocks5`, `handleS5`, `onRequest`, `onConnectReply`.
* **`onRequest_hello`**, **`onRequest_request`**: what it makes of a message that came as a whole.
* **`onRequest_hello_cut`**, **`onRequest_request_cut`**: of a part of it.
-/

namespace BypassVpn.Ciadpi.Request

open Conev Region

def S_VER5 : UInt8 := 0x05
def S_AUTH_NONE : UInt8 := 0x00
def S_AUTH_BAD : UInt8 := 0xFF
def S_CMD_CONN : UInt8 := 0x01
def S_CMD_AUDP : UInt8 := 0x03

/-- The `struct eval` of a client, as far as the requests go. -/
structure Conn where
  cb : Evcb
  /-- `val->flag == FLAG_S5` -/
  flagS5 : Bool
  closed : Bool
  /-- The command and the address for which a connection was made. -/
  accepted : Option (UInt8 × SockaddrU)
  deriving DecidableEq

/-- A connection that has been accepted. -/
def Conn.init : Conn := ⟨.onRequest, false, false, none⟩

/-- How `connect_hook` and `udp_associate` turn out: `bound` is the name of the socket for the datagrams, where
they get so far that it is sent; `late` says that what comes after fails. -/
structure RequestCalls where
  connect : Bool
  bound : Option SockaddrU
  late : Bool

/-- `resp_s5_error` -/
def respS5Error (e : ℕ) : Bytes := [S_VER5, UInt8.ofNat e, 0, S_ATP_I4, 0, 0, 0, 0, 0, 0]

/-- The errors of a connection that `resp_error` tells apart. -/
inductive Errno
  | ECONNREFUSED
  | EHOSTUNREACH
  | ETIMEDOUT
  | ENETUNREACH
  | other
  deriving DecidableEq

/-- `resp_error` for a client of SOCKS5; `none` is no error. -/
def respError : Option Errno → Bytes
  | none => respS5Error S_ER_OK
  | some .ECONNREFUSED => respS5Error S_ER_CONN
  | some .EHOSTUNREACH | some .ETIMEDOUT => respS5Error S_ER_HOST
  | some .ENETUNREACH => respS5Error S_ER_NET
  | some .other => respS5Error S_ER_GEN

/-- What was sent, and whether `on_request` fails so that the loop closes the connection. -/
def fail (c : Conn) (sent : Bytes) : Conn × Bytes := ({ c with closed := true }, sent)

/-- `auth_socks5` on the bytes of one `recv`: what it sends, and whether it succeeds. -/
def authSocks5 (buffer : Bytes) : Bytes × Bool :=
  if buffer.length ≤ 2 ∨ (buffer.getD 1 0).toNat ≠ buffer.length - 2 then ([], false)
  else
    let c := if S_AUTH_NONE ∈ buffer.drop 2 then S_AUTH_NONE else S_AUTH_BAD
    ([S_VER5, c], c != S_AUTH_BAD)

/-- The request for a connection to `dst`. -/
def connectHook (c : Conn) (dst : SockaddrU) (calls : RequestCalls) : Conn × Bytes :=
  if calls.connect then ({ c with cb := .onIgnore, accepted := some (S_CMD_CONN, dst) }, [])
  else fail c (respError (some .other))

/-- `udp_associate`: the reply is sent once the sockets are paired; what fails later is answered once more. -/
def udpAssociate (c : Conn) (dst : SockaddrU) (calls : RequestCalls) : Conn × Bytes :=
  match calls.bound with
  | none => fail c (respError (some .other))
  | some a =>
    let c := { c with cb := .onIgnore, accepted := some (S_CMD_AUDP, dst) }
    let sent := [S_VER5, 0, 0] ++ s5Form a
    if calls.late then fail c (sent ++ respError (some .other)) else (c, sent)

/-- `handle_s5`, and what `on_request` makes of its result. -/
def handleS5 (params : AddrParams) (udp : Bool) (c : Conn) (buffer : Bytes) (calls : RequestCalls) : Conn × Bytes :=
  if c.flagS5 = false then
    let (sent, ok) := authSocks5 buffer
    if ok then ({ c with flagS5 := true }, sent) else fail c sent
  else if buffer.length < S_SIZE_MIN then fail c (respError (some .other))
  else
    let cmd := buffer.getD 1 0
    if cmd = S_CMD_CONN ∨ cmd = S_CMD_AUDP ∧ udp = true then
      match s5GetAddr params buffer with
      | .ok _ dst => if cmd = S_CMD_CONN then connectHook c dst calls else udpAssociate c dst calls
      | .error e => fail c (respS5Error e)
      -- an address without a family: no socket is made for it
      | .outside => fail c (respError (some .other))
    else fail c (respS5Error S_ER_CMD)

/-- `on_request`, `recv` having returned `buffer`. -/
def onRequest (params : AddrParams) (udp : Bool) (c : Conn) (buffer : Bytes) (calls : RequestCalls) : Conn × Bytes :=
  if buffer = [] then fail c []
  else if buffer.getD 0 0 = S_VER5 then handleS5 params udp c buffer calls
  else fail c []

/-- `on_connect` of the server: what the client is sent, when it has nothing to send on. -/
def onConnectReply (c : Conn) (error : Option Errno) : Conn × Bytes :=
  match error with
  | none => ({ c with cb := .onTunnel }, respError none)
  | some e => fail c (respError (some e))

/-! ### The hello -/

/-- The hello with the methods `ms`. -/
def helloOf (ms : Bytes) : Bytes := S_VER5 :: UInt8.ofNat ms.length :: ms

/-- The request `cmd` for `a`. -/
def requestOf (cmd : UInt8) (a : SockaddrU) : Bytes := [S_VER5, cmd, 0] ++ s5Form a

theorem authSocks5_hello {ms : Bytes} (hne : ms ≠ []) (hlen : ms.length ≤ 255) :
    authSocks5 (helloOf ms) =
      ([S_VER5, if S_AUTH_NONE ∈ ms then S_AUTH_NONE else S_AUTH_BAD], decide (S_AUTH_NONE ∈ ms)) := by
  have hpos : 0 < ms.length := List.length_pos_iff.mpr hne
  have hn : (UInt8.ofNat ms.length).toNat = ms.length := by
    rw [UInt8.toNat_ofNat', Nat.mod_eq_of_lt (by omega)]
  rw [authSocks5, if_neg]
  · rw [show (helloOf ms).drop 2 = ms from rfl]
    by_cases h : S_AUTH_NONE ∈ ms
    · rw [if_pos h, decide_eq_true h]
      rfl
    · rw [if_neg h, decide_eq_false h]
      rfl
  · rw [show (helloOf ms).getD 1 0 = UInt8.ofNat ms.length from rfl, hn, helloOf, List.length_cons,
      List.length_cons]
    omega

theorem authSocks5_cut {ms : Bytes} (hlen : ms.length ≤ 255) {k : ℕ} (hk : k < ms.length + 2) :
    authSocks5 ((helloOf ms).take k) = ([], false) := by
  have hl : ((helloOf ms).take k).length = k := by
    rw [List.length_take, helloOf, List.length_cons, List.length_cons]
    omega
  rw [authSocks5, if_pos]
  rw [hl]
  by_cases h2 : k ≤ 2
  · exact .inl h2
  · refine .inr ?_
    have hn : (UInt8.ofNat ms.length).toNat = ms.length := by
      rw [UInt8.toNat_ofNat', Nat.mod_eq_of_lt (by omega)]
    rw [List.getD_eq_getElem?_getD, List.getElem?_take_of_lt (by omega), ← List.getD_eq_getElem?_getD,
      show (helloOf ms).getD 1 0 = UInt8.ofNat ms.length from rfl, hn]
    omega

variable {params : AddrParams} {udp : Bool} {c : Conn}

/-- **The answer to a hello.** -/
theorem onRequest_hello (hc : c.flagS5 = false) {ms : Bytes} (hne : ms ≠ []) (hlen : ms.length ≤ 255)
    (calls : RequestCalls) :
    onRequest params udp c (helloOf ms) calls =
      if S_AUTH_NONE ∈ ms then ({ c with flagS5 := true }, [S_VER5, S_AUTH_NONE])
      else fail c [S_VER5, S_AUTH_BAD] := by
  have hv : (helloOf ms).getD 0 0 = S_VER5 := rfl
  have hne' : ¬helloOf ms = [] := List.cons_ne_nil _ _
  rw [onRequest, if_neg hne', if_pos hv, handleS5, if_pos hc, authSocks5_hello hne hlen]
  by_cases h : S_AUTH_NONE ∈ ms
  · simp [h]
  · simp [h]

/-- **A part of a hello ends the connection**, without an answer. -/
theorem onRequest_hello_cut (hc : c.flagS5 = false) {ms : Bytes} (hlen : ms.length ≤ 255) {k : ℕ} (h0 : 0 < k)
    (hk : k < ms.length + 2) (calls : RequestCalls) :
    onRequest params udp c ((helloOf ms).take k) calls = fail c [] := by
  obtain ⟨k, rfl⟩ : ∃ j, k = j + 1 := ⟨k - 1, by omega⟩
  have hv : ((helloOf ms).take (k + 1)).getD 0 0 = S_VER5 := rfl
  rw [onRequest, if_neg (by simp [helloOf]), if_pos hv, handleS5, if_pos hc, authSocks5_cut hlen hk]
  rfl

/-! ### The request -/

/-- A code of `resp_s5_error` that says that something failed. -/
def Refusal (bs : Bytes) : Prop := ∃ e, 0 < e ∧ e < 256 ∧ bs = respS5Error e

theorem refusal_respError (e : Errno) : Refusal (respError (some e)) := by
  cases e
  · exact ⟨S_ER_CONN, by decide, by decide, rfl⟩
  · exact ⟨S_ER_HOST, by decide, by decide, rfl⟩
  · exact ⟨S_ER_HOST, by decide, by decide, rfl⟩
  · exact ⟨S_ER_NET, by decide, by decide, rfl⟩
  · exact ⟨S_ER_GEN, by decide, by decide, rfl⟩

/-- Every address of a request is read, or refused for its type. -/
theorem s5GetAddr_request (params : AddrParams) (cmd : UInt8) (a : SockaddrU) :
    s5GetAddr params (requestOf cmd a) =
      if a.family = .AF_INET6 ∧ params.ipv6 = false then .error S_ER_ATP else .ok a.family.s5Size a := by
  by_cases h6 : a.family = .AF_INET6 ∧ params.ipv6 = false
  · rw [if_pos h6]
    have h := s5GetAddr_noIpv6 h6.2 (show [S_VER5, cmd, 0].length = 3 from rfl) h6.1 []
    rwa [List.append_nil] at h
  · rw [if_neg h6]
    have h := s5GetAddr_s5Form params (show [S_VER5, cmd, 0].length = 3 from rfl) a
      (fun hf => by simpa [hf] using h6) []
    rwa [List.append_nil] at h

theorem length_requestOf (cmd : UInt8) (a : SockaddrU) : (requestOf cmd a).length = a.family.s5Size := by
  rw [requestOf, List.length_append, length_s5Form, Family.s5Size_eq, List.length_cons, List.length_cons,
    List.length_cons, List.length_nil]
  omega

theorem sizeMin_le_s5Size (f : Family) : S_SIZE_MIN ≤ f.s5Size := by cases f <;> decide

/-- What `on_request` does with the request `cmd` for `a`. -/
def served (params : AddrParams) (udp : Bool) (c : Conn) (cmd : UInt8) (a : SockaddrU) (calls : RequestCalls) :
    Conn × Bytes :=
  if cmd = S_CMD_CONN ∨ cmd = S_CMD_AUDP ∧ udp = true then
    if a.family = .AF_INET6 ∧ params.ipv6 = false then fail c (respS5Error S_ER_ATP)
    else if cmd = S_CMD_CONN then connectHook c a calls
    else udpAssociate c a calls
  else fail c (respS5Error S_ER_CMD)

/-- A request is refused, or a connection is made, or the sockets for the datagrams are; what fails after
their name was sent is answered once more. -/
theorem served_cases (params : AddrParams) (udp : Bool) (c : Conn) (cmd : UInt8) (a : SockaddrU)
    (calls : RequestCalls) :
    (∃ bs, Refusal bs ∧ served params udp c cmd a calls = fail c bs) ∨
      (cmd = S_CMD_CONN ∧
        served params udp c cmd a calls = ({ c with cb := .onIgnore, accepted := some (cmd, a) }, [])) ∨
      cmd = S_CMD_AUDP ∧ ∃ b rest cl, served params udp c cmd a calls =
        ({ c with cb := .onIgnore, accepted := some (cmd, a), closed := cl }, [S_VER5, 0, 0] ++ s5Form b ++ rest) := by
  rw [served]
  by_cases hm : cmd = S_CMD_CONN ∨ cmd = S_CMD_AUDP ∧ udp = true
  · rw [if_pos hm]
    by_cases h6 : a.family = .AF_INET6 ∧ params.ipv6 = false
    · rw [if_pos h6]
      exact .inl ⟨_, ⟨S_ER_ATP, by decide, by decide, rfl⟩, rfl⟩
    · rw [if_neg h6]
      by_cases hc : cmd = S_CMD_CONN
      · rw [if_pos hc, connectHook]
        by_cases hconn : calls.connect = true
        · rw [if_pos hconn, hc]
          exact .inr (.inl ⟨rfl, rfl⟩)
        · rw [if_neg hconn]
          exact .inl ⟨_, refusal_respError .other, rfl⟩
      · have hu : cmd = S_CMD_AUDP := (hm.resolve_left hc).1
        rw [if_neg hc, udpAssociate, hu]
        cases calls.bound with
        | none => exact .inl ⟨_, refusal_respError .other, rfl⟩
        | some b =>
          cases calls.late with
          | true => exact .inr (.inr ⟨rfl, b, _, true, rfl⟩)
          | false => exact .inr (.inr ⟨rfl, b, [], c.closed, by simp⟩)
  · rw [if_neg hm]
    exact .inl ⟨_, ⟨S_ER_CMD, by decide, by decide, rfl⟩, rfl⟩

/-- **The answer to a request.** -/
theorem onRequest_request (hc : c.flagS5 = true) (cmd : UInt8) (a : SockaddrU) (calls : RequestCalls) :
    onRequest params udp c (requestOf cmd a) calls = served params udp c cmd a calls := by
  have hmin : ¬(requestOf cmd a).length < S_SIZE_MIN := by
    rw [length_requestOf]
    exact Nat.not_lt.mpr (sizeMin_le_s5Size _)
  have hne : ¬requestOf cmd a = [] := List.cons_ne_nil _ _
  have hv : (requestOf cmd a).getD 0 0 = S_VER5 := rfl
  rw [onRequest, if_neg hne, if_pos hv, handleS5, if_neg (by simp [hc]), if_neg hmin,
    show (requestOf cmd a).getD 1 0 = cmd from rfl, s5GetAddr_request, served]
  dsimp only
  by_cases h6 : a.family = .AF_INET6 ∧ params.ipv6 = false
  · simp only [if_pos h6]
  · simp only [if_neg h6]

/-- **A part of a request ends the connection**, with the answer that it failed. -/
theorem onRequest_request_cut (hc : c.flagS5 = true) (cmd : UInt8) (a : SockaddrU) {k : ℕ} (h0 : 0 < k)
    (hk : k < a.family.s5Size) (calls : RequestCalls) :
    ∃ bs, Refusal bs ∧ onRequest params udp c ((requestOf cmd a).take k) calls = fail c bs := by
  have hlen : ((requestOf cmd a).take k).length = k := by
    rw [List.length_take, length_requestOf]
    omega
  have hne : (requestOf cmd a).take k ≠ [] := List.ne_nil_of_length_pos (by omega)
  have hv : ((requestOf cmd a).take k).getD 0 0 = S_VER5 := by
    rw [List.getD_eq_getElem?_getD, List.getElem?_take_of_lt h0]
    rfl
  rw [onRequest, if_neg hne, if_pos hv, handleS5, if_neg (by simp [hc]), hlen]
  by_cases hmin : k < S_SIZE_MIN
  · exact ⟨_, refusal_respError .other, if_pos hmin⟩
  · have h1 : 1 < k := by
      rw [S_SIZE_MIN, S_SIZE_I4] at hmin
      omega
    have hcmd : ((requestOf cmd a).take k).getD 1 0 = cmd := by
      rw [List.getD_eq_getElem?_getD, List.getElem?_take_of_lt h1]
      rfl
    have hget : s5GetAddr params ((requestOf cmd a).take k) = .error S_ER_GEN := s5GetAddr_cut params rfl a hk
    rw [if_neg hmin, hcmd, hget]
    by_cases hm : cmd = S_CMD_CONN ∨ cmd = S_CMD_AUDP ∧ udp = true
    · exact ⟨_, ⟨S_ER_GEN, by decide, by decide, rfl⟩, if_pos hm⟩
    · exact ⟨_, ⟨S_ER_CMD, by decide, by decide, rfl⟩, if_neg hm⟩

end BypassVpn.Ciadpi.Request
