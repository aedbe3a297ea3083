import BypassVpn.Lib.OnesComplement
import BypassVpn.Ciadpi.Address

/-!
# `SocksUdpClient.c`: the datagrams of the client

What a `SocksUdpClient_connection` writes in front of a datagram, what it reads from a reply, and when a connection
counts as one of the DNS. Allocations succeed.

* `getDnsId`, `keepDnsId`; `udpForm`, what `connection_send` writes; `recvIfHandlerSend`.
* **`recvIfHandlerSend_form`**: a reply that fits is read as it was written; one that does not is dropped.
-/

namespace BypassVpn.SocksUdpClient

open Ciadpi Region OnesComplement

def DnsPort : ℕ := 53

/-- `get_dns_id`; `none` is `-1`. -/
def getDnsId (remoteAddr : SockaddrU) (data : List UInt8) : Option ℕ :=
  if val remoteAddr.port = DnsPort ∧ 2 ≤ data.length then
    some ((data.getD 0 0).toNat <<< 8 ||| (data.getD 1 0).toNat)
  else none

/-- `con->dns_id` after another datagram was sent. -/
def keepDnsId (dnsId : Option ℕ) (remoteAddr : SockaddrU) (data : List UInt8) : Option ℕ :=
  if dnsId.isSome ∧ getDnsId remoteAddr data ≠ dnsId then none else dnsId

/-- A datagram behind its header. -/
def udpForm (a : SockaddrU) (data : List UInt8) : List UInt8 := [0, 0, 0] ++ s5Form a ++ data

/-- The bytes of `struct socks_udp_header` and of the largest address: `compute_socks_mtu` without the payload. -/
def headerMax : ℕ := 4 + (16 + 2)

/-- `recv_if_handler_send` up to `handler_received`: the address and the data; `none` where it returns early. -/
def recvIfHandlerSend (udpMtu : ℕ) (data : List UInt8) : Option (SockaddrU × List UInt8) :=
  if data.length < 4 then none
  else
    let atyp := data.getD 3 0
    let f : Option Family := if atyp = S_ATP_I4 then some .AF_INET else if atyp = S_ATP_I6 then some .AF_INET6 else none
    f.bind fun f =>
      let data := data.drop 4
      (readAddr f data 0 f.size).bind fun remoteAddr =>
        let data := data.drop (f.size + 2)
        if data.length > udpMtu then none else some (remoteAddr, data)

/-! ### What is read of what was written -/

theorem length_udpForm (a : SockaddrU) (data : List UInt8) :
    (udpForm a data).length = a.family.s5Size + data.length := by
  rw [udpForm, List.length_append, List.length_append, length_s5Form, Family.s5Size_eq, List.length_cons,
    List.length_cons, List.length_cons, List.length_nil]
  omega

theorem s5Size_le (f : Family) : f.s5Size ≤ headerMax := by cases f <;> decide

/-- **A reply is read as it was written**, unless there is too much of it. -/
theorem recvIfHandlerSend_form (udpMtu : ℕ) (a : SockaddrU) (data : List UInt8) :
    recvIfHandlerSend udpMtu (udpForm a data) = if data.length > udpMtu then none else some (a, data) := by
  have hlen : ¬(udpForm a data).length < 4 := by
    rw [length_udpForm, Family.s5Size_eq]
    omega
  have hatyp : (udpForm a data).getD 3 0 = a.family.atp := rfl
  have hdrop : (udpForm a data).drop 4 = a.addr ++ a.port ++ data := rfl
  have hread := readAddr_append [] data a
  rw [List.nil_append, List.length_nil, Nat.zero_add] at hread
  have hrest : (a.addr ++ a.port ++ data).drop (a.family.size + 2) = data :=
    List.drop_left' (by rw [List.length_append, a.addr_size, a.port_size])
  have hfam : (if a.family.atp = S_ATP_I4 then some Family.AF_INET
      else if a.family.atp = S_ATP_I6 then some .AF_INET6 else none) = some a.family := by
    cases a.family <;> rfl
  rw [recvIfHandlerSend, if_neg hlen]
  dsimp only
  rw [hatyp, hfam, Option.bind_some, hdrop, hread, Option.bind_some, hrest]

/-- A reply that was cut to `n` bytes behind the address. -/
theorem udpForm_take (a : SockaddrU) (data : List UInt8) (n : ℕ) :
    (udpForm a data).take (a.family.s5Size + n) = udpForm a (data.take n) := by
  have hlen : ([0, 0, 0] ++ s5Form a).length = a.family.s5Size := by
    rw [List.length_append, length_s5Form, Family.s5Size_eq, List.length_cons, List.length_cons, List.length_cons,
      List.length_nil]
    omega
  rw [udpForm, ← hlen, List.take_length_add_append]
  rfl

end BypassVpn.SocksUdpClient
