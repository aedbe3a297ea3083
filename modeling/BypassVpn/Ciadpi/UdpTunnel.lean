import BypassVpn.Ciadpi.Udp
import BypassVpn.Tun2socks.SocksUdpClient

/-!
# `on_udp_tunnel` of `proxy.c`

The sockets of an association: the one the client sends to, and the one that faces the network. Each definition is
one round of the loop of `on_udp_tunnel`; the calls to the system are given by their results.

* `Assoc`; `fromClient`, `fromRemote`.
* **`fromClient_form`**, **`fromRemote_eq`**: what is passed on of a datagram that the client wrote, and of a reply.
-/

namespace BypassVpn.Ciadpi.UdpTunnel

open Region SocksUdpClient

/-- The two `struct eval` of the datagrams. -/
structure Assoc where
  /-- `val->addr.in.sin_port` of the client's socket is set. -/
  clientKnown : Bool
  /-- `pair->addr` of the remote socket, once it was set. -/
  remote : Option SockaddrU
  /-- `round_count` of the client's socket, and `round_sent` of both. -/
  roundCount : ℕ
  clientSent : ℕ
  remoteSent : ℕ
  /-- The TTL of the remote socket. -/
  ttl : Int
  deriving DecidableEq

/-- The sockets as `udp_associate` leaves them. -/
def Assoc.init (ttl : Int) : Assoc := ⟨false, none, 0, 0, 0, ttl⟩

/-- `n` bytes have come from the client. -/
def Assoc.clientRound (as : Assoc) (n : ℕ) : Assoc :=
  if as.clientSent = 0 then { as with roundCount := as.roundCount + 1, clientSent := n, remoteSent := 0 } else as

/-- `n` bytes have come from the network. -/
def Assoc.remoteRound (as : Assoc) (n : ℕ) : Assoc :=
  if as.remoteSent = 0 then { as with remoteSent := n, clientSent := 0 } else as

/-- How the `send` to the client turns out: `EMSGSIZE` and `ECONNREFUSED` skip the datagram, other errors end the
association. -/
inductive Sent
  | ok
  | skipped
  | failed
  deriving DecidableEq

/-- The calls of a round for the client; `skips` says that the `errno` they leave is one that skips the datagram. -/
structure ClientCalls where
  connectClient : Bool
  connectRemote : Bool
  net : UdpNet
  skips : Bool

variable (g : Globals) (params : AddrParams) (baddr : Family) (bfsize : ℕ)

/-- The address of the network's side for `a`. -/
def target (a : SockaddrU) : SockaddrU := if baddr = .AF_INET6 then mapFix a true else a

/-- `pair->addr.in.sin_port` is zero. -/
def unset (remote : Option SockaddrU) : Bool := remote.all fun a => a.port == [0, 0]

/-- What a datagram leads to: the association, `none` at its end, and what was sent to the network. -/
abbrev RoundOutcome := Option Assoc × List (SockaddrU × Datagram)

/-- `udp_hook` on the data, once the remote socket is connected. -/
def passOn (as : Assoc) (a : SockaddrU) (data : Bytes) (calls : ClientCalls) : RoundOutcome :=
  let r := udpHook g calls.net as.ttl as.roundCount data
  let as := { as with ttl := udpHookTtl g calls.net as.ttl as.roundCount }
  (if r.1 < 0 ∧ calls.skips = false then none else some as, r.2.map fun d => (a, d))

/-- A round for a datagram of the client; `recvfrom` cuts it to the buffer. -/
def fromClient (as : Assoc) (datagram : Bytes) (calls : ClientCalls) : RoundOutcome :=
  let data := datagram.take bfsize
  let as := as.clientRound data.length
  if as.clientKnown = false ∧ calls.connectClient = false then (none, [])
  else
    let as := { as with clientKnown := true }
    -- a fragment
    if data.getD 2 0 ≠ 0 then (some as, [])
    else
      match s5GetAddr params data with
      | .ok offs addr =>
        if unset as.remote then
          let addr := target baddr addr
          if baddr ≠ addr.family ∨ calls.connectRemote = false then (none, [])
          else passOn g { as with remote := some addr } addr (data.drop offs) calls
        else
          match as.remote with
          | some a => passOn g as a (data.drop offs) calls
          | none => (none, [])
      | .error _ => (none, [])
      | .outside => (none, [])

/-- A round for a datagram of the network from `src`: the packet for the client. -/
def fromRemote (src : SockaddrU) (datagram : Bytes) : Option Bytes :=
  let data := datagram.take (bfsize - S_SIZE_I6)
  (s5SetAddr (List.replicate S_SIZE_I6 0 ++ data) S_SIZE_I6 S_SIZE_I6 (mapFix src false) true).map fun (mem, offs) =>
    slice mem (S_SIZE_I6 - offs) (offs + data.length)

/-! ### What is passed on -/

variable {g params baddr bfsize}

/-- The remote socket is there for one address. -/
def Assoc.meant (as : Assoc) (baddr : Family) (a : SockaddrU) : SockaddrU := as.remote.getD (target baddr a)

@[simp] theorem Assoc.remote_clientRound (as : Assoc) (n : ℕ) : (as.clientRound n).remote = as.remote := by
  unfold Assoc.clientRound
  split <;> rfl

@[simp] theorem Assoc.remote_remoteRound (as : Assoc) (n : ℕ) : (as.remoteRound n).remote = as.remote := by
  unfold Assoc.remoteRound
  split <;> rfl

@[simp] theorem Assoc.clientKnown_remoteRound (as : Assoc) (n : ℕ) :
    (as.remoteRound n).clientKnown = as.clientKnown := by
  unfold Assoc.remoteRound
  split <;> rfl

/-- What is done for a datagram `x` with the remote socket connected to `a`: if the association goes on, it is for `a`,
and all that is sent goes there. -/
structure Passes (g : Globals) (a : SockaddrU) (x : Bytes) (o : RoundOutcome) : Prop where
  remote : ∀ as ∈ o.1, as.remote = some a
  burst : ∃ ds, Burst g x ds ∧ o.2 = ds.map fun d => (a, d)

theorem Passes.fail (g : Globals) (a : SockaddrU) (x : Bytes) : Passes g a x (none, []) where
  remote := by simp
  burst := ⟨[], .cut 0 (Nat.zero_le _), rfl⟩

theorem passOn_passes (hpkt : (udpPacket g).bytes = []) {as : Assoc} {a : SockaddrU} (ha : as.remote = some a)
    (data : Bytes) (calls : ClientCalls) : Passes g a data (passOn g as a data calls) where
  remote := by
    unfold passOn
    dsimp only
    split
    · simp
    · rintro _ ⟨⟩
      exact ha
  burst := ⟨_, udpHook_burst hpkt calls.net as.ttl as.roundCount data, rfl⟩

/-- **A datagram of the client goes to the address of the first one**, whatever its own is, and the decoys in front of
it do too. -/
theorem fromClient_form (hpkt : (udpPacket g).bytes = []) {as : Assoc} (hset : ∀ b ∈ as.remote, b.port ≠ [0, 0])
    {a : SockaddrU} {data : Bytes} (hfits : (udpForm a data).length ≤ bfsize) (calls : ClientCalls) :
    Passes g (as.meant baddr a) data (fromClient g params baddr bfsize as (udpForm a data) calls) := by
  rw [fromClient, List.take_of_length_le hfits]
  dsimp only
  generalize hround : as.clientRound (udpForm a data).length = as₁
  have hrem : as₁.remote = as.remote := by
    rw [← hround]
    exact as.remote_clientRound _
  by_cases hknown : as₁.clientKnown = false ∧ calls.connectClient = false
  · rw [if_pos hknown]
    exact .fail _ _ _
  rw [if_neg hknown, if_neg (not_not.mpr (show (udpForm a data).getD 2 0 = 0 from rfl))]
  by_cases h6 : a.family = .AF_INET6 ∧ params.ipv6 = false
  · have hget : s5GetAddr params (udpForm a data) = .error S_ER_ATP :=
      s5GetAddr_noIpv6 h6.2 (show [(0 : UInt8), 0, 0].length = 3 from rfl) h6.1 data
    rw [hget]
    exact .fail _ _ _
  · have hget : s5GetAddr params (udpForm a data) = .ok a.family.s5Size a :=
      s5GetAddr_s5Form params (show [(0 : UInt8), 0, 0].length = 3 from rfl) a
        (fun hf => by simpa [hf] using h6) data
    have hdrop : (udpForm a data).drop a.family.s5Size = data := by
      refine List.drop_left' ?_
      rw [List.length_append, length_s5Form, Family.s5Size_eq, List.length_cons, List.length_cons,
        List.length_cons, List.length_nil]
      omega
    rw [hget]
    dsimp only
    rw [hdrop, hrem]
    cases has : as.remote with
    | none =>
      have hmeant : as.meant baddr a = target baddr a := by rw [Assoc.meant, has, Option.getD_none]
      rw [hmeant, if_pos (show unset none = true from rfl)]
      split
      · exact .fail _ _ _
      · exact passOn_passes hpkt rfl data calls
    | some b =>
      have hb : b.port ≠ [0, 0] := hset b has
      have hmeant : as.meant baddr a = b := by rw [Assoc.meant, has, Option.getD_some]
      rw [hmeant, if_neg (by simpa [unset] using hb)]
      exact passOn_passes hpkt rfl data calls

/-- **A reply for the client** names where it came from. -/
theorem fromRemote_eq (src : SockaddrU) (datagram : Bytes) :
    fromRemote bfsize src datagram = some (udpForm (mapFix src false) (datagram.take (bfsize - S_SIZE_I6))) := by
  generalize hd : datagram.take (bfsize - S_SIZE_I6) = data
  generalize ha : mapFix src false = a
  have hle : a.family.s5Size ≤ S_SIZE_I6 := by cases a.family <;> decide
  have hform : (s5Form a).length = a.family.s5Size - 3 := length_s5Form a
  have hsize := Family.s5Size_eq a.family
  rw [fromRemote, hd, ha, s5SetAddr_eq _ _ _ _ hle, if_pos rfl, Option.map_some]
  congr 1
  -- the header starts three bytes in front of the address
  have hzeros : List.replicate S_SIZE_I6 (0 : UInt8) =
      List.replicate (S_SIZE_I6 - a.family.s5Size) 0 ++ ([0, 0, 0] ++ List.replicate (a.family.s5Size - 3) 0) := by
    rw [show ([0, 0, 0] : List UInt8) = List.replicate 3 0 from rfl, List.replicate_append_replicate,
      List.replicate_append_replicate]
    congr 1
    omega
  have hpatch : patch (List.replicate S_SIZE_I6 (0 : UInt8) ++ data) (S_SIZE_I6 - a.family.s5Size + 3) (s5Form a) =
      List.replicate (S_SIZE_I6 - a.family.s5Size) 0 ++ udpForm a data := by
    rw [hzeros, ← List.append_assoc, List.append_assoc _ _ data, patch_append (by simp), hform, udpForm,
      List.drop_left' (by simp)]
    simp only [List.append_assoc]
  rw [hpatch]
  dsimp only
  rw [slice_append_right (by simp), List.length_replicate, Nat.sub_self, slice_zero,
    List.take_of_length_le]
  rw [length_udpForm]

end BypassVpn.Ciadpi.UdpTunnel
