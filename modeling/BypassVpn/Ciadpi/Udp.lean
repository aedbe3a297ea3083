import Mathlib.Tactic.SplitIfs
import BypassVpn.Ciadpi.Params

/-!
# UDP decoys

`udp_hook` sends the datagrams of a client on; `desync_udp` sends `udp_fake_count` decoys under a low TTL before each
of the first round.

* `UdpNet`: how the system calls turn out; `Datagram`: what is sent, and under which TTL; `desyncUdp`, `udpHook`.
* `Decoys`: `k` decoys that carry data, then the datagram.
* **`desyncUdp_decoys`**: the decoys are empty in every configuration, since `fake_udp` is never filled.
* `Burst`: what may be sent for one datagram; **`udpHook_burst`**.
-/

namespace BypassVpn.Ciadpi

/-- The results of the system calls of `desync_udp`. -/
structure UdpNet where
  setFakeTtl : Bool
  setDefTtl : Bool
  /-- What `send` returns for each decoy, by its number and its length. -/
  sendDecoy : ℕ → ℕ → Int
  sendLast : ℕ → Int

/-- The network on which every call succeeds. -/
def UdpNet.good : UdpNet := ⟨true, true, fun _ n => n, fun n => n⟩

/-- Every call succeeds, and every datagram is sent whole. -/
structure UdpNet.Succeeds (net : UdpNet) : Prop where
  fake : net.setFakeTtl = true
  restore : net.setDefTtl = true
  decoy : ∀ i n, net.sendDecoy i n = n
  last : ∀ n, net.sendLast n = n

/-- A datagram and the TTL of the socket when it is sent. -/
structure Datagram where
  payload : Bytes
  ttl : Int
  deriving DecidableEq, Repr

/-- `pkt` in `desync_udp`. -/
def udpPacket (g : Globals) : Packet :=
  let dp := g.params.dp
  let pkt := if dp.fakeData.data.isSome then dp.fakeData else g.fakeUdp
  if dp.fakeOffset.m ≠ .DESYNC_NONE then
    if (pkt.size : Int) > dp.fakeOffset.pos then
      { pkt with
        size := (pkt.size - dp.fakeOffset.pos).toNat
        data := pkt.data.map fun bs => bs.drop dp.fakeOffset.pos.toNat }
    else { pkt with size := 0 }
  else pkt

/-- The bytes that `send(sfd, pkt.data, pkt.size, 0)` sends. -/
def Packet.bytes (pkt : Packet) : Bytes := (pkt.data.getD []).take pkt.size

/-- The decoys from the number `i` on, `count` at most; `false` when a `send` has failed. -/
def sendDecoys (net : UdpNet) (pkt : Packet) (ttl : Int) : ℕ → ℕ → Bool × List Datagram
  | 0, _ => (true, [])
  | count + 1, i =>
    if net.sendDecoy i pkt.size < 0 then (false, [])
    else
      let rest := sendDecoys net pkt ttl count (i + 1)
      (rest.1, ⟨pkt.bytes, ttl⟩ :: rest.2)

/-- The `send` of the datagram itself, on a socket whose TTL is `ttl`. -/
def sendDatagram (net : UdpNet) (ttl : Int) (buffer : Bytes) : Int × List Datagram :=
  let n := net.sendLast buffer.length
  (n, if n < 0 then [] else [⟨buffer, ttl⟩])

/-- `desync_udp` on a socket whose TTL is `ttl`: the result, and what was sent. -/
def desyncUdp (g : Globals) (net : UdpNet) (ttl : Int) (buffer : Bytes) : Int × List Datagram :=
  let dp := g.params.dp
  if dp.udpFakeCount ≠ 0 then
    if net.setFakeTtl then
      let decoys := sendDecoys net (udpPacket g) dp.fakeTtl dp.udpFakeCount.toNat 0
      if decoys.1 then
        if net.setDefTtl then
          let last := sendDatagram net g.params.defTtl buffer
          (last.1, decoys.2 ++ last.2)
        else (-1, decoys.2)
      else (-1, decoys.2)
    else (-1, [])
  else sendDatagram net ttl buffer

/-- The TTL of the socket after it. -/
def desyncUdpTtl (g : Globals) (net : UdpNet) (ttl : Int) : Int :=
  let dp := g.params.dp
  if dp.udpFakeCount ≠ 0 ∧ net.setFakeTtl = true then
    let decoys := sendDecoys net (udpPacket g) dp.fakeTtl dp.udpFakeCount.toNat 0
    if decoys.1 = true ∧ net.setDefTtl = true then g.params.defTtl else dp.fakeTtl
  else ttl

/-- `check_round`. -/
def checkRound (nr : ℕ × ℕ) (r : ℕ) : Bool := nr.2 == 0 && r ≤ 1 || nr.1 ≤ r && r ≤ nr.2

/-- `udp_hook` in the round `r` of the client. The app has one group, for every address, whose `rounds` stay as
`calloc` leaves them. -/
def udpHook (g : Globals) (net : UdpNet) (ttl : Int) (r : ℕ) (buffer : Bytes) : Int × List Datagram :=
  if checkRound (0, 0) r then desyncUdp g net ttl buffer else sendDatagram net ttl buffer

/-- The TTL of the socket after it. -/
def udpHookTtl (g : Globals) (net : UdpNet) (ttl : Int) (r : ℕ) : Int :=
  if checkRound (0, 0) r then desyncUdpTtl g net ttl else ttl

/-- What is sent is `k` decoys, each with data and the fake TTL, and then the datagram with the default
one. -/
def Decoys (g : Globals) (k : ℕ) (d : Bytes) (sent : List Datagram) : Prop :=
  ∃ decoys, sent = decoys ++ [⟨d, g.params.defTtl⟩] ∧ decoys.length = k ∧
    ∀ x ∈ decoys, x.payload ≠ [] ∧ x.ttl = g.params.dp.fakeTtl

/-! ### What is sent -/

theorem sendDecoys_eq {net : UdpNet} (h : net.Succeeds) (pkt : Packet) (ttl : Int) (count i : ℕ) :
    sendDecoys net pkt ttl count i = (true, List.replicate count ⟨pkt.bytes, ttl⟩) := by
  induction count generalizing i with
  | zero => rfl
  | succ count ih =>
    have hsent : ¬ net.sendDecoy i pkt.size < 0 := by
      rw [h.decoy]
      omega
    unfold sendDecoys
    rw [if_neg hsent, ih]
    rfl

/-- The decoys are as the packet, the datagram comes last. -/
theorem desyncUdp_eq {g : Globals} {net : UdpNet} (h : net.Succeeds) (hk : g.params.dp.udpFakeCount ≠ 0)
    (ttl : Int) (d : Bytes) :
    desyncUdp g net ttl d = ((d.length : Int),
      List.replicate g.params.dp.udpFakeCount.toNat ⟨(udpPacket g).bytes, g.params.dp.fakeTtl⟩ ++
        [⟨d, g.params.defTtl⟩]) := by
  have hsent : ¬ net.sendLast d.length < 0 := by
    rw [h.last]
    omega
  unfold desyncUdp sendDatagram
  dsimp only
  rw [if_pos hk, if_pos h.fake, sendDecoys_eq h, if_pos rfl, if_pos h.restore, if_neg hsent, h.last]

theorem udpPacket_initParams (ttl : Int) (cfg : JniConfig) :
    (udpPacket (initParams ttl cfg)).bytes = [] := rfl

/-- **The decoys are empty**, `k` of them under the fake TTL, in every configuration with a count `k >
0`. -/
theorem desyncUdp_decoys (abi : Abi) (args : CiadpiArgs) (defTtl : Int) (net : UdpNet) (ttl : Int) (d : Bytes)
    (hk : 0 < args.udpFakeCount) (hnet : net.Succeeds) :
    (desyncUdp (initParams defTtl (ciadpiStart abi args)) net ttl d).2 =
      List.replicate args.udpFakeCount.toNat
        ⟨[], (initParams defTtl (ciadpiStart abi args)).params.dp.fakeTtl⟩ ++ [⟨d, defTtl⟩] ∧
    ¬ Decoys (initParams defTtl (ciadpiStart abi args)) args.udpFakeCount.toNat d
      (desyncUdp (initParams defTtl (ciadpiStart abi args)) net ttl d).2 := by
  have hcount : (initParams defTtl (ciadpiStart abi args)).params.dp.udpFakeCount = args.udpFakeCount :=
    if_pos hk
  have hsent : (desyncUdp (initParams defTtl (ciadpiStart abi args)) net ttl d).2 =
      List.replicate args.udpFakeCount.toNat
        ⟨[], (initParams defTtl (ciadpiStart abi args)).params.dp.fakeTtl⟩ ++ [⟨d, defTtl⟩] := by
    rw [desyncUdp_eq hnet (by omega), hcount, udpPacket_initParams]
    rfl
  refine ⟨hsent, ?_⟩
  rintro ⟨decoys, hdecoys, -, hdata⟩
  rw [hsent] at hdecoys
  have hinit := (List.append_inj' hdecoys rfl).1
  obtain ⟨n, hn⟩ : ∃ n, args.udpFakeCount.toNat = n + 1 := ⟨args.udpFakeCount.toNat - 1, by omega⟩
  rw [hn, List.replicate_succ] at hinit
  exact (hdata _ (hinit ▸ List.mem_cons_self)).1 rfl

theorem UdpNet.good_succeeds : UdpNet.good.Succeeds := ⟨rfl, rfl, fun _ _ => rfl, fun _ => rfl⟩

/-- The parameters of the preset `universal`, with one decoy. -/
def universalGlobals : Globals :=
  initParams 64 (ciadpiStart .arm64V8a (ciadpiArgs (loadPreset "universal") "" true))

theorem desyncUdp_decoys_universal :
    (desyncUdp universalGlobals .good 64 [1, 2, 3]).2 = List.replicate 1 ⟨[], 6⟩ ++ [⟨[1, 2, 3], 64⟩] ∧
    ¬ Decoys universalGlobals 1 [1, 2, 3] (desyncUdp universalGlobals .good 64 [1, 2, 3]).2 :=
  desyncUdp_decoys .arm64V8a (ciadpiArgs (loadPreset "universal") "" true) 64 .good 64 [1, 2, 3] (by decide)
    UdpNet.good_succeeds

theorem universal_decoy_empty :
    ¬ ∀ (abi : Abi) (args : CiadpiArgs) (defTtl : Int) (net : UdpNet) (ttl : Int) (d : Bytes),
      0 < args.udpFakeCount → net.Succeeds →
      Decoys (initParams defTtl (ciadpiStart abi args)) args.udpFakeCount.toNat d
        (desyncUdp (initParams defTtl (ciadpiStart abi args)) net ttl d).2 := by
  intro h
  obtain ⟨decoys, hsent, -, hdata⟩ := h .arm64V8a (ciadpiArgs (loadPreset "universal") "" true) 64 .good 64
    [1, 2, 3] (by decide) UdpNet.good_succeeds
  have hrun : (desyncUdp universalGlobals .good 64 [1, 2, 3]).2 = [⟨[], 6⟩] ++ [⟨[1, 2, 3], 64⟩] := by decide
  have hone := (List.append_inj' (hrun.symm.trans hsent) rfl).1
  exact (hdata ⟨[], 6⟩ (hone ▸ List.mem_cons_self)).1 rfl

/-! ### What is sent for one datagram -/

/-- What is sent for the datagram `x` where the decoys are empty. -/
inductive Burst (g : Globals) (x : Bytes) : List Datagram → Prop
  /-- A call has failed before the datagram was sent. -/
  | cut (n : ℕ) (le : n ≤ g.params.dp.udpFakeCount.toNat) :
      Burst g x (List.replicate n ⟨[], g.params.dp.fakeTtl⟩)
  /-- After the first round, or without decoys. -/
  | plain (ttl : Int) : Burst g x [⟨x, ttl⟩]
  | whole : Burst g x
      (List.replicate g.params.dp.udpFakeCount.toNat ⟨[], g.params.dp.fakeTtl⟩ ++ [⟨x, g.params.defTtl⟩])

theorem sendDecoys_spec (net : UdpNet) (pkt : Packet) (ttl : Int) (count i : ℕ) :
    ∃ n ≤ count, (sendDecoys net pkt ttl count i).2 = List.replicate n ⟨pkt.bytes, ttl⟩ ∧
      ((sendDecoys net pkt ttl count i).1 = true → n = count) := by
  induction count generalizing i with
  | zero => exact ⟨0, Nat.le_refl _, rfl, fun _ => rfl⟩
  | succ count ih =>
    unfold sendDecoys
    split
    · exact ⟨0, Nat.zero_le _, rfl, fun h => absurd h (by simp)⟩
    · obtain ⟨n, hle, hsent, hall⟩ := ih (i + 1)
      refine ⟨n + 1, Nat.succ_le_succ hle, ?_, fun h => congrArg Nat.succ (hall h)⟩
      dsimp only
      rw [hsent]
      rfl

theorem sendDatagram_burst (g : Globals) (net : UdpNet) (ttl : Int) (x : Bytes) :
    Burst g x (sendDatagram net ttl x).2 := by
  unfold sendDatagram
  dsimp only
  split
  · exact .cut 0 (Nat.zero_le _)
  · exact .plain ttl

/-- **What is sent for a datagram**: empty decoys, up to the count, and behind all of them the datagram, once and
whole. -/
theorem udpHook_burst {g : Globals} (hpkt : (udpPacket g).bytes = []) (net : UdpNet) (ttl : Int) (r : ℕ) (x : Bytes) :
    Burst g x (udpHook g net ttl r x).2 := by
  obtain ⟨n, hle, hsent, hall⟩ :=
    sendDecoys_spec net (udpPacket g) g.params.dp.fakeTtl g.params.dp.udpFakeCount.toNat 0
  rw [hpkt] at hsent
  unfold udpHook
  by_cases hround : checkRound (0, 0) r = true
  · rw [if_pos hround]
    unfold desyncUdp
    dsimp only
    split_ifs with hcount hfake hdecoys hdef
    · obtain rfl := hall hdecoys
      rw [hsent]
      unfold sendDatagram
      dsimp only
      split
      · rw [List.append_nil]
        exact .cut _ (Nat.le_refl _)
      · exact .whole
    · rw [hsent]
      exact .cut n hle
    · rw [hsent]
      exact .cut n hle
    · exact .cut 0 (Nat.zero_le _)
    · exact sendDatagram_burst g net ttl x
  · rw [if_neg hround]
    exact sendDatagram_burst g net ttl x

end BypassVpn.Ciadpi
