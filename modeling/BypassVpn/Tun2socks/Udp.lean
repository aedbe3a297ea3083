import BypassVpn.Packet.DnsAnswer

/-!
# UDP on the native path

`process_device_udp_packet` of tun2socks, with the header parsers and checksum routines it calls, and
how it agrees with `PacketProcessor` on the datagrams both can see.

* `ipv4Check`, `ipv6Check`, `udpCheck`, `udpChecksum`, `udpIp6Checksum`; `processDeviceUdpPacket`.
* `udpMtu`: the payload bound `tun2socks_bridge_run` computes.
* `UdpPacket`: the datagrams; **`processDeviceUdpPacket_eq`**: which of them go to the SOCKS client.
* **`udp_policies`**: outside port 53 the two paths agree; `dns_forwarded_natively`: on port 53 they do
  not; `wrongHeader_refused_natively`, `onesChecksum_refused_natively`: what else it leaves out.
-/

namespace BypassVpn.Tun2socks

open Region OnesComplement

/-! ### Checksums -/

/-- The sum of the big-endian words of an even number of octets: `udp_checksum_summer`, and the loops of
`ipv4_checksum`. -/
def checksumSummer (data : Bytes) : ℕ :=
  ((List.range (data.length / 2)).map fun i => val (slice data (2 * i) 2)).sum

/-- `~t` of a `uint32_t`. -/
def complement32 (t : ℕ) : ℕ := 2 ^ 32 - 1 - t

/-- `ipv4_checksum`. -/
def ipv4Checksum (header extra : Bytes) : ℕ :=
  let t := checksumSummer header + checksumSummer extra
  complement32 (foldCarry t t) % 2 ^ 16

/-- The sum over the payload, an odd last octet padded. -/
def payloadSum (payload : Bytes) : ℕ :=
  if payload.length % 2 = 0 then checksumSummer payload
  else checksumSummer (payload.take (payload.length - 1)) +
    checksumSummer (be 2 (octet payload (payload.length - 1) <<< 8))

/-- The common end of `udp_checksum` and `udp_ip6_checksum`. -/
def finishUdpChecksum (t : ℕ) : ℕ :=
  let t := complement32 (foldCarry t t)
  -- the complement has 32 bits, so this test never succeeds
  let t := if t = 0 then 0xFFFF else t
  t % 2 ^ 16

/-- `udp_checksum`. -/
def udpChecksum (header payload sourceAddr destAddr : Bytes) : ℕ :=
  finishUdpChecksum (checksumSummer sourceAddr + checksumSummer destAddr + checksumSummer (be 2 17) +
    checksumSummer (be 2 (8 + payload.length)) + checksumSummer header + payloadSum payload)

/-- `udp_ip6_checksum`. -/
def udpIp6Checksum (header payload sourceAddr destAddr : Bytes) : ℕ :=
  finishUdpChecksum (checksumSummer sourceAddr + checksumSummer destAddr +
    checksumSummer (be 4 (8 + payload.length)) + checksumSummer (be 4 17) + checksumSummer header +
    payloadSum payload)

/-! ### Parsing -/

/-- The header and the payload of an IPv4 packet. -/
def ipv4Check (data : Bytes) : Option (Bytes × Bytes) :=
  if data.length < 20 then none
  else
    let header := data.take 20
    if (octet header 0 &&& 0xF0) >>> 4 ≠ 4 then none
    else
      let headerLen := ((octet header 0 &&& 0x0F) >>> 0) * 4
      if headerLen < 20 then none
      else if headerLen > data.length then none
      else
        let totalLength := val (slice header 2 2)
        if totalLength < headerLen then none
        else if totalLength > data.length then none
        else
          let checksumInPacket := val (slice header 10 2)
          let checksumComputed := ipv4Checksum (patch header 10 [0, 0]) (slice data 20 (headerLen - 20))
          if checksumInPacket ≠ checksumComputed then none
          else some (header, slice data headerLen (totalLength - headerLen))

/-- The header and the payload of an IPv6 packet. -/
def ipv6Check (data : Bytes) : Option (Bytes × Bytes) :=
  if data.length < 40 then none
  else
    let header := data.take 40
    if octet header 0 >>> 4 ≠ 6 then none
    else
      let payloadLength := val (slice header 4 2)
      if payloadLength > data.length - 40 then none
      else some (header, slice data 40 payloadLength)

/-- The header and the payload of a UDP segment; what lies behind the payload is ignored. -/
def udpCheck (data : Bytes) : Option (Bytes × Bytes) :=
  if data.length < 8 then none
  else
    let header := data.take 8
    let udpLength := val (slice header 4 2)
    if udpLength < 8 then none
    else if udpLength > 8 + (data.length - 8) then none
    else some (header, slice (data.drop 8) 0 (udpLength - 8))

/-! ### The device -/

/-- `options.udp_mode`, as it was resolved. -/
inductive UdpMode where
  | none
  | udpgw
  | socks
  deriving DecidableEq, Repr

/-- An address and a port. -/
structure BAddr where
  addr : Bytes
  port : ℕ
  deriving DecidableEq, Repr

/-- A call of `SocksUdpClient_SubmitPacket` (or of its udpgw counterpart). -/
structure Submission where
  client : UdpMode
  localAddr : BAddr
  remoteAddr : BAddr
  data : Bytes
  deriving DecidableEq, Repr

/-- What `process_device_udp_packet` reads of the globals. -/
structure Settings where
  udpMode : UdpMode
  /-- `options.netif_ip6addr` is set. -/
  netifIp6addr : Bool
  udpMtu : ℤ
  deriving DecidableEq, Repr

/-- `BTap_GetMTU` after `tun2socks_bridge_run` with this `cfg->mtu`. -/
def frameMtu (mtu : ℤ) : ℤ := if mtu > 0 then mtu else 1500

/-- The `udp_mtu` of `tun2socks_bridge_run`. -/
def udpMtu (mtu : ℤ) (netifIp6addr : Bool) : ℤ :=
  let udpMtu := frameMtu mtu - (20 + 8)
  let udpIp6Mtu := frameMtu mtu - (40 + 8)
  let udpMtu := if netifIp6addr ∧ udpMtu < udpIp6Mtu then udpIp6Mtu else udpMtu
  if udpMtu < 0 then 0 else udpMtu

/-- The settings of `tun2socks_bridge_run`. -/
def bridgeSettings (mtu : ℤ) (netifIp6addr : Bool) : Settings :=
  { udpMode := .socks, netifIp6addr := netifIp6addr, udpMtu := udpMtu mtu netifIp6addr }

/-- The addresses and the payload of a datagram, parsed, verified and let through: the two cases of the
`switch` differ in the network header only. -/
def admitPacket (parsed : Option (Bytes × Bytes)) (source destination : Bytes → Bytes)
    (checksum : Bytes → Bytes → Bytes → Bytes → ℕ) : Option (BAddr × BAddr × Bytes) := do
  let (ipHeader, segment) ← parsed
  let (udpHeader, data) ← udpCheck segment
  let checksumInPacket := val (slice udpHeader 6 2)
  let checksumComputed := checksum (patch udpHeader 6 [0, 0]) data (source ipHeader) (destination ipHeader)
  if checksumInPacket ≠ checksumComputed then none
  else
    let sourcePort := val (slice udpHeader 0 2)
    let destPort := val (slice udpHeader 2 2)
    -- QUIC is dropped: the browser falls back to TCP
    if destPort = 443 then none
    else some (⟨source ipHeader, sourcePort⟩, ⟨destination ipHeader, destPort⟩, data)

/-- What `process_device_udp_packet` submits; `none` where it returns `0`. -/
def processDeviceUdpPacket (settings : Settings) (data : Bytes) : Option Submission :=
  if settings.udpMode = .none then none
  else
    let ipVersion := if data.length > 0 then octet data 0 >>> 4 else 0
    let datagram :=
      if ipVersion = 4 then
        if data.length < 20 ∨ octet data 9 ≠ 17 then none
        else admitPacket (ipv4Check data) (fun h => slice h 12 4) (fun h => slice h 16 4) udpChecksum
      else if ipVersion = 6 then
        if settings.netifIp6addr = false then none
        else if data.length < 40 ∨ octet data 6 ≠ 17 then none
        else admitPacket (ipv6Check data) (fun h => slice h 8 16) (fun h => slice h 24 16) udpIp6Checksum
      else none
    match datagram with
    | none => none
    | some (localAddr, remoteAddr, payload) =>
      if (payload.length : ℤ) > settings.udpMtu then none
      else some ⟨settings.udpMode, localAddr, remoteAddr, payload⟩

/-! ### The checksums are Internet checksums -/

theorem checksumSummer_eq : ∀ bs : Bytes, bs.length % 2 = 0 → checksumSummer bs = wordSum bs
  | [], _ => rfl
  | [_], h => by simp at h
  | a :: b :: bs, h => by
    have ih := checksumSummer_eq bs (by simp only [List.length_cons] at h; omega)
    have hlen : (a :: b :: bs).length / 2 = bs.length / 2 + 1 := by
      simp only [List.length_cons]
      omega
    have hshift : (fun i => val (slice (a :: b :: bs) (2 * i) 2)) ∘ Nat.succ =
        fun i => val (slice bs (2 * i) 2) := by
      funext i
      simp only [Function.comp, slice, Nat.mul_succ, List.drop_succ_cons]
    rw [checksumSummer, hlen, List.range_succ_eq_map, List.map_cons, List.sum_cons, List.map_map, hshift,
      wordSum_cons_cons, ← ih]
    simp [slice, val_pair, checksumSummer]

theorem payloadSum_eq (payload : Bytes) : payloadSum payload = wordSum payload := by
  rw [payloadSum]
  split_ifs with heven
  · exact checksumSummer_eq payload heven
  · have hpos : 0 < payload.length := by omega
    have hlast : payload.length - 1 < payload.length := by omega
    have htake : (payload.take (payload.length - 1)).length % 2 = 0 := by
      rw [List.length_take]
      omega
    have hoct := (payload[payload.length - 1]).toNat_lt
    rw [checksumSummer_eq _ htake, checksumSummer_eq _ (by rw [length_be]), octet_eq hlast,
      wordSum_be_two (by rw [Nat.shiftLeft_eq]; omega)]
    conv_rhs => rw [← List.take_append_drop (payload.length - 1) payload]
    rw [wordSum_append _ _ htake, List.drop_eq_getElem_cons hlast, List.drop_of_length_le (by omega),
      Nat.shiftLeft_eq]
    simp [wordSum, words]

theorem complement_eq (t : ℕ) : complement32 (foldCarry t t) % 2 ^ 16 = 65535 - norm16 t := by
  have := norm16_lt t
  rw [complement32, foldCarry_eq t t (Nat.le_refl t)]
  omega

theorem finishUdpChecksum_eq (t : ℕ) : finishUdpChecksum t = 65535 - norm16 t := by
  have := norm16_lt t
  have hne : complement32 (foldCarry t t) ≠ 0 := by
    rw [complement32, foldCarry_eq t t (Nat.le_refl t)]
    omega
  rw [finishUdpChecksum]
  simp only [if_neg hne]
  exact complement_eq t

variable {v : IpVersion} {p : Bytes}

/-- The routine of an IP version. -/
def checksumOf : IpVersion → Bytes → Bytes → Bytes → Bytes → ℕ
  | .v4 => udpChecksum
  | .v6 => udpIp6Checksum

theorem checksumOf_eq (hmin : minHeaderLen v ≤ p.length) {header payload : Bytes} (hh : header.length = 8) :
    checksumOf v header payload (ipSource v p) (ipDestination v p) =
      65535 - sum16 (pseudoHeader v p 17 (8 + payload.length) ++ (header ++ payload)) := by
  have hpseudo := length_pseudoHeader hmin 17 (8 + payload.length)
  have hheader : checksumSummer header = wordSum header := checksumSummer_eq _ (by omega)
  rw [sum16_eq, wordSum_append _ _ hpseudo, wordSum_append _ _ (by omega)]
  cases v <;> simp only [minHeaderLen] at hmin
  · have hs : (ipSource .v4 p).length = 4 := length_slice (by omega)
    have hd : (ipDestination .v4 p).length = 4 := length_slice (by omega)
    rw [checksumOf, udpChecksum, finishUdpChecksum_eq, hheader, payloadSum_eq, checksumSummer_eq _ (by omega),
      checksumSummer_eq _ (by omega), checksumSummer_eq _ (by simp), checksumSummer_eq _ (by simp),
      pseudoHeader, wordSum_append _ _ (by simp [hs, hd]), wordSum_append _ _ (by simp [hs, hd]),
        wordSum_append _ _ (by omega)]
    congr 2
    simp only [show wordSum (be 2 17) = wordSum [0, (17 : UInt8)] from rfl]
    omega
  · have hs : (ipSource .v6 p).length = 16 := length_slice (by omega)
    have hd : (ipDestination .v6 p).length = 16 := length_slice (by omega)
    rw [checksumOf, udpIp6Checksum, finishUdpChecksum_eq, hheader, payloadSum_eq,
      checksumSummer_eq _ (by omega),
      checksumSummer_eq _ (by omega), checksumSummer_eq _ (by simp), checksumSummer_eq _ (by simp),
      pseudoHeader, wordSum_append _ _ (by simp [hs, hd]), wordSum_append _ _ (by simp [hs, hd]),
        wordSum_append _ _ (by omega)]
    congr 2
    simp only [show wordSum (be 4 17) = wordSum [0, 0, 0, (17 : UInt8)] from rfl]
    omega

/-! ### The datagrams -/

/-- An unfragmented UDP datagram with consistent lengths and a checksum that is present and correct. -/
structure UdpPacket (v : IpVersion) (p : Bytes) : Prop where
  version : ipVersionField p = versionNumber v
  header : minHeaderLen v ≤ ipHeaderLen v p
  protocol : ipProtocol v p = 17
  unfragmented : unfragmented v p
  size : ipHeaderLen v p + 8 ≤ p.length
  length : ipLength v p = p.length
  udpLength : udpLength v p = (segment v p).length
  checksum : BypassVpn.udpChecksum v p ≠ 0
  verifies : segmentVerifies v p 17

/-- The IPv4 header checksum is the complement of the sum over the rest of the header; IPv6 has none. -/
def headerChecksumRight (v : IpVersion) (p : Bytes) : Prop :=
  match v with
  | .v4 => val (slice p 10 2) = 65535 - sum16 (patch (p.take (ipHeaderLen .v4 p)) 10 [0, 0])
  | .v6 => True

instance (v : IpVersion) (p : Bytes) : Decidable (headerChecksumRight v p) :=
  match v with
  | .v4 => inferInstanceAs (Decidable (_ = _))
  | .v6 => inferInstanceAs (Decidable True)

/-- The datagram as the SOCKS client should get it. -/
def datagram (v : IpVersion) (p : Bytes) : Submission :=
  { client := .socks
    localAddr := ⟨ipSource v p, sourcePort v p⟩
    remoteAddr := ⟨ipDestination v p, destinationPort v p⟩
    data := udpPayload v p }

theorem be_val_two {a : Bytes} (h : a.length = 2) : be 2 (val a) = a := by
  match a, h with
  | [x, y], _ =>
    have hx := x.toNat_lt
    have hy := y.toNat_lt
    rw [be_two, val_pair]
    congr 1
    · apply UInt8.toNat_inj.mp
      rw [UInt8.toNat_ofNat']
      omega
    · congr 1
      apply UInt8.toNat_inj.mp
      rw [UInt8.toNat_ofNat']
      omega

theorem norm16_complement {t c : ℕ} (h : norm16 (t + c) = 65535) (h1 : c < 65535) :
    c = 65535 - norm16 t := by
  unfold norm16 at *
  split_ifs at * <;> omega

/-- A segment that verifies carries the checksum the routine computes, unless that would be zero. -/
theorem checksum_match (hmin : minHeaderLen v ≤ p.length) (hsize : ipHeaderLen v p + 8 ≤ p.length)
    (hverifies : segmentVerifies v p 17) (h1 : BypassVpn.udpChecksum v p ≠ 0xFFFF) :
    val (slice (segment v p) 6 2) =
      checksumOf v (patch ((segment v p).take 8) 6 [0, 0]) ((segment v p).drop 8) (ipSource v p)
        (ipDestination v p) := by
  have hlen : 8 ≤ (segment v p).length := by
    rw [segment, List.length_drop]
    omega
  have hpatch : patch ((segment v p).take 8) 6 [0, 0] = (segment v p).take 6 ++ [0, 0] := by
    simp [patch, List.take_take]
  have hc : (slice (segment v p) 6 2).length = 2 := length_slice (by omega)
  have hlt : val (slice (segment v p) 6 2) < 65536 := by
    have := val_lt (slice (segment v p) 6 2)
    rwa [hc] at this
  have hseg : segment v p =
      (segment v p).take 6 ++ be 2 (val (slice (segment v p) 6 2)) ++ (segment v p).drop 8 := by
    rw [be_val_two hc, take_append_slice, List.take_append_drop]
  have hpseudo := length_pseudoHeader hmin 17 (segment v p).length
  have heven : (pseudoHeader v p 17 (segment v p).length ++ (segment v p).take 6).length % 2 = 0 := by
    rw [List.length_append, List.length_take]
    omega
  rw [hpatch, checksumOf_eq hmin (by rw [List.length_append, List.length_take]; simp; omega),
    List.length_drop, Nat.add_sub_cancel' hlen, sum16_eq]
  refine norm16_complement ?_ (by change val _ ≠ 0xFFFF at h1; omega)
  have hwhole : pseudoHeader v p 17 (segment v p).length ++ segment v p =
      pseudoHeader v p 17 (segment v p).length ++ (segment v p).take 6 ++
        be 2 (val (slice (segment v p) 6 2)) ++ (segment v p).drop 8 := by
    have := congrArg (pseudoHeader v p 17 (segment v p).length ++ ·) hseg
    simpa only [List.append_assoc] using this
  rw [segmentVerifies, hwhole, sum16_with_checksum heven hlt] at hverifies
  rw [← hverifies]
  simp only [List.append_assoc]

/-! ### The native path -/

theorem shiftRight_four (n : ℕ) : n >>> 4 = n / 16 := Nat.shiftRight_eq_div_pow n 4

theorem version_nibble {n : ℕ} (h : n < 256) : (n &&& 0xF0) >>> 4 = n / 16 := by
  have hb := nibble_hi (UInt8.ofNat n)
  rw [UInt8.toNat_ofNat', Nat.mod_eq_of_lt h] at hb
  rw [Nat.shiftRight_and_distrib, show (0xF0 : ℕ) >>> 4 = 0x0F from rfl, hb]

theorem octet_lt (p : Bytes) (i : ℕ) : octet p i < 256 := (p.getD i 0).toNat_lt

theorem slice_to_end (l : Bytes) (i : ℕ) : slice l i (l.length - i) = l.drop i :=
  List.take_of_length_le (by rw [List.length_drop])

theorem ipv4Check_eq (h : UdpPacket .v4 p) :
    ipv4Check p = if headerChecksumRight .v4 p then some (p.take 20, segment .v4 p) else none := by
  have hmin : 20 ≤ ipHeaderLen .v4 p := h.header
  have hsize := h.size
  have hver : octet p 0 / 16 = 4 := h.version
  have hlength : val (slice p 2 2) = p.length := h.length
  have hihl : octet p 0 % 16 * 4 = ipHeaderLen .v4 p := rfl
  have h0 : octet (p.take 20) 0 = octet p 0 := octet_take (by omega)
  have heven : ipHeaderLen .v4 p % 2 = 0 := by omega
  have hlo : octet p 0 &&& 0x0F = octet p 0 % 16 := Nat.and_two_pow_sub_one_eq_mod _ 4
  -- the zeroed header and the options are the header with its checksum zeroed
  have hhdr : patch (p.take 20) 10 [0, 0] ++ slice p 20 (ipHeaderLen .v4 p - 20) =
      patch (p.take (ipHeaderLen .v4 p)) 10 [0, 0] := by
    rw [show patch (p.take 20) 10 [0, 0] = p.take 10 ++
      [0, 0] ++ slice p 12 8 by simp [patch, slice, List.take_take, List.drop_take],
      show patch (p.take (ipHeaderLen .v4 p)) 10 [0, 0] = p.take 10 ++
        [0, 0] ++ slice p 12 (ipHeaderLen .v4 p - 12) by
        simp [patch, slice, List.take_take, List.drop_take]; omega, List.append_assoc]
    congr 1
    rw [slice_append_slice p 12 8 (ipHeaderLen .v4 p - 20)]
    congr 1
    omega
  have hpatch : (patch (p.take 20) 10 [0, 0]).length = 20 := by
    rw [length_patch (by rw [List.length_take]; simp; omega), List.length_take]
    omega
  have hslice : (slice p 20 (ipHeaderLen .v4 p - 20)).length = ipHeaderLen .v4 p - 20 :=
    length_slice (by omega)
  have hsum : ipv4Checksum (patch (p.take 20) 10 [0, 0]) (slice p 20 (ipHeaderLen .v4 p - 20)) =
      65535 - sum16 (patch (p.take (ipHeaderLen .v4 p)) 10 [0, 0]) := by
    rw [ipv4Checksum, complement_eq, checksumSummer_eq _ (by omega), checksumSummer_eq _ (by omega),
      ← wordSum_append _ _ (by omega), hhdr, sum16_eq]
  rw [ipv4Check, if_neg (by omega)]
  simp only [h0, version_nibble (octet_lt p 0), hver, hlo, hihl, slice_take (show 2 + 2 ≤ 20 by omega),
    slice_take (show 10 + 2 ≤ 20 by omega), hlength, Nat.shiftRight_zero, hsum]
  rw [if_neg (by simp), if_neg (by omega), if_neg (by omega), if_neg (by omega), if_neg (by omega)]
  rw [slice_to_end]
  by_cases hok : val (slice p 10 2) = 65535 - sum16 (patch (p.take (ipHeaderLen .v4 p)) 10 [0, 0])
  · rw [if_pos (show headerChecksumRight .v4 p from hok), if_neg (not_not.mpr hok)]
    rfl
  · rw [if_neg (show ¬ headerChecksumRight .v4 p from hok), if_pos hok]

theorem ipv6Check_eq (h : UdpPacket .v6 p) : ipv6Check p = some (p.take 40, segment .v6 p) := by
  have hsize : 40 + 8 ≤ p.length := h.size
  have hver : octet p 0 / 16 = 6 := h.version
  have hlength : 40 + val (slice p 4 2) = p.length := h.length
  rw [ipv6Check, if_neg (by omega)]
  simp only [octet_take (show 0 < 40 by omega), shiftRight_four, hver, slice_take (show 4 + 2 ≤ 40 by omega)]
  rw [if_neg (by simp), if_neg (by omega), show val (slice p 4 2) = p.length - 40 by omega, slice_to_end]
  rfl

theorem udpCheck_eq (h : UdpPacket v p) :
    udpCheck (segment v p) = some ((segment v p).take 8, (segment v p).drop 8) := by
  have hsize := h.size
  have hlen : 8 ≤ (segment v p).length := by
    rw [segment, List.length_drop]
    omega
  have hudp : val (slice (segment v p) 4 2) = (segment v p).length := h.udpLength
  rw [udpCheck, if_neg (by omega)]
  simp only [slice_take (show 4 + 2 ≤ 8 by omega), hudp]
  rw [if_neg (by omega), if_neg (by omega), slice_drop, slice_to_end]

theorem admitPacket_eq (h : UdpPacket v p) (hslip : BypassVpn.udpChecksum v p ≠ 0xFFFF) (ipHeader : Bytes)
    (source destination : Bytes → Bytes) (hs : source ipHeader = ipSource v p)
    (hd : destination ipHeader = ipDestination v p) :
    admitPacket (some (ipHeader, segment v p)) source destination (checksumOf v) =
      if destinationPort v p = 443 then none
      else some (⟨ipSource v p, sourcePort v p⟩, ⟨ipDestination v p, destinationPort v p⟩,
        udpPayload v p) := by
  have hmin : minHeaderLen v ≤ p.length := by
    have := h.header
    have := h.size
    omega
  have hmatch := checksum_match hmin h.size h.verifies hslip
  simp only [admitPacket, Option.bind_eq_bind, Option.bind_some, udpCheck_eq h, hs, hd]
  rw [slice_take (show 6 + 2 ≤ 8 by omega), slice_take (show 0 + 2 ≤ 8 by omega),
    slice_take (show 2 + 2 ≤ 8 by omega), if_neg (not_not.mpr hmatch)]
  rfl

/-- **Which datagrams the native path submits**: those to a port other than 443 whose IPv4 header
checksum is right, with their own addresses, ports and payload. -/
theorem processDeviceUdpPacket_eq (h : UdpPacket v p) {mtu : ℤ} (hmtu : (p.length : ℤ) ≤ frameMtu mtu)
    (hslip : BypassVpn.udpChecksum v p ≠ 0xFFFF) :
    processDeviceUdpPacket (bridgeSettings mtu true) p =
      if headerChecksumRight v p ∧ destinationPort v p ≠ 443 then some (datagram v p) else none := by
  have hver := h.version
  have hsize := h.size
  have hheader := h.header
  have hpayload : ¬ ((udpPayload v p).length : ℤ) > udpMtu mtu true := by
    have hmin : 20 ≤ minHeaderLen v := by cases v <;> decide
    have hmtu' : frameMtu mtu - 28 ≤ udpMtu mtu true := by
      simp only [udpMtu]
      split_ifs <;> omega
    rw [udpPayload, segment, List.length_drop, List.length_drop]
    omega
  rw [processDeviceUdpPacket, if_neg (by simp [bridgeSettings]), if_pos (by omega), shiftRight_four]
  cases v with
  | v4 =>
    have hproto : octet p 9 = 17 := h.protocol
    rw [show octet p 0 / 16 = 4 from hver]
    dsimp only
    rw [if_pos rfl,
      if_neg (by simp only [hproto]; simp only [minHeaderLen] at hheader; omega), ipv4Check_eq h]
    by_cases hok : headerChecksumRight .v4 p
    · rw [if_pos hok, show udpChecksum = checksumOf .v4 from rfl,
        admitPacket_eq h hslip (p.take 20) (fun h => slice h 12 4) (fun h => slice h 16 4)
          (slice_take (by omega))
          (slice_take (by omega))]
      by_cases hport : destinationPort .v4 p = 443
      · rw [if_pos hport, if_neg (by simp [hport])]
      · rw [if_neg hport, if_pos ⟨hok, hport⟩]
        exact if_neg hpayload
    · rw [if_neg hok, if_neg (by simp [hok])]
      rfl
  | v6 =>
    have hproto : octet p 6 = 17 := h.protocol
    rw [show octet p 0 / 16 = 6 from hver]
    dsimp only
    rw [if_neg (show ¬ (6 : ℕ) = 4 by decide), if_pos rfl, if_neg (by simp [bridgeSettings]),
      if_neg (by simp only [hproto]; simp only [ipHeaderLen] at hsize; omega), ipv6Check_eq h,
      show udpIp6Checksum = checksumOf .v6 from rfl,
      admitPacket_eq h hslip (p.take 40) (fun h => slice h 8 16) (fun h => slice h 24 16)
        (slice_take (by omega))
        (slice_take (by omega))]
    by_cases hport : destinationPort .v6 p = 443
    · rw [if_pos hport, if_neg (by simp [hport])]
    · rw [if_neg hport, if_pos ⟨trivial, hport⟩]
      exact if_neg hpayload

/-! ### The fallback path -/

/-- Behind the interceptor, a datagram to port 443 is dropped and every other one is forwarded. -/
theorem processPacket_udp (env : PacketEnv) (h : UdpPacket v p) (hport : destinationPort v p ≠ 53)
    (out : List Bytes) :
    (processPacket env p p.length {}).outcome out =
      (pure true, if destinationPort v p = 443 then out else out ++ [p]) := by
  have hsize := h.size
  have hheader := h.header
  have hdst : val (slice p (ipHeaderLen v p + 2) 2) = destinationPort v p := by
    rw [destinationPort, segment, slice_drop]
  have hintercept : tryIntercept env.resolver p p.length (ipHeaderLen v p) v {} = pure false := by
    rw [tryIntercept]
    simp only [Bool.not_true, Bool.false_eq_true, if_false]
    rw [if_neg (by omega), u16At_eq (by omega), liftArray_pure_bind, hdst,
      if_pos (show destinationPort v p ≠ DNS_PORT from hport)]
  refine outcome_processPacket (by omega) (Nat.le_refl _) h.version ?_
  rw [h.protocol, handle, if_pos rfl, handleUdp, if_neg (by omega), hintercept, pure_bind]
  simp only [Bool.false_eq_true, if_false]
  rw [u16At_eq (by omega), liftArray_pure_bind, hdst]
  by_cases h443 : destinationPort v p = 443
  · rw [if_pos h443, if_pos h443]
    rfl
  · rw [if_neg h443, if_neg h443, outcome_write_bind]
    rfl

theorem processPacket_port53 (env : PacketEnv) (h : UdpPacket v p) (hport : destinationPort v p = 53)
    (out : List Bytes) :
    ∃ written, (processPacket env p p.length {}).outcome out = (pure true, out ++ written) ∧
      (written = [] ∨ ∃ dns r, written = [r] ∧ AnswerPacket v p dns r) := by
  have hsize := h.size
  have hheader := h.header
  have hdst : val (slice p (ipHeaderLen v p + 2) 2) = 53 := by
    rw [← hport, destinationPort, segment, slice_drop]
  obtain ⟨written, hrun, hw⟩ :=
    @tryIntercept_outcome _ _ _ ({} : BypassConfig) hheader (Nat.le_refl _) hsize hdst rfl env.resolver out
  refine ⟨written, outcome_processPacket (by omega) (Nat.le_refl _) h.version ?_, hw⟩
  rw [h.protocol, handle, if_pos rfl, handleUdp, if_neg (by omega), outcome_bind, hrun]
  rfl

/-! ### The two policies -/

/-- The native path submits the datagram with its own addresses, ports and payload. -/
def Submits (mtu : ℤ) (v : IpVersion) (p : Bytes) : Prop :=
  processDeviceUdpPacket (bridgeSettings mtu true) p = some (datagram v p)

/-- The fallback path writes the packet unchanged. -/
def Forwards (env : PacketEnv) (p : Bytes) : Prop :=
  (processPacket env p p.length {}).outcome [] = (pure true, [p])

/-- **The two paths agree on every datagram not to port 53**, and both refuse port 443. What goes to
port 53 the native path submits, while the fallback path drops or answers it. -/
theorem udp_policies (env : PacketEnv) (mtu : ℤ) (v : IpVersion) (p : Bytes) (h : UdpPacket v p)
    (hmtu : (p.length : ℤ) ≤ frameMtu mtu) (hheader : headerChecksumRight v p)
    (hslip : BypassVpn.udpChecksum v p ≠ 0xFFFF) :
    (destinationPort v p ≠ 53 → (Submits mtu v p ↔ Forwards env p)) ∧
    (destinationPort v p = 443 → processDeviceUdpPacket (bridgeSettings mtu true) p = none ∧
      (processPacket env p p.length {}).outcome [] = (pure true, [])) ∧
    (destinationPort v p = 53 → Submits mtu v p ∧
      ∃ written, (processPacket env p p.length {}).outcome [] = (pure true, written) ∧
        (written = [] ∨ ∃ dns r, written = [r] ∧ AnswerPacket v p dns r)) := by
  have hnative := processDeviceUdpPacket_eq h hmtu hslip
  refine ⟨fun hport => ?_, fun hport => ?_, fun hport => ?_⟩
  · have hkotlin := processPacket_udp env h hport []
    rw [Submits, Forwards, hnative, hkotlin]
    by_cases h443 : destinationPort v p = 443
    · rw [if_neg (by simp [h443]), if_pos h443]
      simp
    · rw [if_pos ⟨hheader, h443⟩, if_neg h443]
      simp
  · rw [hnative, processPacket_udp env h (by omega) [], if_neg (by simp [hport]), if_pos hport]
    exact ⟨rfl, rfl⟩
  · rw [Submits, hnative, if_pos ⟨hheader, by omega⟩]
    refine ⟨rfl, ?_⟩
    simpa using processPacket_port53 env h hport []

/-- One octet to a time server. -/
def timePacket : Bytes :=
  [69, 0, 0, 29, 0, 1, 64, 0, 64, 17, 32, 190, 10, 0, 0, 2, 8, 8, 8, 8, 19, 136, 0, 123, 0, 9, 208, 199, 1]

theorem timePacket_udp : UdpPacket .v4 timePacket :=
  ⟨by decide, by decide, by decide, rfl, by decide, by decide, by decide, by decide,
    by rw [segmentVerifies]; decide +kernel⟩

theorem udp_policies_timePacket : Submits 1400 .v4 timePacket ∧ Forwards oneAddress timePacket := by
  have h := udp_policies oneAddress 1400 .v4 timePacket timePacket_udp (by decide) (by decide) (by decide)
  have hforwards : Forwards oneAddress timePacket := rfl
  exact ⟨(h.1 (by decide)).mpr hforwards, hforwards⟩

/-- An empty datagram to port 53. -/
def emptyQuery : Bytes :=
  [69, 0, 0, 28, 0, 1, 64, 0, 64, 17, 32, 191, 10, 0, 0, 2, 8, 8, 8, 8, 19, 136, 0, 53, 0, 8, 210, 15]

/-- The native path submits what the fallback path drops. -/
theorem dns_forwarded_natively : ¬ ∀ (env : PacketEnv) (mtu : ℤ) (v : IpVersion) (p : Bytes), UdpPacket v p →
    (p.length : ℤ) ≤ frameMtu mtu → (Submits mtu v p ↔ Forwards env p) := by
  intro h
  have hquery : UdpPacket .v4 emptyQuery :=
    ⟨by decide, by decide, by decide, rfl, by decide, by decide, by decide, by decide,
    by rw [segmentVerifies]; decide +kernel⟩
  have hsubmits : Submits 1400 .v4 emptyQuery := rfl
  have hdrops : ¬ Forwards oneAddress emptyQuery := fun hf => by
    have hwritten : [] = [emptyQuery] := congrArg Prod.snd hf
    cases hwritten
  exact hdrops ((h oneAddress 1400 .v4 emptyQuery hquery (by decide)).mp hsubmits)

/-- `timePacket` with a wrong header checksum. -/
def wrongHeader : Bytes :=
  [69, 0, 0, 29, 0, 1, 64, 0, 64, 17, 32, 191, 10, 0, 0, 2, 8, 8, 8, 8, 19, 136, 0, 123, 0, 9, 208, 199, 1]

/-- The native path alone looks at the checksum of the IPv4 header. -/
theorem wrongHeader_refused_natively :
    UdpPacket .v4 wrongHeader ∧ ¬Submits 1400 .v4 wrongHeader ∧ Forwards oneAddress wrongHeader := by
  have hudp : UdpPacket .v4 wrongHeader :=
    ⟨by decide, by decide, by decide, rfl, by decide, by decide, by decide, by decide,
      by rw [segmentVerifies]; decide +kernel⟩
  exact ⟨hudp, by unfold Submits; decide +kernel, rfl⟩

/-- Two octets to a time server whose checksum computes to zero and is sent as `0xFFFF`. -/
def onesChecksum : Bytes :=
  [69, 0, 0, 30, 0, 1, 64, 0, 64, 17, 32, 189, 10, 0, 0, 2, 8, 8, 8, 8, 19, 136, 0, 123, 0, 10, 255, 255,
    209, 197]

/-- The native path refuses a right checksum of `0xFFFF`: it computes zero. -/
theorem onesChecksum_refused_natively :
    UdpPacket .v4 onesChecksum ∧ headerChecksumRight .v4 onesChecksum ∧ ¬Submits 1400 .v4 onesChecksum ∧
      Forwards oneAddress onesChecksum := by
  have hudp : UdpPacket .v4 onesChecksum :=
    ⟨by decide, by decide, by decide, rfl, by decide, by decide, by decide, by decide,
      by rw [segmentVerifies]; decide +kernel⟩
  exact ⟨hudp, by decide, by unfold Submits; decide +kernel, rfl⟩

end BypassVpn.Tun2socks
