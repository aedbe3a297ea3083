import BypassVpn.Tun2socks.Udp
import BypassVpn.Ciadpi.Address

/-!
# Datagrams to the device

`udp_send_packet_to_device` of tun2socks: the packet it writes to the TUN for a datagram that came back.

* `udpSendPacketToDevice`.
* **`device_packet`**: the packet has the sender's address as its source, the client's as its destination, the
  payload, lengths that fit and checksums that verify. A checksum that comes out as zero is sent as zero, which
  is no checksum: an IPv6 receiver drops such a datagram.
-/

namespace BypassVpn.Tun2socks

open Region OnesComplement
open Ciadpi (SockaddrU Family)

/-! ### The packet -/

/-- The IPv4 header, without its checksum. -/
def ipv4Header (localAddr remoteAddr : SockaddrU) (dataLen : ℕ) : Bytes :=
  [0x45, 0] ++ be 2 (20 + 8 + dataLen) ++ [0, 0, 0, 0, 64, 17] ++ [0, 0] ++ remoteAddr.addr ++ localAddr.addr

/-- The IPv6 header of a datagram to the device. -/
def ipv6Header (localAddr remoteAddr : SockaddrU) (dataLen : ℕ) : Bytes :=
  [0x60, 0, 0, 0] ++ be 2 (8 + dataLen) ++ [17, 64] ++ remoteAddr.addr ++ localAddr.addr

/-- The UDP header, without its checksum. -/
def udpHeader (localAddr remoteAddr : SockaddrU) (dataLen : ℕ) : Bytes :=
  remoteAddr.port ++ localAddr.port ++ be 2 (8 + dataLen) ++ [0, 0]

/-- `udp_send_packet_to_device`: the packet for `BTap_Send`. The addresses are of one family. -/
def udpSendPacketToDevice (mtu : ℤ) (netifIp6addr : Bool) (localAddr remoteAddr : SockaddrU) (data : Bytes) :
    Option Bytes :=
  let udph := udpHeader localAddr remoteAddr data.length
  match localAddr.family with
  | .AF_INET =>
    if data.length > 65535 - (20 + 8) ∨ (data.length : ℤ) > mtu - (20 + 8) then none
    else
      let iph := ipv4Header localAddr remoteAddr data.length
      let iph := patch iph 10 (be 2 (ipv4Checksum iph []))
      let udph := patch udph 6 (be 2 (udpChecksum udph data remoteAddr.addr localAddr.addr))
      some (iph ++ udph ++ data)
  | .AF_INET6 =>
    if netifIp6addr = false then none
    else if data.length > 65535 - 8 ∨ (data.length : ℤ) > mtu - (40 + 8) then none
    else
      let iph := ipv6Header localAddr remoteAddr data.length
      let udph := patch udph 6 (be 2 (udpIp6Checksum udph data remoteAddr.addr localAddr.addr))
      some (iph ++ udph ++ data)

/-! ### Its parts -/

/-- The IP version of a family. -/
def versionOf : Family → IpVersion
  | .AF_INET => .v4
  | .AF_INET6 => .v6

/-- What stands in front of the addresses. -/
def headerStart (v : IpVersion) (checksum dataLen : ℕ) : Bytes :=
  match v with
  | .v4 => [0x45, 0] ++ be 2 (20 + 8 + dataLen) ++ [0, 0, 0, 0, 64, 17] ++ be 2 checksum
  | .v6 => [0x60, 0, 0, 0] ++ be 2 (8 + dataLen) ++ [17, 64]

/-- The octets of an address. -/
def addrSize : IpVersion → ℕ
  | .v4 => 4
  | .v6 => 16

/-- The segment with the UDP checksum `udpSum`. -/
def segmentOf (l r : SockaddrU) (udpSum : ℕ) (data : Bytes) : Bytes :=
  r.port ++ l.port ++ be 2 (8 + data.length) ++ be 2 udpSum ++ data

/-- A packet in parts. -/
def packetOf (v : IpVersion) (l r : SockaddrU) (ipSum udpSum : ℕ) (data : Bytes) : Bytes :=
  headerStart v ipSum data.length ++ (r.addr ++ (l.addr ++ segmentOf l r udpSum data))

variable {l r : SockaddrU} {v : IpVersion} {ipSum udpSum : ℕ} {data : Bytes}

theorem length_headerStart (v : IpVersion) (ipSum n : ℕ) :
    (headerStart v ipSum n).length + addrSize v + addrSize v = minHeaderLen v := by
  cases v <;> simp [headerStart, addrSize, minHeaderLen]

theorem addrSize_versionOf (f : Family) : f.size = addrSize (versionOf f) := by cases f <;> rfl

theorem length_segmentOf (l r : SockaddrU) (udpSum : ℕ) (data : Bytes) :
    (segmentOf l r udpSum data).length = 8 + data.length := by
  simp only [segmentOf, List.length_append, l.port_size, r.port_size, length_be]

/-- The addresses are of the version. -/
structure OfVersion (v : IpVersion) (l r : SockaddrU) : Prop where
  localSize : l.addr.length = addrSize v
  remoteSize : r.addr.length = addrSize v

theorem ofVersion (hf : r.family = l.family) : OfVersion (versionOf l.family) l r :=
  ⟨by rw [l.addr_size, addrSize_versionOf], by rw [r.addr_size, hf, addrSize_versionOf]⟩

theorem ipSource_eq (v : IpVersion) (p : Bytes) :
    ipSource v p = slice p (minHeaderLen v - addrSize v - addrSize v) (addrSize v) := by cases v <;> rfl

theorem ipDestination_eq (v : IpVersion) (p : Bytes) :
    ipDestination v p = slice p (minHeaderLen v - addrSize v) (addrSize v) := by cases v <;> rfl

theorem ipHeaderLen_packetOf (v : IpVersion) (l r : SockaddrU) (ipSum udpSum : ℕ) (data : Bytes) :
    ipHeaderLen v (packetOf v l r ipSum udpSum data) = minHeaderLen v := by
  cases v with
  | v4 =>
    have h0 : (packetOf .v4 l r ipSum udpSum data).getD 0 0 = 0x45 := rfl
    rw [ipHeaderLen, octet, h0]
    rfl
  | v6 => rfl

theorem ipSource_packetOf (h : OfVersion v l r) : ipSource v (packetOf v l r ipSum udpSum data) = r.addr := by
  have hlen := length_headerStart v ipSum data.length
  rw [ipSource_eq, packetOf, slice_append_right (by omega),
    slice_append_left (by rw [h.remoteSize]; omega), show minHeaderLen v - addrSize v - addrSize v -
      (headerStart v ipSum data.length).length = 0 by omega, ← h.remoteSize, slice_full]

theorem ipDestination_packetOf (h : OfVersion v l r) :
    ipDestination v (packetOf v l r ipSum udpSum data) = l.addr := by
  have hlen := length_headerStart v ipSum data.length
  have hr := h.remoteSize
  rw [ipDestination_eq, packetOf, slice_append_right (by omega), slice_append_right (by omega),
    slice_append_left (by rw [h.localSize]; omega), show minHeaderLen v - addrSize v -
      (headerStart v ipSum data.length).length - r.addr.length = 0 by omega, ← h.localSize, slice_full]

theorem segment_packetOf (h : OfVersion v l r) :
    segment v (packetOf v l r ipSum udpSum data) = segmentOf l r udpSum data := by
  have hlen := length_headerStart v ipSum data.length
  rw [segment, ipHeaderLen_packetOf, packetOf, ← List.append_assoc, ← List.append_assoc, List.drop_append,
    List.drop_eq_nil_of_le, List.nil_append]
  · rw [List.length_append, List.length_append, h.localSize, h.remoteSize, hlen, Nat.sub_self, List.drop_zero]
  · rw [List.length_append, List.length_append, h.localSize, h.remoteSize, hlen]

theorem length_packetOf (h : OfVersion v l r) :
    (packetOf v l r ipSum udpSum data).length = minHeaderLen v + 8 + data.length := by
  have hlen := length_headerStart v ipSum data.length
  rw [packetOf, List.length_append, List.length_append, List.length_append, h.localSize, h.remoteSize,
    length_segmentOf]
  omega

/-- The pseudo-header the checksum covers. -/
def pseudoOf (v : IpVersion) (l r : SockaddrU) (n : ℕ) : Bytes :=
  match v with
  | .v4 => r.addr ++ l.addr ++ [0, 17] ++ be 2 n
  | .v6 => r.addr ++ l.addr ++ be 4 n ++ [0, 0, 0, 17]

theorem pseudoHeader_packetOf (h : OfVersion v l r) (n : ℕ) :
    pseudoHeader v (packetOf v l r ipSum udpSum data) 17 n = pseudoOf v l r n := by
  have hs := @ipSource_packetOf l r v ipSum udpSum data h
  have hd := @ipDestination_packetOf l r v ipSum udpSum data h
  cases v <;> rw [pseudoHeader, hs, hd, pseudoOf]

/-! ### Its checksums -/

/-- The UDP checksum of `udp_send_packet_to_device`. -/
def deviceUdpSum (v : IpVersion) (l r : SockaddrU) (data : Bytes) : ℕ :=
  checksumOf v (udpHeader l r data.length) data r.addr l.addr

theorem length_udpHeader (l r : SockaddrU) (n : ℕ) : (udpHeader l r n).length = 8 := by
  simp only [udpHeader, List.length_append, l.port_size, r.port_size, length_be]
  rfl

theorem deviceUdpSum_eq (h : OfVersion v l r) :
    deviceUdpSum v l r data = 65535 - sum16 (pseudoOf v l r (8 + data.length) ++ segmentOf l r 0 data) := by
  have hmin : minHeaderLen v ≤ (packetOf v l r 0 0 data).length := by
    rw [length_packetOf h]
    omega
  have hc : checksumOf v (udpHeader l r data.length) data _ _ = _ :=
    checksumOf_eq hmin (length_udpHeader l r data.length)
  rwa [ipSource_packetOf h, ipDestination_packetOf h, pseudoHeader_packetOf h] at hc

theorem patch_udpHeader (l r : SockaddrU) (n c : ℕ) :
    patch (udpHeader l r n) 6 (be 2 c) = r.port ++ l.port ++ be 2 (8 + n) ++ be 2 c := by
  rw [udpHeader, patch_append]
  · rw [length_be]
    exact List.append_nil _
  · simp only [List.length_append, l.port_size, r.port_size, length_be]

/-- The IPv4 checksum of `udp_send_packet_to_device`. -/
def deviceIpSum (l r : SockaddrU) (n : ℕ) : ℕ := ipv4Checksum (ipv4Header l r n) []

theorem deviceIpSum_eq (h : OfVersion .v4 l r) (n : ℕ) : deviceIpSum l r n = 65535 - sum16 (ipv4Header l r n) := by
  have hlen : (ipv4Header l r n).length % 2 = 0 := by
    simp only [ipv4Header, List.length_append, h.localSize, h.remoteSize, length_be]
    rfl
  rw [deviceIpSum, ipv4Checksum, complement_eq, checksumSummer_eq _ hlen, sum16_eq]
  rfl

/-! ### What is written -/

/-- The datagram is not too large for the device. -/
def Small (mtu : ℤ) (l : SockaddrU) (data : Bytes) : Prop :=
  minHeaderLen (versionOf l.family) + 8 + data.length ≤ maxLength (versionOf l.family) ∧
    (minHeaderLen (versionOf l.family) + 8 + data.length : ℤ) ≤ mtu

theorem udpSendPacketToDevice_iff {mtu : ℤ} {netifIp6addr : Bool} {p : Bytes} :
    udpSendPacketToDevice mtu netifIp6addr l r data = some p ↔
      (Small mtu l data ∧ (l.family = .AF_INET6 → netifIp6addr = true)) ∧
        packetOf (versionOf l.family) l r (deviceIpSum l r data.length) (deviceUdpSum (versionOf l.family) l r data)
          data = p := by
  rw [udpSendPacketToDevice, Small]
  cases hf : l.family with
  | AF_INET =>
    have hsize : (data.length > 65535 - (20 + 8) ∨ (data.length : ℤ) > mtu - (20 + 8)) ↔
        ¬(minHeaderLen .v4 + 8 + data.length ≤ maxLength .v4 ∧
          (minHeaderLen .v4 + 8 + data.length : ℤ) ≤ mtu) := by
      simp only [minHeaderLen, maxLength]
      omega
    have hpatch : patch (ipv4Header l r data.length) 10 (be 2 (deviceIpSum l r data.length)) =
        headerStart .v4 (deviceIpSum l r data.length) data.length ++ r.addr ++ l.addr := by
      rw [ipv4Header, List.append_assoc, List.append_assoc, patch_append (by simp), length_be, headerStart]
      simp only [List.append_assoc]
      rfl
    dsimp only [versionOf]
    rw [Option.ite_none_left_eq_some, hsize, not_not, patch_udpHeader, Option.some.injEq]
    have hp : patch (ipv4Header l r data.length) 10 (be 2 (ipv4Checksum (ipv4Header l r data.length) [])) ++
        (r.port ++ l.port ++ be 2 (8 + data.length) ++
          be 2 (udpChecksum (udpHeader l r data.length) data r.addr l.addr)) ++ data =
        packetOf .v4 l r (deviceIpSum l r data.length) (deviceUdpSum .v4 l r data) data := by
      rw [← deviceIpSum, hpatch, packetOf, segmentOf, deviceUdpSum, checksumOf]
      simp only [List.append_assoc]
    rw [hp]
    simp
  | AF_INET6 =>
    have hsize : (data.length > 65535 - 8 ∨ (data.length : ℤ) > mtu - (40 + 8)) ↔
        ¬(minHeaderLen .v6 + 8 + data.length ≤ maxLength .v6 ∧
          (minHeaderLen .v6 + 8 + data.length : ℤ) ≤ mtu) := by
      simp only [minHeaderLen, maxLength]
      omega
    dsimp only [versionOf]
    rw [Option.ite_none_left_eq_some, Option.ite_none_left_eq_some, hsize, not_not, patch_udpHeader,
      Option.some.injEq]
    have hp : ipv6Header l r data.length ++ (r.port ++ l.port ++ be 2 (8 + data.length) ++
          be 2 (udpIp6Checksum (udpHeader l r data.length) data r.addr l.addr)) ++ data =
        packetOf .v6 l r (deviceIpSum l r data.length) (deviceUdpSum .v6 l r data) data := by
      rw [ipv6Header, packetOf, headerStart, segmentOf, deviceUdpSum, checksumOf]
      simp only [List.append_assoc]
    rw [hp]
    simp only [Bool.not_eq_false, forall_const]
    tauto

theorem slice_mid {xs ys zs : Bytes} {i n : ℕ} (hx : xs.length = i) (hy : ys.length = n) :
    slice (xs ++ ys ++ zs) i n = ys := by
  rw [List.append_assoc, slice_append_right hx.le, hx, Nat.sub_self, slice_append_left (by omega), ← hy, slice_full]

theorem slice_segmentOf (l r : SockaddrU) (c : ℕ) (data : Bytes) :
    slice (segmentOf l r c data) 0 2 = r.port ∧ slice (segmentOf l r c data) 2 2 = l.port ∧
      slice (segmentOf l r c data) 4 2 = be 2 (8 + data.length) ∧ slice (segmentOf l r c data) 6 2 = be 2 c ∧
      (segmentOf l r c data).drop 8 = data := by
  have hl := l.port_size
  have hr := r.port_size
  refine ⟨?_, ?_, ?_, ?_, ?_⟩
  · rw [segmentOf, List.append_assoc, List.append_assoc, List.append_assoc]
    have hnil : ([] : Bytes).length = 0 := rfl
    exact slice_mid hnil hr
  · rw [segmentOf, List.append_assoc, List.append_assoc]
    exact slice_mid hr hl
  · rw [segmentOf, List.append_assoc]
    exact slice_mid (by rw [List.length_append, hl, hr]) (length_be 2 _)
  · exact slice_mid (by rw [List.length_append, List.length_append, hl, hr, length_be]) (length_be 2 _)
  · rw [segmentOf]
    exact List.drop_left' (by simp only [List.length_append, hl, hr, length_be])

theorem patch_segmentOf (l r : SockaddrU) (c : ℕ) (data : Bytes) :
    patch (segmentOf l r c data) 6 [0, 0] = segmentOf l r 0 data := by
  have hlen : (r.port ++ l.port ++ be 2 (8 + data.length)).length = 6 := by
    rw [List.length_append, List.length_append, l.port_size, r.port_size, length_be]
  rw [segmentOf, List.append_assoc, patch_append hlen.symm]
  rfl

theorem header_packetOf (h : OfVersion v l r) {udpSum : ℕ}
    (hsmall : minHeaderLen v + 8 + data.length ≤ maxLength v) :
    let p := packetOf v l r (deviceIpSum l r data.length) udpSum data
    ipVersionField p = versionNumber v ∧ ipProtocol v p = 17 ∧ unfragmented v p ∧ ipLength v p = p.length ∧
      ipHeaderVerifies v p := by
  intro p
  have hlen : p.length = minHeaderLen v + 8 + data.length := length_packetOf h
  cases v with
  | v4 =>
    have hfield : slice p 2 2 = be 2 (20 + 8 + data.length) := rfl
    have h0 : p.getD 0 0 = 0x45 := rfl
    have h9 : p.getD 9 0 = 17 := rfl
    have hflags : slice p 6 2 = [0, 0] := rfl
    refine ⟨?_, congrArg UInt8.toNat h9, ?_, ?_, ?_⟩
    · rw [ipVersionField, octet, h0]
      rfl
    · rw [unfragmented, hflags]
      rfl
    · rw [ipLength, hfield, val_be_of_lt, hlen, minHeaderLen]
      simp only [minHeaderLen, maxLength] at hsmall
      omega
    · have hhdr : p.take 20 = [0x45, 0] ++ be 2 (20 + 8 + data.length) ++ [0, 0, 0, 0, 64, 17] ++
          be 2 (deviceIpSum l r data.length) ++ (r.addr ++ l.addr) := by
        have hsize := length_headerStart .v4 (deviceIpSum l r data.length) data.length
        have : p = headerStart .v4 (deviceIpSum l r data.length) data.length ++ r.addr ++ l.addr ++
            segmentOf l r udpSum data := by
          simp only [p, packetOf, List.append_assoc]
        rw [this, List.take_left' (by
          rw [List.length_append, List.length_append, h.localSize, h.remoteSize]
          exact hsize), List.append_assoc]
        rfl
      have heven : ([0x45, 0] ++ be 2 (20 + 8 + data.length) ++ [0, 0, 0, 0, 64, 17]).length % 2 = 0 := by
        rw [List.length_append, List.length_append, length_be]
        rfl
      rw [ipHeaderVerifies, ipHeaderLen_packetOf, show minHeaderLen .v4 = 20 from rfl, hhdr, deviceIpSum_eq h,
        ipv4Header, List.append_assoc _ r.addr l.addr]
      exact sum16_complement heven
  | v6 =>
    have hfield : slice p 4 2 = be 2 (8 + data.length) := rfl
    have h0 : p.getD 0 0 = 0x60 := rfl
    have h6 : p.getD 6 0 = 17 := rfl
    refine ⟨?_, congrArg UInt8.toNat h6, trivial, ?_, trivial⟩
    · rw [ipVersionField, octet, h0]
      rfl
    · rw [ipLength, hfield, val_be_of_lt, hlen, minHeaderLen]
      · omega
      · simp only [minHeaderLen, maxLength] at hsmall
        omega

theorem length_pseudoOf (h : OfVersion v l r) (n : ℕ) : (pseudoOf v l r n).length % 2 = 0 := by
  have h₁ := h.localSize
  have h₂ := h.remoteSize
  cases v <;> simp only [addrSize] at h₁ h₂ <;>
    simp only [pseudoOf, List.length_append, h₁, h₂, length_be] <;> rfl

theorem verifies_packetOf (h : OfVersion v l r) :
    segmentVerifies v (packetOf v l r ipSum (deviceUdpSum v l r data) data) 17 := by
  have heven : (pseudoOf v l r (8 + data.length) ++ (r.port ++ l.port ++ be 2 (8 + data.length))).length % 2 = 0 := by
    have := length_pseudoOf h (8 + data.length)
    rw [List.length_append, List.length_append, List.length_append, l.port_size, r.port_size, length_be]
    omega
  have hsum := @sum16_complement _ data heven
  rw [segmentVerifies, segment_packetOf h, length_segmentOf, pseudoHeader_packetOf h, deviceUdpSum_eq h]
  simp only [segmentOf, List.append_assoc] at hsum ⊢
  exact hsum

/-- **A packet for the device.** It carries the datagram between the right ends, and every checksum verifies; a UDP
checksum that comes out as zero is sent as zero. -/
theorem device_packet {mtu : ℤ} {netifIp6addr : Bool} {p : Bytes} (hf : r.family = l.family)
    (h : udpSendPacketToDevice mtu netifIp6addr l r data = some p) :
    let v := versionOf l.family
    (p.length : ℤ) ≤ mtu ∧ ipSource v p = r.addr ∧ ipDestination v p = l.addr ∧
      slice (segment v p) 0 2 = r.port ∧ slice (segment v p) 2 2 = l.port ∧ udpPayload v p = data ∧
      ipHeaderVerifies v p ∧ segmentVerifies v p 17 ∧
      (UdpPacket v p ↔ sum16 (pseudoHeader v p 17 (segment v p).length ++ patch (segment v p) 6 [0, 0]) ≠ 0xFFFF) := by
  obtain ⟨⟨hsmall, -⟩, rfl⟩ := udpSendPacketToDevice_iff.mp h
  intro v
  have hv : OfVersion v l r := ofVersion hf
  have hlen := @length_packetOf l r v (deviceIpSum l r data.length) (deviceUdpSum v l r data) data hv
  have hseg := @segment_packetOf l r v (deviceIpSum l r data.length) (deviceUdpSum v l r data) data hv
  have hslices := slice_segmentOf l r (deviceUdpSum v l r data) data
  obtain ⟨hversion, hproto, hunfrag, hlength, hverifies⟩ :=
    @header_packetOf l r v data hv (deviceUdpSum v l r data) hsmall.1
  have hsum := @verifies_packetOf l r v (deviceIpSum l r data.length) data hv
  refine ⟨?_, ipSource_packetOf hv, ipDestination_packetOf hv, ?_, ?_, ?_, hverifies, hsum, ?_⟩
  · rw [hlen]
    exact_mod_cast hsmall.2
  · rw [hseg, hslices.1]
  · rw [hseg, hslices.2.1]
  · rw [udpPayload, hseg, hslices.2.2.2.2]
  · have hfield : BypassVpn.udpChecksum v (packetOf v l r (deviceIpSum l r data.length) (deviceUdpSum v l r data) data) =
        deviceUdpSum v l r data := by
      rw [BypassVpn.udpChecksum, hseg, hslices.2.2.2.1, val_be_of_lt]
      rw [deviceUdpSum_eq hv]
      omega
    have hpseudo := @pseudoHeader_packetOf l r v (deviceIpSum l r data.length) (deviceUdpSum v l r data) data hv
      (8 + data.length)
    have hzero : BypassVpn.udpChecksum v (packetOf v l r (deviceIpSum l r data.length) (deviceUdpSum v l r data) data) ≠ 0 ↔
        sum16 (pseudoOf v l r (8 + data.length) ++ segmentOf l r 0 data) ≠ 0xFFFF := by
      have hle : sum16 (pseudoOf v l r (8 + data.length) ++ segmentOf l r 0 data) < 65536 := by
        rw [sum16_eq]
        exact norm16_lt _
      rw [hfield, deviceUdpSum_eq hv]
      omega
    rw [hseg, length_segmentOf, hpseudo, patch_segmentOf, ← hzero]
    refine ⟨fun hp => hp.checksum, fun hc => ?_⟩
    have hheader := ipHeaderLen_packetOf v l r (deviceIpSum l r data.length) (deviceUdpSum v l r data) data
    refine ⟨hversion, hheader.ge, hproto, hunfrag, ?_, hlength, ?_, hc, hsum⟩
    · rw [hheader, hlen]
      exact Nat.le_add_right _ _
    · rw [udpLength, hseg, hslices.2.2.1, length_segmentOf, val_be_of_lt]
      have hsmall := hsmall.1
      cases hl : l.family <;> rw [hl] at hsmall <;> simp only [versionOf, minHeaderLen, maxLength] at hsmall <;> omega

/-- An IPv6 address and a port. -/
def sampleHost (last : UInt8) : SockaddrU :=
  ⟨.AF_INET6, [0x20, 1, 0x0d, 0xb8, 0, 0, 0, 0, 0, 0, 0, 0, 0, 0, 0, last], [0, 123], rfl, rfl⟩

/-- An IPv6 datagram whose words add up to `0xFFFF`. -/
theorem device_packet_zero :
    ∃ p, udpSendPacketToDevice 1500 true (sampleHost 1) (sampleHost 2) [0xA3, 0x6F] = some p ∧
      segmentVerifies .v6 p 17 ∧ ¬UdpPacket .v6 p := by
  obtain ⟨p, hp⟩ : ∃ p, udpSendPacketToDevice 1500 true (sampleHost 1) (sampleHost 2) [0xA3, 0x6F] = some p :=
    ⟨_, udpSendPacketToDevice_iff.mpr ⟨⟨⟨by decide, by decide⟩, fun _ => rfl⟩, rfl⟩⟩
  have h := device_packet (l := sampleHost 1) (r := sampleHost 2) rfl hp
  have hv := ofVersion (l := sampleHost 1) (r := sampleHost 2) rfl
  obtain ⟨-, hpacket⟩ := udpSendPacketToDevice_iff.mp hp
  refine ⟨p, hp, h.2.2.2.2.2.2.2.1, fun hu => h.2.2.2.2.2.2.2.2.mp hu ?_⟩
  rw [← hpacket, segment_packetOf hv, length_segmentOf, pseudoHeader_packetOf hv, patch_segmentOf]
  decide

end BypassVpn.Tun2socks
