import BypassVpn.Packet.Jvm

/-!
# IP packets on the wire

What the standards say of the bytes of a packet, independent of the code: the fields of an IPv4 or
IPv6 header, of the TCP or UDP segment behind it, and when their checksums verify.

* `IpVersion`; `ipHeaderLen`, `ipLength`, `ipProtocol`, `ipSource`, `ipDestination`, `segment`.
* `pseudoHeader`, `ipHeaderVerifies`, `segmentVerifies`: the checks a receiver makes.
* `sourcePort`, `destinationPort`; `tcpSeq`, `tcpHeaderLen`, `tcpPayload`; `udpLength`,
  `udpChecksum`, `udpPayload`.
-/

namespace BypassVpn

open Region OnesComplement

/-- The two IP versions. -/
inductive IpVersion where
  | v4
  | v6
  deriving DecidableEq, Repr

variable (v : IpVersion) (p : Bytes)

/-! ### The IP header -/

/-- The octet at `i`, zero behind the end. -/
def octet (i : ℕ) : ℕ := (p.getD i 0).toNat

/-- The version field. -/
def ipVersionField : ℕ := octet p 0 / 16

/-- The length of the IP header: the IHL in words for IPv4, fixed for IPv6. -/
def ipHeaderLen : ℕ :=
  match v with
  | .v4 => octet p 0 % 16 * 4
  | .v6 => 40

/-- The packet length the IP header claims. -/
def ipLength : ℕ :=
  match v with
  | .v4 => val (slice p 2 2)
  | .v6 => 40 + val (slice p 4 2)

/-- The protocol, or the next header. -/
def ipProtocol : ℕ :=
  match v with
  | .v4 => octet p 9
  | .v6 => octet p 6

/-- The source address. -/
def ipSource : Bytes :=
  match v with
  | .v4 => slice p 12 4
  | .v6 => slice p 8 16

/-- The destination address. -/
def ipDestination : Bytes :=
  match v with
  | .v4 => slice p 16 4
  | .v6 => slice p 24 16

/-- Neither the more-fragments bit nor a fragment offset is set. -/
def unfragmented : Prop :=
  match v with
  | .v4 => val (slice p 6 2) % 2 ^ 14 = 0
  | .v6 => True

/-- The header checksum of a received packet is right; IPv6 has none. -/
def ipHeaderVerifies : Prop :=
  match v with
  | .v4 => sum16 (p.take (ipHeaderLen .v4 p)) = 0xFFFF
  | .v6 => True

/-! ### The segment -/

/-- What follows the IP header. -/
def segment : Bytes := p.drop (ipHeaderLen v p)

/-- The pseudo-header of a segment of `n` octets. -/
def pseudoHeader (proto : UInt8) (n : ℕ) : Bytes :=
  match v with
  | .v4 => ipSource .v4 p ++ ipDestination .v4 p ++ [0, proto] ++ be 2 n
  | .v6 => ipSource .v6 p ++ ipDestination .v6 p ++ be 4 n ++ [0, 0, 0, proto]

/-- The checksum of a received segment is right. -/
def segmentVerifies (proto : UInt8) : Prop :=
  sum16 (pseudoHeader v p proto (segment v p).length ++ segment v p) = 0xFFFF

/-- The source port of a segment. -/
def sourcePort : ℕ := val (slice (segment v p) 0 2)

/-- The destination port of a segment. -/
def destinationPort : ℕ := val (slice (segment v p) 2 2)

/-! ### TCP and UDP -/

/-- The sequence number. -/
def tcpSeq : ℕ := val (slice (segment v p) 4 4)

/-- The length of the TCP header: the data offset in words. -/
def tcpHeaderLen : ℕ := octet (segment v p) 12 / 16 * 4

/-- The control bits, `FIN` lowest. -/
def tcpFlags : ℕ := octet (segment v p) 13

/-- What follows the TCP header. -/
def tcpPayload : Bytes := (segment v p).drop (tcpHeaderLen v p)

/-- The length field of a UDP header. -/
def udpLength : ℕ := val (slice (segment v p) 4 2)

/-- The checksum field of a UDP header. -/
def udpChecksum : ℕ := val (slice (segment v p) 6 2)

/-- What follows the UDP header. -/
def udpPayload : Bytes := (segment v p).drop 8

/-! ### The part of a header that must be there -/

/-- The octets up to and including the addresses. -/
def minHeaderLen : ℕ :=
  match v with
  | .v4 => 20
  | .v6 => 40

theorem twenty_le {v : IpVersion} {n : ℕ} (h : minHeaderLen v ≤ n) : 20 ≤ n := by
  cases v <;> simp only [minHeaderLen] at h <;> omega

/-- The sizes an IP length field can hold. -/
def maxLength : IpVersion → ℕ
  | .v4 => 65535
  | .v6 => 40 + 65535

theorem ipLength_le (v : IpVersion) {p : Bytes} : ipLength v p ≤ maxLength v := by
  have hlt : ∀ i, val (slice p i 2) < 65536 := fun i => by
    have h1 := val_lt (slice p i 2)
    have h2 : (slice p i 2).length ≤ 2 := by simp [slice]
    exact lt_of_lt_of_le h1 (Nat.pow_le_pow_right (by omega) h2)
  have h2 := hlt 2
  have h4 := hlt 4
  cases v <;> simp only [ipLength, maxLength] <;> omega

theorem length_pseudoHeader {v : IpVersion} {p : Bytes} (h : minHeaderLen v ≤ p.length) (proto : UInt8)
    (n : ℕ) : (pseudoHeader v p proto n).length % 2 = 0 := by
  cases v <;> simp only [minHeaderLen] at h
  · simp [pseudoHeader, ipSource, ipDestination, length_slice (show 12 + 4 ≤ p.length by omega),
      length_slice (show 16 + 4 ≤ p.length by omega)]
  · simp [pseudoHeader, ipSource, ipDestination, length_slice (show 8 + 16 ≤ p.length by omega),
      length_slice (show 24 + 16 ≤ p.length by omega)]

/-! ### Fields of packets that agree -/

section Congr

variable {v : IpVersion} {p q : Bytes}

theorem octet_congr {i : ℕ} (h : q[i]? = p[i]?) : octet q i = octet p i := by
  rw [octet, octet, List.getD_eq_getElem?_getD, List.getD_eq_getElem?_getD, h]

theorem ipHeaderLen_congr (h : q[0]? = p[0]?) : ipHeaderLen v q = ipHeaderLen v p := by
  cases v
  · simp only [ipHeaderLen, octet_congr h]
  · rfl

theorem octet_drop (p : Bytes) (k i : ℕ) : octet (p.drop k) i = octet p (k + i) := by
  rw [octet, octet, List.getD_eq_getElem?_getD, List.getD_eq_getElem?_getD, List.getElem?_drop]

theorem tcpHeaderLen_congr (hl : ipHeaderLen v q = ipHeaderLen v p)
    (h : q[ipHeaderLen v p + 12]? = p[ipHeaderLen v p + 12]?) :
    tcpHeaderLen v q = tcpHeaderLen v p := by
  rw [tcpHeaderLen, tcpHeaderLen, segment, segment, octet_drop, octet_drop, hl, octet_congr h]

theorem tcpSeq_eq : tcpSeq v p = val (slice p (ipHeaderLen v p + 4) 4) := by
  rw [tcpSeq, segment, slice_drop]

theorem tcpPayload_eq : tcpPayload v p = p.drop (ipHeaderLen v p + tcpHeaderLen v p) := by
  rw [tcpPayload, segment, List.drop_drop]

theorem octet_take {a : Bytes} {n i : ℕ} (h : i < n) : octet (a.take n) i = octet a i :=
  octet_congr (List.getElem?_take_of_lt h)

/-- The header fields of a packet do not depend on the buffer behind it. -/
theorem header_take {n : ℕ} (h : minHeaderLen v ≤ n) :
    ipVersionField (p.take n) = ipVersionField p ∧ ipHeaderLen v (p.take n) = ipHeaderLen v p ∧
      ipProtocol v (p.take n) = ipProtocol v p := by
  have h20 := twenty_le h
  refine ⟨?_, ipHeaderLen_congr (List.getElem?_take_of_lt (by omega)), ?_⟩
  · rw [ipVersionField, ipVersionField, octet_take (by omega)]
  · cases v <;> exact octet_take (by omega)

end Congr

end BypassVpn
