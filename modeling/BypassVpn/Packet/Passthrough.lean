import BypassVpn.Packet.Doh
import BypassVpn.Packet.Split

/-!
# Packets outside the policy

The code classifies by ports and TLS octets at fixed offsets and never looks at the fragment fields.

* `ValidIp`, `fragmentOffset`; `OutsidePolicy`: no UDP header to port 443 or 53 and no TCP header to
  port 443 with a ClientHello behind it.
* `consultedHost`: the host for which `processPacket` consults its resolver.
* `Misread`: payload taken for such a header; `tcpSplit_iff` and **`processPacket_passes_iff`**.
-/

namespace BypassVpn

open Region OnesComplement

/-! ### The policy -/

section Policy

variable (v : IpVersion) (p : Bytes)

/-- A packet with a complete IP header whose length field is right. -/
structure ValidIp : Prop where
  version : ipVersionField p = versionNumber v
  header : minHeaderLen v ≤ ipHeaderLen v p
  whole : ipHeaderLen v p ≤ p.length
  size : ipLength v p = p.length

/-- The fragment offset in units of eight octets; the fixed IPv6 header has none. -/
def fragmentOffset : ℕ :=
  match v with
  | .v4 => val (slice p 6 2) % 2 ^ 13
  | .v6 => 0

/-- A UDP header with this destination port. -/
structure UdpTo (port : ℕ) : Prop where
  protocol : ipProtocol v p = 17
  first : fragmentOffset v p = 0
  size : 4 ≤ (segment v p).length
  port : destinationPort v p = port

/-- A TCP header with destination port 443, followed by a ClientHello record. -/
structure CarriesHello : Prop where
  protocol : ipProtocol v p = 6
  first : fragmentOffset v p = 0
  port : destinationPort v p = 443
  offset : 20 ≤ tcpHeaderLen v p
  hello : ClientHelloRecord (tcpPayload v p)

/-- A packet that the policy lets pass. -/
structure OutsidePolicy : Prop where
  quic : ¬ UdpTo v p 443
  dns : ¬ UdpTo v p 53
  tls : ¬ CarriesHello v p

variable (random : Random) (config : BypassConfig)

/-- The octets behind the IP header read as a UDP header that is not passed on. -/
def ReadsAsUdp : Prop :=
  4 ≤ (segment v p).length ∧ (destinationPort v p = 443 ∨
    config.dnsInterceptEnabled = true ∧ 8 ≤ (segment v p).length ∧ destinationPort v p = 53)

/-- The octets behind the IP header read as a TCP header to port 443 with a ClientHello behind it, and
both parts reach behind the checksum field. -/
structure ReadsAsHello : Prop where
  size : 13 ≤ (segment v p).length
  port : destinationPort v p = 443
  hello : ClientHelloRecord (tcpPayload v p)
  first : 18 ≤ tcpHeaderLen v p + frag1PayloadLen config random (tcpPayload v p).length
  second : 18 ≤ tcpHeaderLen v p +
    ((tcpPayload v p).length - frag1PayloadLen config random (tcpPayload v p).length)

/-- **Payload is taken for a header**: in a later fragment, or behind a data offset that is too small.
-/
def Misread : Prop :=
  (ipProtocol v p = 17 ∧ fragmentOffset v p ≠ 0 ∧ ReadsAsUdp v p config) ∨
    (ipProtocol v p = 6 ∧ (fragmentOffset v p ≠ 0 ∨ tcpHeaderLen v p < 20) ∧
      ReadsAsHello v p random config)

end Policy

/-! ### The resolver -/

/-- The host for which `processPacket` consults its resolver, if it does. -/
def consultedHost (pkt : Bytes) (length : ℕ) (config : BypassConfig) : Option String :=
  if ipVersionField pkt = 4 ∧ 20 ≤ length ∧ ipProtocol .v4 pkt = 17 then
    interceptedHost pkt length (ipHeaderLen .v4 pkt) config
  else if ipVersionField pkt = 6 ∧ IPV6_HEADER_LEN ≤ length ∧ ipProtocol .v6 pkt = 17 then
    interceptedHost pkt length IPV6_HEADER_LEN config
  else none

section Resolver

variable {env : PacketEnv} {config : BypassConfig} {v : IpVersion} {pkt : Bytes} {length : ℕ}

theorem consultedHost_eq (config : BypassConfig) (hmin : minHeaderLen v ≤ length)
    (hver : ipVersionField pkt = versionNumber v) :
    consultedHost pkt length config =
      if ipProtocol v pkt = 17 then interceptedHost pkt length (ipHeaderLen v pkt) config else none := by
  cases v <;> simp only [minHeaderLen, versionNumber] at hmin hver
  · simp [consultedHost, hver, hmin]
  · simp [consultedHost, hver, hmin, IPV6_HEADER_LEN, ipHeaderLen]

theorem intercepted_of_host {h : ℕ} {host : String} (hlen : length ≤ pkt.length)
    (hq : interceptedHost pkt length h config = some host) : Intercepted config pkt length h := by
  unfold interceptedHost at hq
  by_cases hoff : (!config.dnsInterceptEnabled || decide (length < h + 8)) = true
  · rw [if_pos hoff] at hq
    cases hq
  rw [if_neg hoff] at hq
  simp only [Bool.or_eq_true, Bool.not_eq_true', decide_eq_true_eq, not_or, Bool.not_eq_false,
    Nat.not_lt] at hoff
  rw [u16At_eq (by omega), u16At_eq (by omega)] at hq
  refine ⟨hoff.1, hoff.2, ?_⟩
  by_contra hport
  change (if _ ∨ _ then _ else _) = _ at hq
  rw [if_pos (.inl hport)] at hq
  cases hq

theorem interceptedHost_of_synthesised {h : ℕ} {host : String} {r : Bytes} (hlen : length ≤ pkt.length)
    (hi : Intercepted config pkt length h) (hdns : 12 ≤ dnsLength pkt length h)
    (hs : Synthesised v pkt h (h + 8) (dnsLength pkt length h) host r) :
    interceptedHost pkt length h config = some host := by
  obtain ⟨query, qType, n, records, dns, hcopy, hparse, -, -⟩ := hs
  obtain ⟨hen, hsize, hport⟩ := hi
  unfold interceptedHost
  rw [if_neg (by simp [hen]; omega), u16At_eq (by omega), u16At_eq (by omega)]
  unfold dnsLength at hdns hcopy
  have hport' : ¬ (val (slice pkt (h + 2) 2) ≠ DNS_PORT ∨
      min (val (slice pkt (h + 4) 2) - 8) (length - (h + 8)) < 12) := by
    rw [not_or, not_not]
    exact ⟨hport, by omega⟩
  change (if _ ∨ _ then _ else _) = _
  rw [if_neg hport', hcopy, pure_bind, hparse]
  rfl

end Resolver

/-! ### Reading a packet that lies in a larger array -/

section Take

variable {config : BypassConfig} {random : Random} {v : IpVersion} {pkt : Bytes} {length : ℕ}

theorem length_segment_take (hlen : length ≤ pkt.length) :
    (segment v (pkt.take length)).length = length - ipHeaderLen v (pkt.take length) := by
  rw [segment, List.length_drop, List.length_take_of_le hlen]

theorem destinationPort_take (h : ipHeaderLen v (pkt.take length) + 4 ≤ length) :
    destinationPort v (pkt.take length) = val (slice pkt (ipHeaderLen v (pkt.take length) + 2) 2) := by
  rw [destinationPort_eq, slice_take (by omega)]

theorem udpTaken_iff (hlen : length ≤ pkt.length) :
    UdpTaken config pkt length (ipHeaderLen v (pkt.take length)) ↔ ReadsAsUdp v (pkt.take length) config := by
  unfold UdpTaken ReadsAsUdp Intercepted DNS_PORT
  rw [length_segment_take hlen]
  constructor
  · rintro ⟨h4, hport⟩
    rw [destinationPort_take h4]
    refine ⟨by omega, hport.imp_right fun h => ⟨h.1, ?_, h.2.2⟩⟩
    have := h.2.1
    omega
  · rintro ⟨h4, hport⟩
    rw [destinationPort_take (by omega)] at hport
    refine ⟨by omega, hport.imp_right fun h => ⟨h.1, ?_, h.2.2⟩⟩
    have := h.2.1
    omega

theorem ValidIp.bounds (hlen : length ≤ pkt.length) (hp : ValidIp v (pkt.take length)) :
    20 ≤ ipHeaderLen v (pkt.take length) ∧
    ipHeaderLen v (pkt.take length) ≤ length ∧ (pkt.take length).length ≤ maxLength v := by
  have hwhole := hp.whole
  rw [List.length_take_of_le hlen] at hwhole
  refine ⟨twenty_le hp.header, hwhole, ?_⟩
  rw [← hp.size]
  exact ipLength_le v

/-- The offset and the length of the payload, once the data offset lies inside the packet. -/
theorem payload_take (hlen : length ≤ pkt.length) (h13 : ipHeaderLen v (pkt.take length) + 13 ≤ length) :
    payloadOffset pkt (ipHeaderLen v (pkt.take length)) =
        ipHeaderLen v (pkt.take length) + tcpHeaderLen v (pkt.take length) ∧
      payloadLen pkt length (ipHeaderLen v (pkt.take length)) = (tcpPayload v (pkt.take length)).length := by
  have hoff : payloadOffset pkt (ipHeaderLen v (pkt.take length)) =
      ipHeaderLen v (pkt.take length) + tcpHeaderLen v (pkt.take length) := by
    rw [payloadOffset, tcpHeaderLen, segment, octet_drop, octet_take (by omega)]
  refine ⟨hoff, ?_⟩
  rw [payloadLen, hoff, tcpPayload_eq, List.length_drop, List.length_take_of_le hlen]

theorem payload_slice (hlen : length ≤ pkt.length) :
    slice pkt (ipHeaderLen v (pkt.take length) + tcpHeaderLen v (pkt.take length))
    (tcpPayload v (pkt.take length)).length = tcpPayload v (pkt.take length) := by
  rw [tcpPayload_eq, List.length_drop, List.length_take_of_le hlen]
  by_cases h : ipHeaderLen v (pkt.take length) + tcpHeaderLen v (pkt.take length) ≤ length
  · rw [← slice_take (k := length) (by omega), slice, List.take_of_length_le]
    rw [List.length_drop, List.length_take_of_le hlen]
  · rw [Nat.sub_eq_zero_of_le (by omega), List.drop_eq_nil_of_le (by rw [List.length_take_of_le hlen]; omega)]
    rfl

end Take

/-! ### What is split -/

section Split

variable {config : BypassConfig} {random : Random} {v : IpVersion} {pkt : Bytes} {length : ℕ}

/-- Octets left behind the packet in its array never make it split. -/
theorem TcpSplit.inside {h : ℕ} {p1 p2 : Bytes} (hlen : length ≤ pkt.length)
    (hs : TcpSplit random config v pkt length h p1 p2) : h + 13 ≤ length := by
  by_contra hlt
  have hsize := hs.size
  have hoff := hs.offset
  have hport := hs.port
  have hhello := hs.hello
  -- no room for a header, so the payload starts at the ports
  have h0 : octet pkt (h + 12) / 16 = 0 := by
    simp only [payloadLen, payloadOffset] at hsize
    omega
  have hpo : payloadOffset pkt h = h := by rw [payloadOffset, h0, Nat.zero_mul, Nat.add_zero]
  rw [payloadLen, hpo] at hsize hhello
  rw [isTlsHandshake_iff (by omega) hsize] at hhello
  have hrec := hhello.recordLen.2
  rw [length_slice (by omega), slice_slice (by omega), slice_two (by omega), val_pair] at hrec
  rw [u16At_eq (by omega), slice_two (by omega)] at hport
  have hport' := Except.ok.inj hport
  rw [val_pair] at hport'
  have hb := (pkt[h + 2 + 1]).toNat_lt
  have hsame : pkt[h + 2 + 1] = pkt[h + 3] := rfl
  rw [hsame] at hport' hb
  omega

theorem fragment2_built (hmin : minHeaderLen v ≤ ipHeaderLen v pkt) {o n m : ℕ}
    (ho : ipHeaderLen v pkt ≤ o) (h18 : ipHeaderLen v pkt + 18 ≤ o + m) (hpkt : o + n + m ≤ pkt.length)
    (hmax : o + m ≤ maxLength v) : ∃ r, fragment2 v pkt (ipHeaderLen v pkt) o n m = pure r := by
  have h20 := twenty_le hmin
  have hbody : (pkt.take o ++ slice pkt (o + n) m).length = o + m := by
    rw [List.length_append, List.length_take_of_le (by omega), length_slice hpkt]
  rw [fragment2_eq (by omega) hpkt]
  set q := patch (pkt.take o ++ slice pkt (o + n) m) (ipHeaderLen v pkt + 4)
    (be 4 ((val (slice (pkt.take o ++ slice pkt (o + n) m) (ipHeaderLen v pkt + 4) 4) + n) % 2 ^ 32)) with hq
  have hlenq : q.length = o + m := by rw [hq, length_patch (by rw [length_be]; omega), hbody]
  have h0 : q[0]? = pkt[0]? := by
    rw [hq, getElem?_patch (by rw [length_be]; omega) (by rw [length_be]; omega),
      List.getElem?_append_left (by rw [List.length_take_of_le (by omega)]; omega),
      List.getElem?_take_of_lt (by omega)]
  have hhq : ipHeaderLen v q = ipHeaderLen v pkt := ipHeaderLen_congr h0
  obtain ⟨r, hr, -⟩ := finishFragment_spec (v := v) (q := q) (by rw [hhq]; exact hmin) (by omega) (by omega)
  rw [hhq, hlenq] at hr
  exact ⟨r, hr⟩

/-- **What is split is what reads as a ClientHello.** -/
theorem tcpSplit_iff (hlen : length ≤ pkt.length) (hp : ValidIp v (pkt.take length)) :
    (∃ p1 p2, TcpSplit random config v pkt length (ipHeaderLen v (pkt.take length)) p1 p2) ↔
      ReadsAsHello v (pkt.take length) random config := by
  obtain ⟨h20, hwhole, hmax⟩ := hp.bounds hlen
  have hmin := hp.header
  have hseg := length_segment_take (v := v) hlen
  have hslice := payload_slice (v := v) hlen
  have hpay : (tcpPayload v (pkt.take length)).length =
      length - (ipHeaderLen v (pkt.take length) + tcpHeaderLen v (pkt.take length)) := by
    rw [tcpPayload_eq, List.length_drop, List.length_take_of_le hlen]
  rw [List.length_take_of_le hlen] at hmax
  constructor
  · rintro ⟨p1, p2, hs⟩
    have h13 := hs.inside hlen
    obtain ⟨hoff, hplen⟩ := payload_take hlen h13
    have hsize := hs.size
    have hhello := hs.hello
    have hfirst := (fragment1_length hs.first).2
    have hsecond := (fragment2_length hs.second).2
    have hport := hs.port
    rw [cutAt, hplen, hoff] at hfirst hsecond
    rw [hplen] at hsize
    rw [hoff, hplen, isTlsHandshake_iff (by omega) hsize, hslice] at hhello
    rw [u16At_eq (by omega), ← destinationPort_take (by omega)] at hport
    exact ⟨by omega, Except.ok.inj hport, hhello, by omega, by omega⟩
  · intro hr
    have h13 := hr.size
    rw [hseg] at h13
    obtain ⟨hoff, hplen⟩ := payload_take hlen (show ipHeaderLen v (pkt.take length) + 13 ≤ length by omega)
    have hsize := hr.hello.size
    have hfirst := hr.first
    have hsecond := hr.second
    obtain ⟨hpos, hlt⟩ := frag1PayloadLen_bounds config random
      (show 2 ≤ (tcpPayload v (pkt.take length)).length by omega)
    obtain ⟨p1, h1, -⟩ := fragment1_spec hmin (by rw [List.length_take_of_le hlen]; exact hmax)
      (o := ipHeaderLen v (pkt.take length) + tcpHeaderLen v (pkt.take length))
      (n := frag1PayloadLen config random (tcpPayload v (pkt.take length)).length) (by omega)
      (by rw [List.length_take_of_le hlen]; omega) hlen rfl
    have hhdr : ipHeaderLen v (pkt.take length) = ipHeaderLen v pkt :=
      ipHeaderLen_congr (List.getElem?_take_of_lt (by omega))
    obtain ⟨p2, h2⟩ := fragment2_built (show minHeaderLen v ≤ ipHeaderLen v pkt by rw [← hhdr]; exact hmin)
      (o := ipHeaderLen v (pkt.take length) + tcpHeaderLen v (pkt.take length))
      (n := frag1PayloadLen config random (tcpPayload v (pkt.take length)).length)
      (m := (tcpPayload v (pkt.take length)).length -
        frag1PayloadLen config random (tcpPayload v (pkt.take length)).length)
      (by omega) (by omega) (by omega) (by omega)
    rw [← hhdr] at h2
    refine ⟨p1, p2, ?_, by omega, by omega, ?_, ?_, ?_⟩
    · rw [u16At_eq (by omega), ← destinationPort_take (by omega), hr.port]
    · rw [hoff, hplen, isTlsHandshake_iff (by omega) hsize, hslice]
      exact hr.hello
    · rw [hoff, cutAt, hplen, h1]
    · rw [hoff, cutAt, hplen, h2]

end Split

/-! ### What is passed on -/

/-- The packet is written as it is, alone, and the resolver is not consulted. -/
structure PassedUnchanged (env : PacketEnv) (config : BypassConfig) (pkt : Bytes) (length : ℕ) : Prop where
  written : (processPacket env pkt length config).outcome [] = (pure true, [pkt.take length])
  unasked : consultedHost pkt length config = none

section Passed

variable {env : PacketEnv} {config : BypassConfig} {v : IpVersion} {pkt : Bytes} {length : ℕ}

theorem fragmentOrder_ne (p1 p2 q : Bytes) : fragmentOrder config p1 p2 ≠ [q] := by
  unfold fragmentOrder
  split_ifs <;> simp

/-- Outside the policy, only a later fragment can read as a datagram that is taken. -/
theorem misread_udp_iff (hout : OutsidePolicy v (pkt.take length)) {random : Random}
    (hproto : ipProtocol v (pkt.take length) = 17) :
    Misread v (pkt.take length) random config ↔ ReadsAsUdp v (pkt.take length) config := by
  constructor
  · rintro (⟨-, -, hr⟩ | ⟨h6, -⟩)
    · exact hr
    · omega
  · intro hr
    refine .inl ⟨hproto, fun hfirst => ?_, hr⟩
    rcases hr.2 with hport | ⟨-, -, hport⟩
    · exact hout.quic ⟨hproto, hfirst, hr.1, hport⟩
    · exact hout.dns ⟨hproto, hfirst, hr.1, hport⟩

theorem misread_tcp_iff (hout : OutsidePolicy v (pkt.take length)) {random : Random}
    (hproto : ipProtocol v (pkt.take length) = 6) :
    Misread v (pkt.take length) random config ↔ ReadsAsHello v (pkt.take length) random config := by
  constructor
  · rintro (⟨h17, -⟩ | ⟨-, -, hr⟩)
    · omega
    · exact hr
  · intro hr
    refine .inr ⟨hproto, ?_, hr⟩
    by_contra hgenuine
    rw [not_or, not_not, Nat.not_lt] at hgenuine
    exact hout.tls ⟨hproto, hgenuine.1, hr.port, hgenuine.2, hr.hello⟩

/-- **Packets outside the policy pass unchanged exactly when they are not misread.** -/
theorem processPacket_passes_iff (env : PacketEnv) (config : BypassConfig) (v : IpVersion) (pkt : Bytes)
    (length : ℕ) (hlen : length ≤ pkt.length) (hp : ValidIp v (pkt.take length))
    (hout : OutsidePolicy v (pkt.take length)) :
    PassedUnchanged env config pkt length ↔ ¬ Misread v (pkt.take length) env.random config := by
  obtain ⟨h20, hwhole, -⟩ := hp.bounds hlen
  have hmin : minHeaderLen v ≤ length := le_trans hp.header hwhole
  obtain ⟨hver, hhdr, hproto⟩ := header_take (v := v) (p := pkt) hmin
  have hver' : ipVersionField pkt = versionNumber v := hver ▸ hp.version
  have hhost := consultedHost_eq config hmin hver'
  have hrun : ∀ {out'}, (handle env pkt length config v (ipProtocol v pkt)).outcome [] = (pure true, out') →
      (processPacket env pkt length config).outcome [] =
        (pure true, out') := outcome_processPacket hmin hlen hver'
  unfold handle at hrun
  by_cases hudp : ipProtocol v pkt = 17
  · rw [if_pos hudp] at hhost hrun
    rw [misread_udp_iff hout (by rw [hproto, hudp]), ← udpTaken_iff hlen, hhdr]
    obtain ⟨hno, h⟩ | ⟨htaken, h⟩ | ⟨htaken, hdns, host, r, h, hsyn⟩ :=
      handleUdp_cases env config v (ipHeaderLen v pkt) hlen []
    · refine iff_of_true ⟨hrun h, ?_⟩ hno
      rw [hhost, Option.eq_none_iff_forall_ne_some]
      intro host hq
      have hi := intercepted_of_host hlen hq
      exact hno ⟨by have := hi.2.1; omega, .inr hi⟩
    · refine iff_of_false (fun hpass => ?_) (not_not.mpr htaken)
      have hw := hpass.written
      rw [hrun h] at hw
      cases hw
    · refine iff_of_false (fun hpass => ?_) (not_not.mpr ⟨by have := htaken.2.1; omega, .inr htaken⟩)
      have hu := hpass.unasked
      rw [hhost, interceptedHost_of_synthesised hlen htaken hdns hsyn] at hu
      cases hu
  rw [if_neg hudp] at hhost hrun
  by_cases htcp : ipProtocol v pkt = 6
  · rw [if_pos htcp] at hrun
    rw [misread_tcp_iff hout (by rw [hproto, htcp]), ← tcpSplit_iff hlen hp, hhdr]
    obtain ⟨e, h⟩ | h | ⟨p1, p2, hs⟩ := handleTcp_cases env config v (ipHeaderLen v pkt) hlen []
    · refine iff_of_true ⟨?_, hhost⟩ ?_
      · rw [processPacket_eq hmin hlen hver', handle, if_neg hudp, if_pos htcp]
        exact outcome_catchAll hlen h
      · rintro ⟨p1, p2, hs⟩
        rw [hs.outcome] at h
        cases h
    · refine iff_of_true ⟨hrun h, hhost⟩ ?_
      rintro ⟨p1, p2, hs⟩
      rw [hs.outcome, List.nil_append] at h
      exact fragmentOrder_ne _ _ _ (congrArg Prod.snd h)
    · refine iff_of_false (fun hpass => ?_) (not_not.mpr ⟨p1, p2, hs⟩)
      have hw := hpass.written
      rw [hrun (hs.outcome [])] at hw
      exact fragmentOrder_ne _ _ _ (congrArg Prod.snd hw)
  · rw [if_neg htcp] at hrun
    refine iff_of_true ⟨hrun (outcome_passOn hlen []), hhost⟩ ?_
    rintro (⟨h17, -⟩ | ⟨h6, -⟩)
    · omega
    · omega

end Passed

/-- A last fragment of a datagram, whose payload reads as ports 0 and 443. -/
def laterFragment : Bytes :=
  [0x45, 0, 0, 28, 0, 1, 0, 185, 64, 17, 0, 0, 10, 0, 0, 2, 8, 8, 8, 8, 0, 0, 0x01, 0xBB, 0, 0, 0, 0]

theorem laterFragment_valid : ValidIp .v4 laterFragment :=
  ⟨by decide, by decide, by decide, by decide⟩

theorem laterFragment_outside : OutsidePolicy .v4 laterFragment where
  quic h := absurd h.first (by decide)
  dns h := absurd h.first (by decide)
  tls h := absurd h.first (by decide)

theorem processPacket_passes_iff_laterFragment :
    PassedUnchanged oneAddress (loadPreset "minimal") laterFragment 28 ↔
      ¬ Misread .v4 laterFragment lowRandom (loadPreset "minimal") :=
  processPacket_passes_iff oneAddress (loadPreset "minimal") .v4 laterFragment 28
    (by decide) laterFragment_valid
    laterFragment_outside

/-- The fragment is dropped as QUIC. -/
theorem laterFragment_dropped :
    ValidIp .v4 laterFragment ∧ OutsidePolicy .v4 laterFragment ∧
      (processPacket oneAddress laterFragment 28 (loadPreset "minimal")).outcome [] = (pure true, []) ∧
      ¬ PassedUnchanged oneAddress (loadPreset "minimal") laterFragment 28 := by
  have hrun : (processPacket oneAddress laterFragment 28 (loadPreset "minimal")).outcome [] =
      (pure true, []) := by rfl
  refine ⟨laterFragment_valid, laterFragment_outside, hrun, fun h => ?_⟩
  have hw := h.written
  rw [hrun] at hw
  cases hw

end BypassVpn
