import BypassVpn.Packet.Processor

/-!
# What a packet can lead to

Whatever the bytes, a handler either raises before its first write or completes.

* Array operations that succeed keep lengths: `finishFragment_length`, `fragment1_length`,
  `fragment2_length`.
* `TcpSplit`: a completed split; `handleTcp_cases`.
* `Synthesised`: a completed answer; `tryIntercept_cases`, `handleUdp_cases`.
* `Completed`: what `processPacket` may write; **`processPacket_completes`**.
-/

namespace BypassVpn

open Region OnesComplement

/-! ### Lengths -/

section Lengths

variable {α β : Type}

theorem bind_eq_pure {x : Except Exn α} {f : α → Except Exn β} {b : β} (h : x >>= f = pure b) :
    ∃ a, x = pure a ∧ f a = pure b := by
  cases x with
  | error e => cases h
  | ok a => exact ⟨a, rfl, h⟩

theorem aset_length {a r : Bytes} {i : ℕ} {b : UInt8} (h : aset a i b = pure r) :
    r.length = a.length ∧ i < a.length := by
  unfold aset at h
  split_ifs at h with hi
  · cases h
    exact ⟨List.length_set, hi⟩
  · cases h

theorem aset_aset_length {a r : Bytes} {i j : ℕ} {b c : UInt8}
    (h : (aset a i b >>= fun a => aset a j c) = pure r) : r.length = a.length ∧ j < a.length := by
  obtain ⟨a1, h1, h⟩ := bind_eq_pure h
  have hl1 := aset_length h1
  have hl2 := aset_length h
  omega

theorem arraycopy_length {src dst r : Bytes} {i j n : ℕ} (h : arraycopy src i dst j n = pure r) :
    r.length = dst.length := by
  unfold arraycopy at h
  split_ifs at h with hb
  · cases h
    exact length_patch (by rw [length_slice hb.1]; exact hb.2)
  · cases h

theorem length_copyOf (a : Bytes) (n : ℕ) : (copyOf a n).length = n := by
  simp only [copyOf, zeros, List.length_append, List.length_take, List.length_replicate]
  omega

theorem recalcIpv4HeaderChecksum_length {pkt r : Bytes} {h : ℕ}
    (hr : recalcIpv4HeaderChecksum pkt h = pure r) : r.length = pkt.length := by
  obtain ⟨q1, h1, hr⟩ := bind_eq_pure hr
  obtain ⟨q2, h2, hr⟩ := bind_eq_pure hr
  obtain ⟨cs, -, hr⟩ := bind_eq_pure hr
  have hl1 := aset_length h1
  have hl2 := aset_length h2
  have hl3 := aset_aset_length hr
  omega

/-- A segment routine that returns has found its checksum field inside the packet. -/
theorem recalcSegmentChecksum_length {pseudoOf : Bytes → ℕ → UInt8 → ℕ → Except Exn Bytes} {proto : UInt8}
    {field : ℕ} {final : ℕ → ℕ} {pkt r : Bytes} {h : ℕ}
    (hr : recalcSegmentChecksum pseudoOf proto field final pkt h = pure r) :
    r.length = pkt.length ∧ h + field + 1 < pkt.length := by
  obtain ⟨q1, h1, hr⟩ := bind_eq_pure hr
  obtain ⟨q2, h2, hr⟩ := bind_eq_pure hr
  obtain ⟨pseudo, -, hr⟩ := bind_eq_pure hr
  obtain ⟨cs, -, hr⟩ := bind_eq_pure hr
  have hl1 := aset_length h1
  have hl2 := aset_length h2
  have hl3 := aset_aset_length hr
  omega

theorem finishFragment_length {v : IpVersion} {pkt r : Bytes} {h len : ℕ}
    (hr : finishFragment v pkt h len = pure r) : r.length = pkt.length ∧ h + 18 ≤ pkt.length := by
  cases v with
  | v4 =>
    obtain ⟨q1, h1, hr⟩ := bind_eq_pure hr
    obtain ⟨q2, h2, hr⟩ := bind_eq_pure hr
    have hl1 := aset_aset_length h1
    have hl2 := recalcIpv4HeaderChecksum_length h2
    have hl3 := recalcSegmentChecksum_length hr
    omega
  | v6 =>
    obtain ⟨q1, h1, hr⟩ := bind_eq_pure hr
    have hl1 := aset_aset_length h1
    have hl2 := recalcSegmentChecksum_length hr
    omega

theorem fragment1_length {v : IpVersion} {pkt r : Bytes} {h o n : ℕ}
    (hr : fragment1 v pkt h o n = pure r) : r.length = o + n ∧ h + 18 ≤ o + n := by
  have hl := finishFragment_length hr
  rw [length_copyOf] at hl
  exact hl

theorem advanceTcpSeq_length {pkt r : Bytes} {h delta : ℕ} (hr : advanceTcpSeq pkt h delta = pure r) :
    r.length = pkt.length := by
  obtain ⟨b0, -, hr⟩ := bind_eq_pure hr
  obtain ⟨b1, -, hr⟩ := bind_eq_pure hr
  obtain ⟨b2, -, hr⟩ := bind_eq_pure hr
  obtain ⟨b3, -, hr⟩ := bind_eq_pure hr
  obtain ⟨q1, h1, hr⟩ := bind_eq_pure hr
  obtain ⟨q2, h2, hr⟩ := bind_eq_pure hr
  have hl1 := aset_length h1
  have hl2 := aset_length h2
  have hl3 := aset_aset_length hr
  omega

theorem fragment2_length {v : IpVersion} {pkt r : Bytes} {h o n m : ℕ}
    (hr : fragment2 v pkt h o n m = pure r) : r.length = o + m ∧ h + 18 ≤ o + m := by
  obtain ⟨q1, h1, hr⟩ := bind_eq_pure hr
  obtain ⟨q2, h2, hr⟩ := bind_eq_pure hr
  obtain ⟨q3, h3, hr⟩ := bind_eq_pure hr
  have hl0 : (zeros (o + m)).length = o + m := List.length_replicate
  have hl1 := arraycopy_length h1
  have hl2 := arraycopy_length h2
  have hl3 := advanceTcpSeq_length h3
  have hl4 := finishFragment_length hr
  omega

end Lengths

/-! ### TCP -/

section Tcp

variable (random : Random) (config : BypassConfig) (v : IpVersion) (pkt : Bytes) (length ipHdrLen : ℕ)

/-- Where `handleTcp` takes the payload to start. -/
def payloadOffset : ℕ := ipHdrLen + octet pkt (ipHdrLen + 12) / 16 * 4

/-- How much payload it takes the packet to have. -/
def payloadLen : ℕ := length - payloadOffset pkt ipHdrLen

/-- The length of the first part. -/
def cutAt : ℕ := frag1PayloadLen config random (payloadLen pkt length ipHdrLen)

/-- **A completed split**: the tests of `handleTcp` were passed and both fragments were built. -/
structure TcpSplit (p1 p2 : Bytes) : Prop where
  port : u16At pkt (ipHdrLen + 2) = pure 443
  offset : ipHdrLen + 12 < pkt.length
  size : 9 ≤ payloadLen pkt length ipHdrLen
  hello : isTlsHandshake pkt (payloadOffset pkt ipHdrLen) (payloadLen pkt length ipHdrLen) = pure true
  first : fragment1 v pkt ipHdrLen (payloadOffset pkt ipHdrLen)
    (cutAt random config pkt length ipHdrLen) = pure p1
  second : fragment2 v pkt ipHdrLen (payloadOffset pkt ipHdrLen) (cutAt random config pkt length ipHdrLen)
    (payloadLen pkt length ipHdrLen - cutAt random config pkt length ipHdrLen) = pure p2

/-- The order in which the fragments are written. -/
def fragmentOrder (p1 p2 : Bytes) : List Bytes :=
  if isSet config.disorderPosition then [p2, p1] else [p1, p2]

variable {random config v pkt length ipHdrLen}

theorem frag1PayloadLen_bounds (config : BypassConfig) (random : Random) {payloadLen : ℕ}
    (h : 2 ≤ payloadLen) :
    0 < frag1PayloadLen config random payloadLen ∧ frag1PayloadLen config random payloadLen < payloadLen := by
  simp only [frag1PayloadLen]
  omega

/-- The packet is written as it is. -/
def passOn (pkt : Bytes) (length : ℕ) : PacketM Bool := do
  write pkt length
  return true

theorem outcome_passOn (h : length ≤ pkt.length) (out : List Bytes) :
    (passOn pkt length).outcome out = (pure true, out ++ [pkt.take length]) := by
  rw [passOn, outcome_bind, outcome_write h]
  rfl

theorem outcome_write_fragments (p1 p2 : Bytes) (out : List Bytes) :
    (if isSet config.disorderPosition = true then do
        write p2 p2.length
        write p1 p1.length
        return true
      else do
        write p1 p1.length
        write p2 p2.length
        return true : PacketM Bool).outcome out = (pure true, out ++ fragmentOrder config p1 p2) := by
  unfold fragmentOrder
  split_ifs with hd
  · rw [outcome_write_bind, outcome_write_bind, outcome_pure, List.append_assoc]
    rfl
  · rw [outcome_write_bind, outcome_write_bind, outcome_pure, List.append_assoc]
    rfl

/-- The end of `handleTcp`: both fragments are built before the first is written. -/
def writeFragments (env : PacketEnv) (config : BypassConfig) (v : IpVersion) (pkt : Bytes)
    (length ipHdrLen : ℕ) : PacketM Bool := do
  let frag1Len := cutAt env.random config pkt length ipHdrLen
  let frag2Len := payloadLen pkt length ipHdrLen - frag1Len
  let pkt1 ← liftArray (fragment1 v pkt ipHdrLen (payloadOffset pkt ipHdrLen) frag1Len)
  let pkt2 ← liftArray (fragment2 v pkt ipHdrLen (payloadOffset pkt ipHdrLen) frag1Len frag2Len)
  if isSet config.disorderPosition then
    write pkt2 (payloadOffset pkt ipHdrLen + frag2Len)
    write pkt1 (payloadOffset pkt ipHdrLen + frag1Len)
  else
    write pkt1 (payloadOffset pkt ipHdrLen + frag1Len)
    write pkt2 (payloadOffset pkt ipHdrLen + frag2Len)
  return true

theorem handleTcp_eq (env : PacketEnv) : handleTcp env pkt length ipHdrLen config v =
    liftArray (u16At pkt (ipHdrLen + 2)) >>= fun dPort =>
      if dPort ≠ 443 then passOn pkt length
      else liftArray (aget pkt (ipHdrLen + 12)) >>= fun _ =>
        if payloadLen pkt length ipHdrLen < 9 then passOn pkt length
        else liftArray (isTlsHandshake pkt (payloadOffset pkt ipHdrLen) (payloadLen pkt length ipHdrLen)) >>=
          fun tls => if !tls then passOn pkt length
            else writeFragments env config v pkt length ipHdrLen := by
  unfold handleTcp
  apply liftArray_bind_congr
  intro dPort _
  by_cases hport : dPort ≠ 443
  · rw [if_pos hport, if_pos hport]
    rfl
  rw [if_neg hport, if_neg hport]
  apply liftArray_bind_congr
  intro b hb
  have hoff : b.toNat >>> 4 &&& 0x0F = octet pkt (ipHdrLen + 12) / 16 := by
    have hlt : ipHdrLen + 12 < pkt.length := by
      by_contra hge
      rw [aget, List.getElem?_eq_none (by omega)] at hb
      cases hb
    rw [aget_eq hlt] at hb
    cases hb
    rw [nibble_hi, octet_eq hlt]
  rw [hoff]
  change (if payloadLen pkt length ipHdrLen < 9 then _ else _) = _
  by_cases hsize : payloadLen pkt length ipHdrLen < 9
  · rw [if_pos hsize, if_pos hsize]
    rfl
  rw [if_neg hsize, if_neg hsize]
  apply liftArray_bind_congr
  intro tls _
  by_cases ht : (!tls) = true
  · rw [if_pos ht, if_pos ht]
    rfl
  rw [if_neg ht, if_neg ht]
  -- the cut leaves something for the second fragment
  have hcut := frag1PayloadLen_bounds config env.random (show 2 ≤ payloadLen pkt length ipHdrLen by omega)
  change (if payloadLen pkt length ipHdrLen - frag1PayloadLen config env.random
    (payloadLen pkt length ipHdrLen)
    ≤ 0 then _ else _) = _
  rw [if_neg (by omega)]
  rfl

theorem TcpSplit.outcome {p1 p2 : Bytes} {env : PacketEnv}
    (hs : TcpSplit env.random config v pkt length ipHdrLen p1 p2) (out : List Bytes) :
    (handleTcp env pkt length ipHdrLen config v).outcome out =
      (pure true, out ++ fragmentOrder config p1 p2) := by
  have hl1 := (fragment1_length hs.first).1
  have hl2 := (fragment2_length hs.second).1
  have hsize := hs.size
  rw [handleTcp_eq, hs.port, liftArray_pure_bind, if_neg (by omega), aget_eq hs.offset, liftArray_pure_bind,
    if_neg (by omega), hs.hello, liftArray_pure_bind]
  simp only [Bool.not_true, Bool.false_eq_true, if_false]
  rw [writeFragments, hs.first, liftArray_pure_bind, hs.second, liftArray_pure_bind, ← hl1, ← hl2]
  exact outcome_write_fragments p1 p2 out

/-- **`handleTcp` raises before its first write, passes the packet on, or completes a split.** -/
theorem handleTcp_cases (env : PacketEnv) (config : BypassConfig) (v : IpVersion) (ipHdrLen : ℕ)
    (hlen : length ≤ pkt.length) (out : List Bytes) :
    (∃ e, (handleTcp env pkt length ipHdrLen config v).outcome out = (throw e, out)) ∨
      (handleTcp env pkt length ipHdrLen config v).outcome out = (pure true, out ++ [pkt.take length]) ∨
      ∃ p1 p2, TcpSplit env.random config v pkt length ipHdrLen p1 p2 := by
  rw [handleTcp_eq, outcome_liftArray_bind]
  rcases hport : u16At pkt (ipHdrLen + 2) with e | dPort
  · exact .inl ⟨e, rfl⟩
  dsimp only
  by_cases h443 : dPort ≠ 443
  · rw [if_pos h443]
    exact .inr (.inl (outcome_passOn hlen out))
  rw [if_neg h443, outcome_liftArray_bind]
  rcases hoff : aget pkt (ipHdrLen + 12) with e | b
  · exact .inl ⟨e, rfl⟩
  dsimp only
  by_cases hsize : payloadLen pkt length ipHdrLen < 9
  · rw [if_pos hsize]
    exact .inr (.inl (outcome_passOn hlen out))
  rw [if_neg hsize, outcome_liftArray_bind]
  rcases htls : isTlsHandshake pkt (payloadOffset pkt ipHdrLen) (payloadLen pkt length ipHdrLen) with e | tls
  · exact .inl ⟨e, rfl⟩
  dsimp only
  by_cases ht : (!tls) = true
  · rw [if_pos ht]
    exact .inr (.inl (outcome_passOn hlen out))
  rw [if_neg ht, writeFragments, outcome_liftArray_bind]
  dsimp only
  rcases h1 : fragment1 v pkt ipHdrLen (payloadOffset pkt ipHdrLen)
    (cutAt env.random config pkt length ipHdrLen) with e | p1
  · exact .inl ⟨e, rfl⟩
  dsimp only
  rw [outcome_liftArray_bind]
  rcases h2 : fragment2 v pkt ipHdrLen (payloadOffset pkt ipHdrLen)
    (cutAt env.random config pkt length ipHdrLen)
    (payloadLen pkt length ipHdrLen - cutAt env.random config pkt length ipHdrLen) with e | p2
  · exact .inl ⟨e, rfl⟩
  right; right
  refine ⟨p1, p2, ?_, ?_, by omega, ?_, h1, h2⟩
  · rw [hport, not_not.mp h443]
    rfl
  · by_contra hge
    rw [aget, List.getElem?_eq_none (by omega)] at hoff
    cases hoff
  · rw [htls]
    simp only [Bool.not_eq_true', Bool.not_eq_false] at ht
    rw [ht]
    rfl

end Tcp

/-! ### UDP -/

section Udp

variable (config : BypassConfig) (v : IpVersion) (pkt : Bytes) (length ipHdrLen : ℕ)

/-- The tests of `tryIntercept` that decide whether it takes a datagram. -/
def Intercepted : Prop :=
  config.dnsInterceptEnabled = true ∧ ipHdrLen + 8 ≤ length ∧ val (slice pkt (ipHdrLen + 2) 2) = DNS_PORT

/-- The datagrams that `handleUdp` does not pass on. -/
def UdpTaken : Prop :=
  ipHdrLen + 4 ≤ length ∧
    (val (slice pkt (ipHdrLen + 2) 2) = 443 ∨ Intercepted config pkt length ipHdrLen)

/-- The length of the DNS message in a datagram. -/
def dnsLength : ℕ := min (val (slice pkt (ipHdrLen + 4) 2) - 8) (length - (ipHdrLen + 8))

/-- **A completed answer**: a parsed query, a message built for it and the packet around that. -/
def Synthesised (dnsOffset dnsLen : ℕ) (host : String) (r : Bytes) : Prop :=
  ∃ query qType n records dns, copyOfRange pkt dnsOffset (dnsOffset + dnsLen) = pure query ∧
    parseQuestion query = pure (some (host, qType, n)) ∧ buildDnsResponse query n records = pure dns ∧
    wrapAsDnsResponse pkt ipHdrLen dns v = pure r

theorem answerQuery_cases (resolver : Resolver) (o n : ℕ) (out : List Bytes) :
    (∃ e, (answerQuery resolver pkt ipHdrLen v o n).outcome out = (throw e, out)) ∨
      (answerQuery resolver pkt ipHdrLen v o n).outcome out = (pure true, out) ∨
      ∃ host r, (answerQuery resolver pkt ipHdrLen v o n).outcome out = (pure true, out ++ [r]) ∧
        Synthesised v pkt ipHdrLen o n host r := by
  rw [answerQuery, outcome_liftArray_bind]
  rcases hq : copyOfRange pkt o (o + n) with e | query
  · exact .inl ⟨e, rfl⟩
  dsimp only
  rw [outcome_liftArray_bind]
  rcases hp : parseQuestion query with e | parsed
  · exact .inl ⟨e, rfl⟩
  rcases parsed with _ | ⟨host, qType, len⟩
  · exact .inr (.inl rfl)
  dsimp only
  rw [outcome_liftArray_bind]
  generalize buildAnswerRecords _ qType = built
  rcases built with e | records
  · exact .inl ⟨e, rfl⟩
  dsimp only
  rw [outcome_liftArray_bind]
  rcases hd : buildDnsResponse query len records with e | dns
  · exact .inl ⟨e, rfl⟩
  dsimp only
  rw [outcome_liftArray_bind]
  rcases hr : wrapAsDnsResponse pkt ipHdrLen dns v with e | r
  · exact .inl ⟨e, rfl⟩
  dsimp only
  rw [outcome_write_bind]
  exact .inr (.inr ⟨host, r, rfl, query, qType, len, records, dns, hq, hp, hd, hr⟩)

/-- **`tryIntercept` never raises.** It leaves a datagram alone, drops it or answers it. -/
theorem tryIntercept_cases (resolver : Resolver) {length : ℕ} (hlen : length ≤ pkt.length)
    (out : List Bytes) :
    (¬ Intercepted config pkt length ipHdrLen ∧
        (tryIntercept resolver pkt length ipHdrLen v config).outcome out = (pure false, out)) ∨
      (Intercepted config pkt length ipHdrLen ∧
        (tryIntercept resolver pkt length ipHdrLen v config).outcome out = (pure true, out)) ∨
      (Intercepted config pkt length ipHdrLen ∧ 12 ≤ dnsLength pkt length ipHdrLen ∧ ∃ host r,
        (tryIntercept resolver pkt length ipHdrLen v config).outcome out = (pure true, out ++ [r]) ∧
        Synthesised v pkt ipHdrLen (ipHdrLen + 8) (dnsLength pkt length ipHdrLen) host r) := by
  unfold tryIntercept
  by_cases hen : config.dnsInterceptEnabled = true
  swap
  · rw [if_pos (by simpa using hen)]
    exact .inl ⟨fun h => hen h.1, rfl⟩
  rw [if_neg (by simpa using hen)]
  by_cases hsize : length < ipHdrLen + 8
  · rw [if_pos hsize]
    exact .inl ⟨fun h => absurd h.2.1 (by omega), rfl⟩
  rw [if_neg hsize, u16At_eq (by omega), liftArray_pure_bind]
  by_cases hport : val (slice pkt (ipHdrLen + 2) 2) ≠ DNS_PORT
  · rw [if_pos hport]
    exact .inl ⟨fun h => hport h.2.2, rfl⟩
  have htaken : Intercepted config pkt length ipHdrLen := ⟨hen, by omega, not_not.mp hport⟩
  rw [if_neg hport, u16At_eq (by omega), liftArray_pure_bind]
  dsimp only
  by_cases hshort : min (val (slice pkt (ipHdrLen + 4) 2) - 8) (length - (ipHdrLen + 8)) < 12
  · rw [if_pos hshort]
    exact .inr (.inl ⟨htaken, rfl⟩)
  rw [if_neg hshort, outcome_tryCatch, ← dnsLength]
  rw [← dnsLength] at hshort
  obtain ⟨e, h⟩ | h | ⟨host, r, h, hsyn⟩ := answerQuery_cases v pkt ipHdrLen resolver (ipHdrLen + 8)
    (dnsLength pkt length ipHdrLen) out
  · rw [h]
    exact .inr (.inl ⟨htaken, rfl⟩)
  · rw [h]
    exact .inr (.inl ⟨htaken, rfl⟩)
  · rw [h]
    exact .inr (.inr ⟨htaken, by omega, host, r, rfl, hsyn⟩)

variable {config v pkt length ipHdrLen}

/-- **`handleUdp` never raises.** A datagram it does not take is passed on. -/
theorem handleUdp_cases (env : PacketEnv) (config : BypassConfig) (v : IpVersion) (ipHdrLen : ℕ)
    (hlen : length ≤ pkt.length) (out : List Bytes) :
    (¬ UdpTaken config pkt length ipHdrLen ∧
        (handleUdp env pkt length ipHdrLen config v).outcome out = (pure true, out ++ [pkt.take length])) ∨
      (UdpTaken config pkt length ipHdrLen ∧
        (handleUdp env pkt length ipHdrLen config v).outcome out = (pure true, out)) ∨
      (Intercepted config pkt length ipHdrLen ∧ 12 ≤ dnsLength pkt length ipHdrLen ∧ ∃ host r,
        (handleUdp env pkt length ipHdrLen config v).outcome out = (pure true, out ++ [r]) ∧
        Synthesised v pkt ipHdrLen (ipHdrLen + 8) (dnsLength pkt length ipHdrLen) host r) := by
  unfold handleUdp
  by_cases hsize : length < ipHdrLen + 4
  · rw [if_pos hsize]
    exact .inl ⟨fun h => absurd h.1 (by omega), outcome_passOn hlen out⟩
  rw [if_neg hsize, outcome_bind]
  obtain ⟨hno, h⟩ | ⟨htaken, h⟩ | ⟨htaken, hdns, host, r, h, hsyn⟩ :=
    tryIntercept_cases config v pkt ipHdrLen env.resolver hlen out
  · rw [h]
    by_cases hquic : val (slice pkt (ipHdrLen + 2) 2) = 443
    · refine .inr (.inl ⟨⟨by omega, .inl hquic⟩, ?_⟩)
      change PacketM.outcome (liftArray (u16At pkt (ipHdrLen + 2)) >>= _) out = _
      rw [u16At_eq (by omega), liftArray_pure_bind, if_pos hquic]
      rfl
    · refine .inl ⟨fun h => h.2.elim hquic hno, ?_⟩
      change PacketM.outcome (liftArray (u16At pkt (ipHdrLen + 2)) >>= _) out = _
      rw [u16At_eq (by omega), liftArray_pure_bind, if_neg hquic]
      exact outcome_passOn hlen out
  · rw [h]
    exact .inr (.inl ⟨⟨by omega, .inr htaken⟩, rfl⟩)
  · rw [h]
    exact .inr (.inr ⟨htaken, hdns, host, r, rfl, hsyn⟩)

end Udp

/-! ### The whole packet -/

/-- What the code takes for the handler of a packet. -/
structure Classified (v : IpVersion) (proto : ℕ) (p : Bytes) : Prop where
  version : ipVersionField p = versionNumber v
  protocol : ipProtocol v p = proto

/-- **The writes of a completed packet.** -/
inductive Completed (env : PacketEnv) (config : BypassConfig) (p : Bytes) : List Bytes → Prop
  | dropped (v : IpVersion) (hp : Classified v 17 p)
      (hport : destinationPort v p = 443 ∨ destinationPort v p = 53) : Completed env config p []
  | passed : Completed env config p [p]
  | answered (v : IpVersion) (hp : Classified v 17 p) (hport : destinationPort v p = 53) (host : String)
      (r : Bytes) (hr : Synthesised v p (ipHeaderLen v p) (ipHeaderLen v p + 8)
        (dnsLength p p.length (ipHeaderLen v p)) host r) : Completed env config p [r]
  | split (v : IpVersion) (hp : Classified v 6 p) (hport : destinationPort v p = 443) (p1 p2 : Bytes)
      (hs : TcpSplit env.random config v p p.length (ipHeaderLen v p) p1 p2) :
      Completed env config p (fragmentOrder config p1 p2)

section Whole

variable {env : PacketEnv} {config : BypassConfig} {v : IpVersion} {pkt : Bytes} {length : ℕ}

/-- The catch-all turns an exception before the first write into the packet itself. -/
theorem outcome_catchAll {m : PacketM Bool} (hlen : length ≤ pkt.length) {out : List Bytes} {e : Exn}
    (h : m.outcome out = (throw e, out)) :
    (tryCatch m fun _ => do
      tryCatch (write pkt length) fun _ => pure ()
      return true).outcome out = (pure true, out ++ [pkt.take length]) := by
  rw [outcome_tryCatch, h]
  change PacketM.outcome (tryCatch (write pkt length) (fun _ => pure ()) >>= fun _ => pure true) out = _
  rw [outcome_bind, outcome_tryCatch, outcome_write hlen]
  rfl

theorem not_raised {m : PacketM Bool} {out out' : List Bytes} {b : Bool}
    (h : m.outcome out = (pure b, out')) :
    (tryCatch m fun _ => do
      tryCatch (write pkt length) fun _ => pure ()
      return true).outcome out = (pure b, out') := by
  rw [outcome_tryCatch, h]
  rfl

theorem processPacket_unhandled (hlen : length ≤ pkt.length)
    (h : ∀ v, minHeaderLen v ≤ length → ipVersionField pkt ≠ versionNumber v) (out : List Bytes) :
    (processPacket env pkt length config).outcome out = (pure true, out ++ [pkt.take length]) := by
  unfold processPacket
  by_cases h20 : length < 20
  · rw [if_pos h20]
    exact outcome_passOn hlen out
  have h4 := h .v4 (by simp only [minHeaderLen]; omega)
  have h6 := h .v6
  rw [if_neg h20, aget_eq (by omega), liftArray_pure_bind, nibble_hi, ← octet_eq]
  apply not_raised
  unfold dispatch
  change ipVersionField pkt ≠ 4 at h4
  change (if ipVersionField pkt = 4 then _ else if ipVersionField pkt =
    6 then _ else _ : PacketM Bool).outcome out = _
  rw [if_neg h4]
  by_cases hv6 : ipVersionField pkt = 6
  · have hshort : length < 40 := by
      by_contra hge
      exact h6 (by simp only [minHeaderLen]; omega) hv6
    rw [if_pos hv6, if_pos (by simp only [IPV6_HEADER_LEN]; omega)]
    exact outcome_passOn hlen out
  · rw [if_neg hv6]
    exact outcome_passOn hlen out

theorem destinationPort_eq (p : Bytes) : destinationPort v p = val (slice p (ipHeaderLen v p + 2) 2) := by
  rw [destinationPort, segment, slice_drop]

/-- **Every packet completes.** `processPacket` returns normally, and what it has written is nothing,
the packet, one answer or both fragments; an exception inside `handleTcp` comes before any write. -/
theorem processPacket_completes (env : PacketEnv) (config : BypassConfig) (p : Bytes) :
    (∃ written, (processPacket env p p.length config).outcome [] = (pure true, written) ∧
      Completed env config p written) ∧
    ∀ v ipHdrLen e out', (handleTcp env p p.length ipHdrLen config v).outcome [] = (throw e, out') →
      out' = [] := by
  constructor
  · have hpass : ∀ h : (processPacket env p p.length config).outcome [] =
      (pure true, [] ++ [p.take p.length]),
        ∃ written, (processPacket env p p.length config).outcome [] = (pure true, written) ∧
          Completed env config p written := fun h =>
      ⟨[p], by rw [h, List.take_length]; rfl, .passed⟩
    by_cases hno : ∀ v, minHeaderLen v ≤ p.length → ipVersionField p ≠ versionNumber v
    · exact hpass (processPacket_unhandled le_rfl hno [])
    push Not at hno
    obtain ⟨v, hmin, hver⟩ := hno
    rw [processPacket_eq hmin le_rfl hver] at hpass ⊢
    unfold handle at hpass ⊢
    by_cases hudp : ipProtocol v p = 17
    · rw [if_pos hudp] at hpass ⊢
      obtain ⟨-, h⟩ | ⟨htaken, h⟩ | ⟨htaken, -, host, r, h, hsyn⟩ :=
        handleUdp_cases env config v (ipHeaderLen v p) (le_refl p.length) []
      · exact hpass (not_raised h)
      · refine ⟨[], not_raised h, .dropped v ⟨hver, hudp⟩ ?_⟩
        rw [destinationPort_eq]
        exact htaken.2.imp_right fun h => h.2.2
      · refine ⟨[r], not_raised h, .answered v ⟨hver, hudp⟩ ?_ host r hsyn⟩
        rw [destinationPort_eq]
        exact htaken.2.2
    rw [if_neg hudp] at hpass ⊢
    by_cases htcp : ipProtocol v p = 6
    · rw [if_pos htcp] at hpass ⊢
      obtain ⟨e, h⟩ | h | ⟨p1, p2, hs⟩ :=
        handleTcp_cases env config v (ipHeaderLen v p) (le_refl p.length) []
      · exact hpass (outcome_catchAll le_rfl h)
      · exact hpass (not_raised h)
      · refine ⟨_, not_raised (hs.outcome []), .split v ⟨hver, htcp⟩ ?_ p1 p2 hs⟩
        have hport := hs.port
        have hoff := hs.offset
        rw [u16At_eq (by omega)] at hport
        rw [destinationPort_eq]
        exact Except.ok.inj hport
    · rw [if_neg htcp] at hpass ⊢
      exact hpass (not_raised (outcome_passOn le_rfl []))
  · intro v ipHdrLen e out' h
    obtain ⟨e', h'⟩ | h' | ⟨p1, p2, hs⟩ :=
      handleTcp_cases env config v ipHdrLen (le_refl p.length) []
    · rw [h'] at h
      cases h
      rfl
    · rw [h'] at h
      cases h
    · rw [hs.outcome] at h
      cases h

end Whole

end BypassVpn
