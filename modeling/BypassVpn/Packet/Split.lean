import BypassVpn.Packet.Outcomes

/-!
# Splitting a ClientHello preserves the TCP stream

* `ClientHelloRecord`, `ClientHelloPacket`: the packets the splitter acts on.
* `SoundTcp`: a TCP packet whose length field and checksums a receiver accepts; `SplitOf`: what the
  two fragments of a packet must be.
* `rewritten`: the octets `finishFragment` may change; `Finished`, `finishFragment_spec`: what it does.
* `fragment1_spec`, `fragment2_spec`, and **`processPacket_split`**.
-/

namespace BypassVpn

open Region OnesComplement

/-! ### The packets -/

/-- A payload that starts with a TLS record holding a ClientHello, cut off nowhere. -/
structure ClientHelloRecord (payload : Bytes) : Prop where
  size : 9 ≤ payload.length
  contentType : octet payload 0 = 0x16
  versionMajor : octet payload 1 = 0x03
  versionMinor : 0x01 ≤ octet payload 2 ∧ octet payload 2 ≤ 0x04
  recordLen : 0 < val (slice payload 3 2) ∧ val (slice payload 3 2) ≤ payload.length - 5
  handshakeType : octet payload 5 = 0x01

/-- A well-formed TCP packet to port 443 that carries a ClientHello. -/
structure ClientHelloPacket (v : IpVersion) (p : Bytes) : Prop where
  version : ipVersionField p = versionNumber v
  header : minHeaderLen v ≤ ipHeaderLen v p
  whole : unfragmented v p
  protocol : ipProtocol v p = 6
  size : ipLength v p = p.length
  port : destinationPort v p = 443
  offset : 20 ≤ tcpHeaderLen v p
  /-- `URG`, `RST`, `SYN` and `FIN` are clear. -/
  flags : tcpFlags v p &&& 0x27 = 0
  hello : ClientHelloRecord (tcpPayload v p)

/-- A well-formed TCP segment to port 443 that carries a ClientHello, whatever its control bits. -/
structure HelloSegment (v : IpVersion) (p : Bytes) : Prop where
  version : ipVersionField p = versionNumber v
  header : minHeaderLen v ≤ ipHeaderLen v p
  protocol : ipProtocol v p = 6
  size : ipLength v p = p.length
  port : destinationPort v p = 443
  offset : 20 ≤ tcpHeaderLen v p
  hello : ClientHelloRecord (tcpPayload v p)

theorem ClientHelloPacket.segment {v : IpVersion} {p : Bytes} (hp : ClientHelloPacket v p) :
    HelloSegment v p :=
  ⟨hp.version, hp.header, hp.protocol, hp.size, hp.port, hp.offset, hp.hello⟩

/-- The length field and the checksums of a TCP packet are right. -/
structure SoundTcp (v : IpVersion) (p : Bytes) : Prop where
  size : ipLength v p = p.length
  header : ipHeaderVerifies v p
  segment : segmentVerifies v p 6

/-- The octets of a header of `h` octets and its TCP segment that a fragment has of its own: the IP
length, the IP header checksum and the TCP checksum. -/
def rewritten (v : IpVersion) (h i : ℕ) : Prop :=
  (match v with
    | .v4 => i = 2 ∨ i = 3 ∨ i = 10 ∨ i = 11
    | .v6 => i = 4 ∨ i = 5) ∨ i = h + 16 ∨ i = h + 17

/-- **The two fragments carry the stream of `p`.** -/
structure SplitOf (v : IpVersion) (p p1 p2 : Bytes) : Prop where
  payload : tcpPayload v p1 ++ tcpPayload v p2 = tcpPayload v p
  nonempty₁ : tcpPayload v p1 ≠ []
  nonempty₂ : tcpPayload v p2 ≠ []
  seq₁ : tcpSeq v p1 = tcpSeq v p
  seq₂ : tcpSeq v p2 = (tcpSeq v p1 + (tcpPayload v p1).length) % 2 ^ 32
  sound₁ : SoundTcp v p1
  sound₂ : SoundTcp v p2
  /-- Every other octet of the headers is that of `p`. -/
  frame₁ : ∀ i < ipHeaderLen v p + tcpHeaderLen v p,
    ¬ rewritten v (ipHeaderLen v p) i → p1[i]? = p[i]?
  frame₂ : ∀ i < ipHeaderLen v p + tcpHeaderLen v p, ¬ rewritten v (ipHeaderLen v p) i →
    ¬ (ipHeaderLen v p + 4 ≤ i ∧ i < ipHeaderLen v p + 8) → p2[i]? = p[i]?

/-! ### Finishing a fragment -/

/-- What `finishFragment` makes of a packet. -/
structure Finished (v : IpVersion) (q r : Bytes) : Prop where
  length_eq : r.length = q.length
  frame : ∀ i, ¬ rewritten v (ipHeaderLen v q) i → r[i]? = q[i]?
  sound : SoundTcp v r

theorem finishFragment_eq (v : IpVersion) (pkt : Bytes) (h len : ℕ) :
    finishFragment v pkt h len =
      setIpLength v pkt len >>= fun pkt => recalcChecksums v 6 16 id pkt h := by
  cases v <;> rfl

theorem rewritten_iff {v : IpVersion} {h i : ℕ} :
    rewritten v h i ↔ lengthOctet v i ∨ checksumOctet v h 16 i := by
  cases v <;> simp [rewritten, lengthOctet, checksumOctet, or_assoc]

/-- **Finishing a fragment makes it sound** and changes nothing but the rewritten octets. -/
theorem finishFragment_spec {v : IpVersion} {q : Bytes} (hmin : minHeaderLen v ≤ ipHeaderLen v q)
    (hseg : ipHeaderLen v q + 18 ≤ q.length) (hmax : q.length ≤ maxLength v) :
    ∃ r, finishFragment v q (ipHeaderLen v q) q.length = pure r ∧ Finished v q r := by
  obtain ⟨q1, hset, hlen1, hframe1, hip1⟩ := setIpLength_spec (v := v) (q := q) (n := q.length) (by omega)
    (by omega)
  have hh : ipHeaderLen v q1 = ipHeaderLen v q :=
    ipHeaderLen_congr (hframe1 0 (by cases v <;> simp [lengthOctet]))
  obtain ⟨r, hrun, hr, -⟩ := recalcChecksums_spec (v := v) (q := q1) 6 16 id (.inl rfl) rfl
    (by rw [hh]; exact hmin) (by omega)
  refine ⟨r, ?_, ?_, fun i hi => ?_, ?_, hr.header, hr.segment⟩
  · rw [finishFragment_eq, hset, pure_bind, ← hh, hrun]
  · rw [hr.length_eq, hlen1]
  · rw [rewritten_iff, not_or] at hi
    rw [hr.frame i (by rw [hh]; exact hi.2), hframe1 i hi.1]
  · rw [ipLength_congr fun i hi => hr.frame i ?_, hip1 hmax, hr.length_eq, hlen1]
    rw [hh]
    cases v <;> simp only [lengthOctet, minHeaderLen, checksumOctet] at * <;> omega

theorem not_rewritten_zero (v : IpVersion) (h : ℕ) : ¬ rewritten v h 0 := by
  cases v <;> simp [rewritten]

theorem not_rewritten_segment {v : IpVersion} {h i : ℕ} (hmin : minHeaderLen v ≤ h) (hi : h ≤ i)
    (hcs : i ≠ h + 16 ∧ i ≠ h + 17) : ¬ rewritten v h i := by
  cases v <;> simp only [minHeaderLen] at hmin <;> simp only [rewritten] <;> omega

section Finished

variable {v : IpVersion} {q r : Bytes} (hf : Finished v q r) (hmin : minHeaderLen v ≤ ipHeaderLen v q)
include hf

theorem Finished.ipHeaderLen_eq : ipHeaderLen v r = ipHeaderLen v q :=
  ipHeaderLen_congr (hf.frame 0 (not_rewritten_zero v _))

include hmin

theorem Finished.tcpHeaderLen_eq : tcpHeaderLen v r = tcpHeaderLen v q :=
  tcpHeaderLen_congr hf.ipHeaderLen_eq
    (hf.frame _ (not_rewritten_segment hmin (by omega) (by omega)))

theorem Finished.tcpPayload_eq (hoff : 20 ≤ tcpHeaderLen v q) : tcpPayload v r = tcpPayload v q := by
  rw [BypassVpn.tcpPayload_eq, BypassVpn.tcpPayload_eq, hf.ipHeaderLen_eq, hf.tcpHeaderLen_eq hmin]
  refine drop_congr fun i hi => hf.frame i (not_rewritten_segment hmin ?_ ?_) <;> omega

theorem Finished.tcpSeq_eq : tcpSeq v r = tcpSeq v q := by
  rw [BypassVpn.tcpSeq_eq, BypassVpn.tcpSeq_eq, hf.ipHeaderLen_eq]
  refine congrArg val (slice_congr fun i hi hi' => hf.frame i (not_rewritten_segment hmin ?_ ?_)) <;> omega

end Finished

/-! ### The two fragments -/

/-- **The first fragment** is a finished prefix of the packet. -/
theorem fragment1_spec {v : IpVersion} {p : Bytes} (hmin : minHeaderLen v ≤ ipHeaderLen v p)
    (hmax : p.length ≤ maxLength v) {o n : ℕ} (ho : ipHeaderLen v p + 18 ≤ o + n) (hn : o + n ≤ p.length)
    {pkt : Bytes} {length : ℕ} (hlen : length ≤ pkt.length) (hpkt : p = pkt.take length) :
    ∃ r, fragment1 v pkt (ipHeaderLen v p) o n = pure r ∧ Finished v (p.take (o + n)) r := by
  have h20 := twenty_le hmin
  set q := p.take (o + n) with hq
  have hql : q.length = o + n := List.length_take_of_le hn
  have hqh : ipHeaderLen v q = ipHeaderLen v p := ipHeaderLen_congr (List.getElem?_take_of_lt (by omega))
  have hpl : p.length = length := by rw [hpkt, List.length_take_of_le hlen]
  have hcopy : copyOf pkt (o + n) = q := by
    rw [copyOf_eq (by omega), hq, hpkt, List.take_take, Nat.min_eq_left (by omega)]
  obtain ⟨r, hrun, hfin⟩ := finishFragment_spec (v := v) (q := q) (by rw [hqh]; exact hmin)
    (by omega) (by omega)
  refine ⟨r, ?_, hfin⟩
  rw [fragment1, hcopy, ← hrun, hqh, hql]

/-- What the second fragment is finished from: the headers with the sequence number advanced, then
the rest of the payload. -/
theorem fragment2_eq {v : IpVersion} {pkt : Bytes} {h o n m : ℕ} (hseq : h + 7 < o + m)
    (hpkt : o + n + m ≤ pkt.length) :
    fragment2 v pkt h o n m =
      finishFragment v (patch (pkt.take o ++ slice pkt (o + n) m) (h + 4)
        (be 4 ((val (slice (pkt.take o ++ slice pkt (o + n) m) (h + 4) 4) + n) % 2 ^ 32))) h (o + m) := by
  have hhead : (pkt.take o).length = o := List.length_take_of_le (by omega)
  have hrest : (slice pkt (o + n) m).length = m := length_slice hpkt
  have hz : zeros (o + m) = [] ++ zeros (o + (m + 0)) := rfl
  rw [fragment2]
  simp only [hz]
  rw [arraycopy_fill List.length_nil.symm (by omega), pure_bind, List.nil_append, slice_zero,
    arraycopy_fill hhead.symm (by omega), pure_bind, zeros, List.replicate_zero, List.append_nil,
    advanceTcpSeq_eq (by rw [List.length_append, hhead, hrest]; exact hseq), pure_bind]

/-- What `fragment2` builds before finishing: the headers of `p` with the sequence number advanced,
then the payload without its first `n` octets. -/
def secondPart (v : IpVersion) (p : Bytes) (n : ℕ) : Bytes :=
  patch (p.take (ipHeaderLen v p + tcpHeaderLen v p) ++ (tcpPayload v p).drop n) (ipHeaderLen v p + 4)
    (be 4 ((tcpSeq v p + n) % 2 ^ 32))

section Fragments

variable {v : IpVersion} {p : Bytes} (hp : HelloSegment v p)
include hp

theorem HelloSegment.bounds :
    20 ≤ ipHeaderLen v p ∧ ipHeaderLen v p + tcpHeaderLen v p + 9 ≤ p.length ∧
      p.length ≤ maxLength v := by
  have hmin := hp.header
  have hsize := hp.hello.size
  have hmax := ipLength_le v (p := p)
  rw [tcpPayload_eq, List.length_drop] at hsize
  rw [hp.size] at hmax
  exact ⟨twenty_le hmin, by omega, hmax⟩

theorem length_secondPart (n : ℕ) : (secondPart v p n).length =
    ipHeaderLen v p + tcpHeaderLen v p + ((tcpPayload v p).length - n) := by
  obtain ⟨h20, hsize, hmax⟩ := hp.bounds
  have hoff := hp.offset
  have hhead : (p.take (ipHeaderLen v p + tcpHeaderLen v p)).length = ipHeaderLen v p + tcpHeaderLen v p :=
    List.length_take_of_le (by omega)
  rw [secondPart, length_patch (by rw [length_be, List.length_append, hhead]; omega), List.length_append,
    hhead, List.length_drop]

theorem secondPart_frame (n : ℕ) {i : ℕ} (hi : i < ipHeaderLen v p + tcpHeaderLen v p)
    (hseq : ¬ (ipHeaderLen v p + 4 ≤ i ∧ i < ipHeaderLen v p + 8)) : (secondPart v p n)[i]? = p[i]? := by
  obtain ⟨h20, hsize, hmax⟩ := hp.bounds
  have hoff := hp.offset
  rw [secondPart, getElem?_patch (by simp; omega) (by simp; omega),
    List.getElem?_append_left (by simp; omega), List.getElem?_take_of_lt hi]

theorem secondPart_header (n : ℕ) : ipHeaderLen v (secondPart v p n) = ipHeaderLen v p ∧
    tcpHeaderLen v (secondPart v p n) = tcpHeaderLen v p := by
  have h20 := hp.bounds.1
  have hoff := hp.offset
  have hl : ipHeaderLen v (secondPart v p n) = ipHeaderLen v p :=
    ipHeaderLen_congr (secondPart_frame hp n (by omega) (by omega))
  exact ⟨hl, tcpHeaderLen_congr hl (secondPart_frame hp n (by omega) (by omega))⟩

/-- **The second fragment** is a finished header, its sequence number advanced, with the rest. -/
theorem fragment2_spec {n m : ℕ} (hn : n + m = (tcpPayload v p).length) {pkt : Bytes}
    {length : ℕ} (hlen : length ≤ pkt.length) (hpkt : p = pkt.take length) :
    ∃ r, fragment2 v pkt (ipHeaderLen v p) (ipHeaderLen v p + tcpHeaderLen v p) n m = pure r ∧
      Finished v (secondPart v p n) r := by
  obtain ⟨h20, hsize, hmax⟩ := hp.bounds
  have hoff := hp.offset
  set po := ipHeaderLen v p + tcpHeaderLen v p with hpo
  have hpl : p.length = length := by rw [hpkt, List.length_take_of_le hlen]
  have hpay : (tcpPayload v p).length = p.length - po := by rw [tcpPayload_eq, List.length_drop]
  have hhead : pkt.take po = p.take po := by
    rw [hpkt, List.take_take, Nat.min_eq_left (by omega)]
  have hrest : slice pkt (po + n) m = (tcpPayload v p).drop n := by
    rw [tcpPayload_eq, List.drop_drop, ← hpo, ← slice_take (k := length) (by omega), ← hpkt, slice,
      List.take_of_length_le (by rw [List.length_drop]; omega)]
  have hseq : val (slice (p.take po ++ (tcpPayload v p).drop n) (ipHeaderLen v p + 4) 4) = tcpSeq v p := by
    rw [slice_append_left (by rw [List.length_take_of_le (by omega)]; omega), slice_take (by omega),
      tcpSeq_eq]
  have hlenq : (secondPart v p n).length = po + m := by
    rw [length_secondPart hp, ← hpo]
    omega
  have hqh := (secondPart_header hp n).1
  obtain ⟨r, hrun, hfin⟩ := finishFragment_spec (v := v) (q := secondPart v p n)
    (by rw [hqh]; exact hp.header) (by omega) (by omega)
  refine ⟨r, ?_, hfin⟩
  rw [fragment2_eq (by omega) (by omega), hhead, hrest, hseq, ← hrun, hqh, hlenq]
  rfl

/-- Two finished fragments around a cut of the payload are a split of the packet. -/
theorem splitOf_of_finished {n : ℕ} (hpos : 0 < n) (hn : n < (tcpPayload v p).length) {p1 p2 : Bytes}
    (h1 : Finished v (p.take (ipHeaderLen v p + tcpHeaderLen v p + n)) p1)
    (h2 : Finished v (secondPart v p n) p2) : SplitOf v p p1 p2 := by
  obtain ⟨h20, hsize, hmax⟩ := hp.bounds
  have hoff := hp.offset
  set po := ipHeaderLen v p + tcpHeaderLen v p with hpo
  have frame1 : ∀ i < po + n, (p.take (po + n))[i]? = p[i]? := fun i hi => List.getElem?_take_of_lt hi
  have hl1 : ipHeaderLen v (p.take (po + n)) = ipHeaderLen v p := ipHeaderLen_congr (frame1 0 (by omega))
  have ht1 : tcpHeaderLen v (p.take (po + n)) = tcpHeaderLen v p :=
    tcpHeaderLen_congr hl1 (frame1 _ (by omega))
  obtain ⟨hl2, ht2⟩ := secondPart_header hp n
  have hmin1 : minHeaderLen v ≤ ipHeaderLen v (p.take (po + n)) := by rw [hl1]; exact hp.header
  have hmin2 : minHeaderLen v ≤ ipHeaderLen v (secondPart v p n) := by rw [hl2]; exact hp.header
  have pay1 : tcpPayload v p1 = (tcpPayload v p).take n := by
    rw [h1.tcpPayload_eq hmin1 (by omega), tcpPayload_eq, tcpPayload_eq, hl1, ht1, ← hpo, List.drop_take,
      Nat.add_sub_cancel_left]
  have pay2 : tcpPayload v p2 = (tcpPayload v p).drop n := by
    have hlp : (p.take po).length = po := List.length_take_of_le (by omega)
    rw [h2.tcpPayload_eq hmin2 (by omega), tcpPayload_eq (p := secondPart v p n), hl2, ht2, ← hpo,
      secondPart, ← hpo, drop_patch_right (by rw [length_be]; omega)
        (by rw [length_be, List.length_append, hlp]; omega), List.drop_left' hlp]
  have seq1 : tcpSeq v p1 = tcpSeq v p := by
    rw [h1.tcpSeq_eq hmin1, tcpSeq_eq, tcpSeq_eq, hl1, slice_take (by omega)]
  have seq2 : tcpSeq v p2 = (tcpSeq v p + n) % 2 ^ 32 := by
    rw [h2.tcpSeq_eq hmin2, tcpSeq_eq, hl2, secondPart,
      slice_patch_be (by rw [List.length_append, List.length_take_of_le (by omega)]; omega), val_be]
    omega
  refine ⟨?_, ?_, ?_, seq1, ?_, h1.sound, h2.sound, ?_, ?_⟩
  · rw [pay1, pay2, List.take_append_drop]
  · rw [pay1]
    exact List.ne_nil_of_length_pos (by rw [List.length_take]; omega)
  · rw [pay2]
    exact List.ne_nil_of_length_pos (by rw [List.length_drop]; omega)
  · rw [seq2, seq1, pay1, List.length_take_of_le (by omega)]
  · intro i hi hr
    rw [h1.frame i (by rw [hl1]; exact hr), frame1 i (by omega)]
  · intro i hi hr hs
    rw [h2.frame i (by rw [hl2]; exact hr), secondPart_frame hp n hi hs]

end Fragments

/-! ### The handler -/

/-- **The test recognises exactly the ClientHello records.** -/
theorem isTlsHandshake_iff {pkt : Bytes} {o n : ℕ} (h : o + n ≤ pkt.length) (h9 : 9 ≤ n) :
    isTlsHandshake pkt o n = pure true ↔ ClientHelloRecord (slice pkt o n) := by
  have hn : (slice pkt o n).length = n := length_slice h
  have hoct : ∀ i, (hi : i < n) → octet (slice pkt o n) i = (pkt[o + i]).toNat := fun i hi => by
    rw [slice, octet_take hi, octet_drop, octet_eq (by omega)]
  have h0 := hoct 0 (by omega)
  have h1 := hoct 1 (by omega)
  have h2 := hoct 2 (by omega)
  have h5 := hoct 5 (by omega)
  have h3 : val (slice (slice pkt o n) 3 2) = val (slice pkt (o + 3) 2) := by rw [slice_slice (by omega)]
  simp only [Nat.add_zero] at h0
  have htest : isTlsHandshake pkt o n = pure (decide (octet (slice pkt o n) 0 = 0x16) &&
      decide (octet (slice pkt o n) 1 = 0x03) &&
      (decide (0x01 ≤ octet (slice pkt o n) 2) && decide (octet (slice pkt o n) 2 ≤ 0x04)) &&
      decide (octet (slice pkt o n) 5 = 0x01) && decide (val (slice (slice pkt o n) 3 2) > 0) &&
      decide (val (slice (slice pkt o n) 3 2) ≤ n - 5)) := by
    rw [isTlsHandshake, aget_eq (by omega), pure_bind, aget_eq (by omega), pure_bind, aget_eq (by omega),
      pure_bind, u16At_eq (by omega), pure_bind, aget_eq (by omega), pure_bind, h0, h1, h2, h3, h5]
  rw [htest]
  constructor
  · intro ht
    have hall := Except.ok.inj ht
    simp only [Bool.and_eq_true, decide_eq_true_eq] at hall
    obtain ⟨⟨⟨⟨⟨ht0, ht1⟩, ht2⟩, ht5⟩, hlo⟩, hhi⟩ := hall
    exact ⟨by omega, ht0, ht1, ht2, ⟨hlo, by rw [hn]; exact hhi⟩, ht5⟩
  · intro hrec
    have hlen := hrec.recordLen
    rw [hn] at hlen
    simp [hrec.contentType, hrec.versionMajor, hrec.versionMinor, hrec.handshakeType, hlen]

/-- **The TCP handler splits a ClientHello.** -/
theorem handleTcp_split (env : PacketEnv) (config : BypassConfig) {v : IpVersion} {pkt p : Bytes}
    {length : ℕ} (hlen : length ≤ pkt.length) (hpkt : p = pkt.take length) (hp : HelloSegment v p)
    (out : List Bytes) :
    ∃ p1 p2, (handleTcp env pkt length (ipHeaderLen v p) config v).outcome out =
        (pure true, out ++ if isSet config.disorderPosition then [p2, p1] else [p1, p2]) ∧
      SplitOf v p p1 p2 := by
  obtain ⟨h20, hsize, hmax⟩ := hp.bounds
  have hoff := hp.offset
  have hpl : p.length = length := by rw [hpkt, List.length_take_of_le hlen]
  have hpay : (tcpPayload v p).length = length - (ipHeaderLen v p + tcpHeaderLen v p) := by
    rw [tcpPayload_eq, List.length_drop, hpl]
  have htcp : payloadOffset pkt (ipHeaderLen v p) = ipHeaderLen v p + tcpHeaderLen v p := by
    rw [payloadOffset, tcpHeaderLen, segment, octet_drop]
    conv_rhs => rw [hpkt, octet_take (by rw [← hpkt]; omega), ← hpkt]
  have hlenpay : payloadLen pkt length (ipHeaderLen v p) = (tcpPayload v p).length := by
    rw [payloadLen, htcp, hpay]
  obtain ⟨hpos, hlt⟩ := frag1PayloadLen_bounds config env.random
    (show 2 ≤ (tcpPayload v p).length by omega)
  set n := frag1PayloadLen config env.random (tcpPayload v p).length with hn
  have hcut : cutAt env.random config pkt length (ipHeaderLen v p) = n := by rw [cutAt, hlenpay]
  obtain ⟨p1, hrun1, hfin1⟩ := fragment1_spec hp.header hmax
    (o := ipHeaderLen v p + tcpHeaderLen v p) (n := n) (by omega) (by omega) hlen hpkt
  obtain ⟨p2, hrun2, hfin2⟩ := fragment2_spec hp (n := n) (m := (tcpPayload v p).length - n) (by omega)
    hlen hpkt
  have hport : u16At pkt (ipHeaderLen v p + 2) = pure 443 := by
    rw [u16At_eq (by omega), ← hp.port, destinationPort, segment, slice_drop, hpkt,
      slice_take (k := length) (by rw [← hpkt]; omega)]
  have hslice : slice pkt (ipHeaderLen v p + tcpHeaderLen v p) (tcpPayload v p).length = tcpPayload v p := by
    rw [← slice_take (k := length) (by omega), ← hpkt, tcpPayload_eq, List.length_drop, slice,
      List.take_of_length_le (by rw [List.length_drop])]
  have htls : isTlsHandshake pkt (ipHeaderLen v p + tcpHeaderLen v p) (tcpPayload v p).length = pure true :=
    (isTlsHandshake_iff (by omega) (by omega)).mpr (by rw [hslice]; exact hp.hello)
  have hs : TcpSplit env.random config v pkt length (ipHeaderLen v p) p1 p2 :=
    { port := hport
      offset := by omega
      size := by omega
      hello := by rw [htcp, hlenpay, htls]
      first := by rw [htcp, hcut, hrun1]
      second := by rw [htcp, hcut, hlenpay, hrun2] }
  exact ⟨p1, p2, hs.outcome out, splitOf_of_finished hp hpos hlt hfin1 hfin2⟩

/-- Every segment with a ClientHello is split, whatever its control bits. -/
theorem processPacket_segment (env : PacketEnv) (config : BypassConfig) (v : IpVersion) (pkt : Bytes)
    (length : ℕ) (hlen : length ≤ pkt.length) (hp : HelloSegment v (pkt.take length))
    (out : List Bytes) :
    ∃ p1 p2, (processPacket env pkt length config).outcome out =
        (pure true, out ++ if isSet config.disorderPosition then [p2, p1] else [p1, p2]) ∧
      SplitOf v (pkt.take length) p1 p2 := by
  have hmin := hp.header
  obtain ⟨-, hsize, -⟩ := hp.bounds
  rw [List.length_take_of_le hlen] at hsize
  obtain ⟨hver, hhdr, hproto⟩ := header_take (v := v) (p := pkt) (n := length) (by omega)
  obtain ⟨p1, p2, hrun, hsplit⟩ := handleTcp_split env config hlen rfl hp out
  refine ⟨p1, p2, outcome_processPacket (by omega) hlen (hver ▸ hp.version) ?_, hsplit⟩
  rw [← hproto, hp.protocol, handle, if_neg (by decide), if_pos rfl, ← hhdr]
  exact hrun

/-- **Splitting preserves the TCP stream.** Whatever the configuration and the random choices,
`processPacket` writes the two fragments of a ClientHello packet, and nothing else. -/
theorem processPacket_split (env : PacketEnv) (config : BypassConfig) (v : IpVersion) (pkt : Bytes)
    (length : ℕ) (hlen : length ≤ pkt.length) (hp : ClientHelloPacket v (pkt.take length))
    (out : List Bytes) :
    ∃ p1 p2, (processPacket env pkt length config).outcome out =
        (pure true, out ++ if isSet config.disorderPosition then [p2, p1] else [p1, p2]) ∧
      SplitOf v (pkt.take length) p1 p2 :=
  processPacket_segment env config v pkt length hlen hp.segment out

/-- An IPv4 packet with a ClientHello record of nine octets, at the end of the sequence space. -/
def helloPacket : Bytes :=
  [0x45, 0, 0, 49, 0, 1, 0x40, 0, 64, 6, 0, 0, 10, 0, 0, 2, 93, 184, 216, 34,
    0x30, 0x39, 0x01, 0xBB, 0xFF, 0xFF, 0xFF, 0xFE, 0, 0, 0, 1, 0x50, 0x18, 0xFF, 0xFF, 0, 0, 0, 0,
    0x16, 3, 1, 0, 4, 1, 0, 0, 0]

theorem helloPacket_wellFormed : ClientHelloPacket .v4 helloPacket where
  version := by decide
  header := by decide
  whole := by unfold unfragmented; decide
  protocol := by decide
  size := by decide
  port := by decide
  offset := by decide
  flags := by decide
  hello := ⟨by decide, by decide, by decide, by decide, by decide, by decide⟩

theorem processPacket_split_helloPacket :
    ∃ p1 p2, (processPacket ⟨fun _ => pure [], lowRandom⟩ (helloPacket ++ zeros 16) 49
        (loadPreset "universal")).outcome [] = (pure true, [p2, p1]) ∧ SplitOf .v4 helloPacket p1 p2 :=
  processPacket_split ⟨fun _ => pure [], lowRandom⟩ (loadPreset "universal") .v4 (helloPacket ++ zeros 16)
    49 (by decide) helloPacket_wellFormed []

end BypassVpn
