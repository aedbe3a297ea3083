import BypassVpn.Packet.Processor

/-!
# Plain DNS never leaves

What the answer packet around a DNS message looks like, and that a datagram to port 53 is answered or
dropped but never passed on.

* `AnswerPacket`: a packet that carries a DNS message back to the sender of a query;
  `wrapAsDnsResponse_spec`.
* **`processPacket_dns`**: what `processPacket` writes for a datagram to port 53.
-/

namespace BypassVpn

open Region OnesComplement

variable {v : IpVersion} {pkt : Bytes}

/-- `r` carries `dns` from the destination of `q` back to its source. -/
structure AnswerPacket (v : IpVersion) (q dns r : Bytes) : Prop where
  size : r.length = ipHeaderLen v q + 8 + dns.length
  version : ipVersionField r = ipVersionField q
  headerLen : ipHeaderLen v r = ipHeaderLen v q
  protocol : ipProtocol v r = ipProtocol v q
  source : ipSource v r = ipDestination v q
  destination : ipDestination v r = ipSource v q
  sourcePort : sourcePort v r = 53
  destinationPort : destinationPort v r = BypassVpn.sourcePort v q
  payload : udpPayload v r = dns
  ipLength : r.length ≤ maxLength v → ipLength v r = r.length
  udpLength : 8 + dns.length < 65536 → udpLength v r = 8 + dns.length
  header : ipHeaderVerifies v r
  segment : segmentVerifies v r 17
  checksum : udpChecksum v r ≠ 0

/-! ### Turning the IP header -/

/-- The octets of the two addresses. -/
def addressOctet (v : IpVersion) (i : ℕ) : Prop :=
  match v with
  | .v4 => 12 ≤ i ∧ i < 20
  | .v6 => 8 ≤ i ∧ i < 40

/-- The two adjacent fields of `w` octets from `i` on exchanged. -/
def swapFields (p : Bytes) (i w : ℕ) : Bytes :=
  patch (patch p i (slice p (i + w) w)) (i + w) (slice p i w)

/-- The addresses exchanged. -/
def swapAddresses (v : IpVersion) (p : Bytes) : Bytes :=
  match v with
  | .v4 => swapFields p 12 4
  | .v6 => swapFields p 8 16

theorem swapFields_eq {out : Bytes} {i w : ℕ} (h : i + 2 * w ≤ out.length) {β : Type}
    (f : Bytes → Except Exn β) :
    (do let src ← copyOfRange out i (i + w)
        let dst ← copyOfRange out (i + w) (i + 2 * w)
        let out ← arraycopy dst 0 out i w
        let out ← arraycopy src 0 out (i + w) w
        f out) = f (swapFields out i w) := by
  have h1 : (slice out i w).length = w := length_slice (by omega)
  have h2 : (slice out (i + w) w).length = w := length_slice (by omega)
  have h3 : (patch out i (slice out (i + w) w)).length = out.length := length_patch (by omega)
  rw [copyOfRange_eq (by omega) (by omega), pure_bind, copyOfRange_eq (by omega) (by omega), pure_bind,
    show i + w - i = w by omega, show i + 2 * w - (i + w) = w by omega, arraycopy_eq (by omega) (by omega),
    pure_bind, slice_slice (by omega), Nat.add_zero, arraycopy_eq (by omega) (by omega), pure_bind,
    slice_slice (by omega), Nat.add_zero, swapFields]

theorem turnIpHeader_eq {out : Bytes} {udpLen totalLen : ℕ} (hmin : minHeaderLen v ≤ out.length)
    (htotal : v = .v6 → totalLen = 40 + udpLen) :
    turnIpHeader v out udpLen totalLen = setIpLength v (swapAddresses v out) totalLen := by
  cases v
  · exact swapFields_eq (i := 12) (w := 4) hmin _
  · rw [htotal rfl, setIpLength, IPV6_HEADER_LEN, Nat.add_sub_cancel_left]
    exact swapFields_eq (i := 8) (w := 16) hmin _

theorem swapFields_spec {p : Bytes} {i w : ℕ} (h : i + 2 * w ≤ p.length) :
    (swapFields p i w).length = p.length ∧ slice (swapFields p i w) i w = slice p (i + w) w ∧
      slice (swapFields p i w) (i + w) w = slice p i w ∧
      ∀ j, ¬ (i ≤ j ∧ j < i + 2 * w) → (swapFields p i w)[j]? = p[j]? := by
  have h1 : (slice p i w).length = w := length_slice (by omega)
  have h2 : (slice p (i + w) w).length = w := length_slice (by omega)
  have h3 : (patch p i (slice p (i + w) w)).length = p.length := length_patch (by omega)
  refine ⟨?_, ?_, ?_, fun j hj => ?_⟩
  · rw [swapFields, length_patch (by omega), h3]
  · rw [swapFields, slice_patch_left (by omega) (by omega), slice_patch_eq (by omega) h2]
  · rw [swapFields, slice_patch_eq (by omega) h1]
  · rw [swapFields, getElem?_patch (by omega) (by omega), getElem?_patch (by omega) (by omega)]

theorem swapAddresses_spec {p : Bytes} (hmin : minHeaderLen v ≤ p.length) :
    (swapAddresses v p).length = p.length ∧ ipSource v (swapAddresses v p) = ipDestination v p ∧
      ipDestination v (swapAddresses v p) = ipSource v p ∧
      ∀ i, ¬ addressOctet v i → (swapAddresses v p)[i]? = p[i]? := by
  cases v
  · exact swapFields_spec (i := 12) (w := 4) hmin
  · exact swapFields_spec (i := 8) (w := 16) hmin

/-! ### The UDP header and the payload -/

/-- The stores into the UDP header and the copy of the payload overwrite one region. -/
theorem putUdp_eq {out dns : Bytes} {h : ℕ} (hout : h + 8 + dns.length ≤ out.length)
    (b0 b1 b2 b3 b4 b5 b6 b7 : UInt8) {β : Type} (f : Bytes → Except Exn β) :
    (do let out ← aset out h b0
        let out ← aset out (h + 1) b1
        let out ← aset out (h + 2) b2
        let out ← aset out (h + 3) b3
        let out ← aset out (h + 4) b4
        let out ← aset out (h + 5) b5
        let out ← aset out (h + 6) b6
        let out ← aset out (h + 7) b7
        let out ← arraycopy dns 0 out (h + 8) dns.length
        f out) = f (patch out h ([b0, b1, b2, b3, b4, b5, b6, b7] ++ dns)) := by
  have h8 : ∀ bs : Bytes, bs.length = 8 →
      (arraycopy dns 0 (patch out h bs) (h + 8) dns.length >>= f) = f (patch out h (bs ++ dns)) := by
    intro bs hbs
    rw [arraycopy_eq (by omega) (by rw [length_patch (by omega)]; exact hout), pure_bind, slice_full,
      patch_patch_adjacent (by omega) (by omega)]
  rw [aset_eq (by omega), pure_bind, aset_extend (by rfl) (by omega), pure_bind,
    aset_extend (by rfl) (by omega),
    pure_bind, aset_extend (by rfl) (by omega), pure_bind, aset_extend (by rfl) (by omega), pure_bind,
    aset_extend (by rfl) (by omega), pure_bind, aset_extend (by rfl) (by omega), pure_bind,
    aset_extend (by rfl) (by omega), pure_bind, h8 _ rfl]
  rfl

theorem sealResponse_eq (v : IpVersion) (pkt : Bytes) (h : ℕ) :
    sealResponse v pkt h = recalcChecksums v 17 6 nonZero pkt h := by
  cases v <;> rfl

theorem addresses_congr {p q : Bytes} (h : ∀ i, addressOctet v i → q[i]? = p[i]?) :
    ipSource v q = ipSource v p ∧ ipDestination v q = ipDestination v p := by
  cases v <;> simp only [addressOctet, ipSource, ipDestination] at h ⊢
  · exact ⟨slice_congr fun j hj hj' => h j (by omega), slice_congr fun j hj hj' => h j (by omega)⟩
  · exact ⟨slice_congr fun j hj hj' => h j (by omega), slice_congr fun j hj hj' => h j (by omega)⟩

theorem not_checksumOctet_of_address {h field i : ℕ} (hmin : minHeaderLen v ≤ h) (hi : addressOctet v i) :
    ¬ checksumOctet v h field i := by
  cases v <;> simp only [minHeaderLen, addressOctet, checksumOctet, reduceCtorEq, false_and, false_or,
    true_and] at *
  · omega
  · omega

theorem ipProtocol_congr {p q : Bytes}
    (h : ∀ i < 10, ¬ lengthOctet v i → ¬ addressOctet v i → q[i]? = p[i]?) :
    ipProtocol v q = ipProtocol v p := by
  cases v
  · exact octet_congr (h 9 (by omega) (by simp [lengthOctet]) (by simp [addressOctet]))
  · exact octet_congr (h 6 (by omega) (by simp [lengthOctet]) (by simp [addressOctet]))

/-- What `wrapAsDnsResponse` has built before it computes the checksums. -/
structure Unsealed (v : IpVersion) (q dns r : Bytes) : Prop where
  size : r.length = ipHeaderLen v q + 8 + dns.length
  frame : ∀ i < ipHeaderLen v q, ¬ lengthOctet v i → ¬ addressOctet v i → r[i]? = q[i]?
  source : ipSource v r = ipDestination v q
  destination : ipDestination v r = ipSource v q
  ipLength : r.length ≤ maxLength v → ipLength v r = r.length
  body : r.drop (ipHeaderLen v q) = be 2 53 ++ slice q (ipHeaderLen v q) 2 ++
    be 2 (8 + dns.length) ++ [0, 0] ++ dns

theorem wrapAsDnsResponse_unsealed (hmin : minHeaderLen v ≤ ipHeaderLen v pkt)
    (hpkt : ipHeaderLen v pkt + 8 ≤ pkt.length) (dns : Bytes) :
    ∃ r, wrapAsDnsResponse pkt (ipHeaderLen v pkt) dns v = sealResponse v r (ipHeaderLen v pkt) ∧
      Unsealed v pkt dns r := by
  set h := ipHeaderLen v pkt with hh
  set a1 := pkt.take h ++ zeros (8 + dns.length) with ha1
  have len1 : a1.length = h + 8 + dns.length := by
    rw [ha1, List.length_append, List.length_take_of_le (by omega), zeros, List.length_replicate]
    omega
  have frame1 : ∀ i < h, a1[i]? = pkt[i]? := fun i hi => by
    rw [ha1, List.getElem?_append_left (by rw [List.length_take_of_le (by omega)]; exact hi),
      List.getElem?_take_of_lt hi]
  obtain ⟨len2, src2, dst2, frame2⟩ := swapAddresses_spec (v := v) (p := a1) (by omega)
  obtain ⟨a3, hset, len3, frame3, ip3⟩ := setIpLength_spec (v := v) (q := swapAddresses v a1)
    (n := h + (8 + dns.length)) (by omega) (by omega)
  have hports : slice pkt h 2 = [pkt[h], pkt[h + 1]] := slice_two (by omega)
  set body := be 2 53 ++ slice pkt h 2 ++ be 2 (8 + dns.length) ++ [0, 0] ++ dns with hbody
  have lenb : body.length = 8 + dns.length := by
    rw [hbody, hports]
    simp
    omega
  set r := patch a3 h body with hr
  have lenr : r.length = h + 8 + dns.length := by rw [hr, length_patch (by omega), len3, len2, len1]
  have framer : ∀ i < h, r[i]? = a3[i]? := fun i hi => getElem?_patch (by omega) (.inl hi)
  have hadr : ∀ i, addressOctet v i → i < h ∧ ¬ lengthOctet v i := by
    intro i hi
    cases v <;> simp only [minHeaderLen, addressOctet, lengthOctet] at * <;> omega
  have hlen : ∀ i, lengthOctet v i → i < h := by
    intro i hi
    cases v <;> simp only [minHeaderLen, lengthOctet] at * <;> omega
  have hadrr : ipSource v r = ipSource v (swapAddresses v a1) ∧
      ipDestination v r = ipDestination v (swapAddresses v a1) :=
    addresses_congr fun i hi => by rw [framer i (hadr i hi).1, frame3 i (hadr i hi).2]
  have hadr1 : ipSource v a1 = ipSource v pkt ∧ ipDestination v a1 = ipDestination v pkt :=
    addresses_congr fun i hi => frame1 i (hadr i hi).1
  refine ⟨r, ?_, lenr, fun i hi hl ha => ?_, ?_, ?_, fun hmax => ?_, ?_⟩
  · have hz : zeros (h + (8 + dns.length)) = [] ++ zeros (h + (8 + dns.length)) := rfl
    have htotal : v = .v6 → h + (8 + dns.length) = 40 + (8 + dns.length) := by
      rintro rfl
      rfl
    rw [wrapAsDnsResponse]
    simp only []
    rw [hz, arraycopy_fill List.length_nil.symm (by omega), pure_bind, slice_zero, List.nil_append, ← ha1,
      turnIpHeader_eq (by omega) htotal, hset, pure_bind, aget_eq (by omega), pure_bind, aget_eq (by omega),
      pure_bind, putUdp_eq (by omega), hr, hbody, hports, be_two, be_two, Nat.shiftRight_eq_div_pow]
    rfl
  · rw [framer i hi, frame3 i hl, frame2 i ha, frame1 i hi]
  · rw [hadrr.1, src2, hadr1.2]
  · rw [hadrr.2, dst2, hadr1.1]
  · rw [ipLength_congr fun i hi => framer i (hlen i hi), ip3 (by omega)]
    omega
  · rw [hr, drop_patch_left (Nat.le_refl _) (by omega), Nat.sub_self, patch, List.take_zero, List.nil_append,
      List.drop_drop, List.drop_eq_nil_of_le (by omega), List.append_nil]

/-- **The answer packet.** Whatever the message, it goes back to the sender with right checksums. -/
theorem wrapAsDnsResponse_spec (hmin : minHeaderLen v ≤ ipHeaderLen v pkt)
    (hpkt : ipHeaderLen v pkt + 8 ≤ pkt.length) (dns : Bytes) :
    ∃ r, wrapAsDnsResponse pkt (ipHeaderLen v pkt) dns v = pure r ∧ AnswerPacket v pkt dns r := by
  obtain ⟨q, hwrap, hq⟩ := wrapAsDnsResponse_unsealed hmin hpkt dns
  have h20 := twenty_le hmin
  have h0 : ¬ lengthOctet v 0 ∧ ¬ addressOctet v 0 := by
    cases v <;> simp [lengthOctet, addressOctet]
  have hqh : ipHeaderLen v q = ipHeaderLen v pkt :=
    ipHeaderLen_congr (hq.frame 0 (by omega) h0.1 h0.2)
  obtain ⟨r, hseal, hr, hne⟩ := recalcChecksums_spec (v := v) (q := q) 17 6 nonZero (.inr rfl) rfl
    (by rw [hqh]; exact hmin) (by rw [hqh, hq.size]; omega)
  rw [hqh] at hseal hne
  have hframe := hr.frame
  rw [hqh] at hframe
  have hlow : ∀ i < 10, r[i]? = q[i]? := fun i hi => hframe i (by simp only [checksumOctet]; omega)
  have hrh : ipHeaderLen v r = ipHeaderLen v pkt := by rw [ipHeaderLen_congr (hlow 0 (by omega)), hqh]
  have hadr : ipSource v r = ipSource v q ∧ ipDestination v r = ipDestination v q :=
    addresses_congr fun i hi => hframe i (not_checksumOctet_of_address hmin hi)
  -- up to its checksum, the segment is the one that was built
  have hbody : ∀ i m, i + m ≤ 6 → slice (segment v r) i m = slice (be 2 53 ++
      slice pkt (ipHeaderLen v pkt) 2 ++ be 2 (8 + dns.length) ++ [0, 0] ++ dns) i m := by
    intro i m him
    rw [segment, hrh, slice_drop, ← hq.body, slice_drop]
    refine slice_congr fun j hj hj' => hframe j ?_
    cases v <;> simp only [minHeaderLen, checksumOctet] at * <;> omega
  have hports : (slice pkt (ipHeaderLen v pkt) 2).length = 2 := length_slice (by omega)
  refine ⟨r, ?_, ?_⟩
  · rw [hwrap, sealResponse_eq, hseal]
  refine ⟨?_, ?_, hrh, ?_, ?_, ?_, ?_, ?_, ?_, fun hmax => ?_, fun hmax => ?_, hr.header, hr.segment, ?_⟩
  · rw [hr.length_eq, hq.size]
  · rw [ipVersionField, ipVersionField, octet_congr (hlow 0 (by omega)),
      octet_congr (hq.frame 0 (by omega) h0.1 h0.2)]
  · refine ipProtocol_congr fun i hi hl ha => ?_
    rw [hlow i hi, hq.frame i (by omega) hl ha]
  · rw [hadr.1, hq.source]
  · rw [hadr.2, hq.destination]
  · rw [sourcePort, hbody 0 2 (by omega)]
    simp only [List.append_assoc]
    rw [slice_append_left (by simp)]
    rfl
  · rw [destinationPort, hbody 2 2 (by omega), sourcePort, segment, slice_drop]
    simp only [List.append_assoc]
    rw [slice_append_right (by simp), slice_append_left (by simp [hports])]
    simp [slice_slice]
  · have hd : r.drop (ipHeaderLen v pkt + 8) = q.drop (ipHeaderLen v pkt + 8) := by
      refine drop_congr fun j hj => hframe j ?_
      cases v <;> simp only [minHeaderLen, checksumOctet] at * <;> omega
    rw [udpPayload, segment, hrh, List.drop_drop, hd, ← List.drop_drop, hq.body]
    exact List.drop_left' (by simp [hports])
  · rw [ipLength_congr fun i hi => hlow i ?_, hq.ipLength (by rw [← hr.length_eq]; exact hmax), hr.length_eq]
    cases v <;> simp only [lengthOctet] at hi <;> omega
  · rw [udpLength, hbody 4 2 (by omega)]
    simp only [List.append_assoc]
    rw [slice_append_right (by simp), slice_append_right (by simp [hports]),
      slice_append_left (by simp [hports])]
    simp only [length_be, hports, Nat.reduceSub]
    rw [slice_zero, List.take_of_length_le (by simp), val_be_of_lt (by omega)]
  · rw [udpChecksum, segment, hrh, slice_drop]
    exact hne rfl

theorem AnswerPacket.take {dns r : Bytes} {length : ℕ} (h : AnswerPacket v pkt dns r)
    (hmin : minHeaderLen v ≤ ipHeaderLen v pkt) (hlen : ipHeaderLen v pkt + 8 ≤ length) :
    AnswerPacket v (pkt.take length) dns r := by
  obtain ⟨hver, hh, hproto⟩ := header_take (v := v) (p := pkt) (n := length) (by omega)
  have hadr : ipSource v (pkt.take length) = ipSource v pkt ∧
      ipDestination v (pkt.take length) = ipDestination v pkt := addresses_congr fun i hi =>
    List.getElem?_take_of_lt (by cases v <;> simp only [minHeaderLen, addressOctet] at * <;> omega)
  have hport : BypassVpn.sourcePort v (pkt.take length) = BypassVpn.sourcePort v pkt := by
    rw [BypassVpn.sourcePort, BypassVpn.sourcePort, BypassVpn.segment, BypassVpn.segment, hh, slice_drop,
      slice_drop, slice_take (by omega)]
  exact { h with
    size := by rw [h.size, hh]
    version := by rw [h.version, hver]
    headerLen := by rw [h.headerLen, hh]
    protocol := by rw [h.protocol, hproto]
    source := by rw [h.source, hadr.2]
    destination := by rw [h.destination, hadr.1]
    destinationPort := by rw [h.destinationPort, hport] }

/-! ### The datagrams -/

/-- A datagram to port 53 behind a complete IP and UDP header; nothing is asked of its content. -/
structure DnsDatagram (v : IpVersion) (p : Bytes) : Prop where
  version : ipVersionField p = versionNumber v
  header : minHeaderLen v ≤ ipHeaderLen v p
  protocol : ipProtocol v p = 17
  size : ipHeaderLen v p + 8 ≤ p.length
  port : destinationPort v p = 53

/-- What the `try` block of `tryIntercept` can come to: nothing written, normally or by an exception,
or one answer. -/
inductive AnswerOutcome (v : IpVersion) (pkt : Bytes) (out : List Bytes) :
    Except Exn Bool × List Bytes → Prop
  | dropped : AnswerOutcome v pkt out (pure true, out)
  | failed (e : Exn) : AnswerOutcome v pkt out (throw e, out)
  | answered {dns r : Bytes} (h : AnswerPacket v pkt dns r) : AnswerOutcome v pkt out (pure true, out ++ [r])

theorem AnswerOutcome.liftArray_bind {α : Type} {out : List Bytes} {x : Except Exn α}
    {f : α → PacketM Bool} (h : ∀ a, AnswerOutcome v pkt out ((f a).outcome out)) :
    AnswerOutcome v pkt out ((liftArray x >>= f).outcome out) := by
  rw [outcome_liftArray_bind]
  rcases x with e | a
  · exact .failed e
  · exact h a

theorem answerQuery_outcome (hmin : minHeaderLen v ≤ ipHeaderLen v pkt)
    (hpkt : ipHeaderLen v pkt + 8 ≤ pkt.length) (resolver : Resolver) (o n : ℕ) (out : List Bytes) :
    AnswerOutcome v pkt out ((answerQuery resolver pkt (ipHeaderLen v pkt) v o n).outcome out) := by
  refine .liftArray_bind fun query => .liftArray_bind fun parsed => ?_
  rcases parsed with _ | ⟨host, qType, len⟩
  · exact .dropped
  refine .liftArray_bind fun records => .liftArray_bind fun dns => ?_
  obtain ⟨r, hr, hans⟩ := wrapAsDnsResponse_spec hmin hpkt dns
  rw [hr, liftArray_pure_bind, outcome_write_bind]
  exact .answered hans

/-- **The interceptor takes every datagram to port 53** and writes at most one answer. -/
theorem tryIntercept_outcome {length : ℕ} {config : BypassConfig} (hmin : minHeaderLen v ≤ ipHeaderLen v pkt)
    (hlen : length ≤ pkt.length) (hsize : ipHeaderLen v pkt + 8 ≤ length)
    (hport : val (slice pkt (ipHeaderLen v pkt + 2) 2) = 53) (hdns : config.dnsInterceptEnabled = true)
    (resolver : Resolver) (out : List Bytes) :
    ∃ written, (tryIntercept resolver pkt length (ipHeaderLen v pkt) v config).outcome out =
        (pure true, out ++ written) ∧
      (written = [] ∨ ∃ dns r, written = [r] ∧ AnswerPacket v pkt dns r) := by
  rw [tryIntercept, hdns]
  simp only [Bool.not_true, Bool.false_eq_true, if_false]
  rw [if_neg (by omega), u16At_eq (by omega), liftArray_pure_bind, hport, if_neg (by decide),
    u16At_eq (by omega), liftArray_pure_bind]
  split_ifs with hshort
  · exact ⟨[], by simp, .inl rfl⟩
  rw [outcome_tryCatch]
  have h := answerQuery_outcome hmin (by omega) resolver (ipHeaderLen v pkt + 8)
    (min (val (slice pkt (ipHeaderLen v pkt + 4) 2) - 8) (length - (ipHeaderLen v pkt + 8))) out
  generalize (answerQuery resolver pkt _ v _ _).outcome out = res at h
  cases h with
  | dropped => exact ⟨[], by simp; rfl, .inl rfl⟩
  | failed e => exact ⟨[], by simp; rfl, .inl rfl⟩
  | answered h => exact ⟨_, rfl, .inr ⟨_, _, rfl, h⟩⟩

/-- **Plain DNS never leaves.** With interception on, a datagram to port 53 is taken by the
interceptor, which returns normally, and `processPacket` writes what the interceptor writes: nothing,
or one packet back to the sender. -/
theorem processPacket_dns (env : PacketEnv) (config : BypassConfig) (v : IpVersion) (pkt : Bytes)
    (length : ℕ) (hlen : length ≤ pkt.length) (hp : DnsDatagram v (pkt.take length))
    (hdns : config.dnsInterceptEnabled = true) (out : List Bytes) :
    ∃ written,
      (tryIntercept env.resolver pkt length (ipHeaderLen v pkt) v config).outcome out =
        (pure true, out ++ written) ∧
      (processPacket env pkt length config).outcome out = (pure true, out ++ written) ∧
      (written = [] ∨ ∃ dns r, written = [r] ∧ AnswerPacket v (pkt.take length) dns r) := by
  have hmin := hp.header
  have hsize := hp.size
  rw [List.length_take_of_le hlen] at hsize
  obtain ⟨hver, hhdr, hproto⟩ := header_take (v := v) (p := pkt) (n := length) (by omega)
  have hport : val (slice pkt (ipHeaderLen v pkt + 2) 2) = 53 := by
    rw [← hp.port, destinationPort, segment, hhdr, slice_drop, slice_take (by omega)]
  rw [hhdr] at hmin hsize
  obtain ⟨written, hrun, hw⟩ := tryIntercept_outcome hmin hlen hsize hport hdns env.resolver out
  refine ⟨written, hrun, outcome_processPacket (by omega) hlen (hver ▸ hp.version) ?_, ?_⟩
  · rw [← hproto, hp.protocol, handle, if_pos rfl, handleUdp, if_neg (by omega), outcome_bind, hrun]
    rfl
  · rcases hw with hw | ⟨dns, r, hw, hr⟩
    · exact .inl hw
    · exact .inr ⟨dns, r, hw, hr.take hmin hsize⟩

/-- An IPv4 query for the addresses of `a`, from port 5353. -/
def queryPacket : Bytes :=
  [0x45, 0, 0, 47, 0, 1, 0x40, 0, 64, 17, 0, 0, 10, 0, 0, 2, 8, 8, 8, 8,
    0x14, 0xE9, 0, 53, 0, 27, 0, 0,
    0xAB, 0xCD, 1, 0, 0, 1, 0, 0, 0, 0, 0, 0, 1, 97, 0, 0, 1, 0, 1]

/-- Surroundings whose resolver knows one address. -/
def oneAddress : PacketEnv where
  resolver _ := pure [.inet4 ⟨[93, 184, 216, 34], rfl⟩]
  random := lowRandom

theorem queryPacket_datagram : DnsDatagram .v4 queryPacket :=
  ⟨by decide, by decide, by decide, by decide, by decide⟩

theorem processPacket_dns_queryPacket :
    ∃ written,
      (tryIntercept oneAddress.resolver queryPacket 47 20 .v4 (loadPreset "universal")).outcome [] =
        (pure true, written) ∧
      (processPacket oneAddress queryPacket 47 (loadPreset "universal")).outcome [] = (pure true, written) ∧
      (written = [] ∨ ∃ dns r, written = [r] ∧ AnswerPacket .v4 queryPacket dns r) :=
  processPacket_dns oneAddress (loadPreset "universal") .v4 queryPacket 47 (by decide) queryPacket_datagram
    (by decide) []

end BypassVpn
