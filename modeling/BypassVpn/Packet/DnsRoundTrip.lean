import BypassVpn.Lib.DnsMessage
import BypassVpn.Packet.DnsAnswer

/-!
# The answer decodes to the query and the addresses

* `hostName`, `QueryPacket`: a datagram whose first question is well formed.
* `parseQuestion_spec`, `buildAnswerRecords_spec`, `countRecords_spec`, `buildDnsResponse_spec`: what
  the hand-written codec computes, in terms of the message format.
* `answerMessage`: the message a receiver must read; `decodeMessage_response`, and
  **`tryIntercept_roundTrip`**.
* `HostLabel`, `dotted`: host names as text; **`parseQuestion_hostQuestion`**.
-/

namespace BypassVpn

open Region OnesComplement DnsMessage

/-! ### The question -/

/-- The host name the resolver is asked for. -/
def hostName (labels : List Bytes) : String :=
  String.ofList (['.'].intercalate (labels.map fun l => l.map asciiChar))

/-- Labels whose length byte does not have both upper bits set. -/
def WireLabels (labels : List Bytes) : Prop := ∀ l ∈ labels, 1 ≤ l.length ∧ l.length < 192

theorem wire_of_valid {labels : List Bytes} (h : ValidLabels labels) : WireLabels labels := by
  intro l hl
  obtain ⟨h1, h63⟩ := h l hl
  exact ⟨h1, by omega⟩

theorem and_C0_iff {n : ℕ} (h : n < 256) : n &&& 0xC0 = 0xC0 ↔ 192 ≤ n := by
  have hall : ∀ k < 256, k &&& 0xC0 = 0xC0 ↔ 192 ≤ k := by decide +kernel
  exact hall n h

theorem readLabels_spec {query : Bytes} {labels : List Bytes} (hv : WireLabels labels) {fuel pos : ℕ}
    (hq : Holds query pos (encodeName labels)) (hf : labels.length < fuel) (acc : List (List Char)) :
    readLabels query fuel pos acc =
      pure (some (pos + (encodeName labels).length, acc ++ labels.map fun l => l.map asciiChar)) := by
  induction labels generalizing fuel pos acc with
  | nil =>
    obtain ⟨fuel, rfl⟩ : ∃ k, fuel = k + 1 := ⟨fuel - 1, by omega⟩
    have hlen := hq.le_length (by simp [encodeName])
    have h0 : query[pos]? = some 0 := hq.getElem?_eq
    simp only [encodeName, List.flatMap_nil, List.nil_append, List.length_singleton] at hlen
    rw [readLabels, if_pos (by omega), aget, h0]
    simp [encodeName]
  | cons l labels ih =>
    obtain ⟨fuel, rfl⟩ : ∃ k, fuel = k + 1 := ⟨fuel - 1, by omega⟩
    obtain ⟨hl1, hl192⟩ := hv l List.mem_cons_self
    have hl256 : l.length < 256 := by omega
    rw [encodeName_cons] at hq
    obtain ⟨hhead, hrest⟩ := hq.append
    have hb := hhead.getElem?_eq
    have hlen := hhead.le_length (List.cons_ne_nil _ _)
    have hlabel : slice query (pos + 1) l.length = l := (Holds.append (a := [UInt8.ofNat l.length]) hhead).2
    rw [List.length_cons] at hrest hlen
    rw [readLabels, if_pos (by omega), aget, hb, pure_bind, toNat_ofNat_label hl256, if_neg (by omega),
      if_neg ((and_C0_iff hl256).not.mpr (by omega)), if_neg (by omega), hlabel, Nat.add_assoc,
      Nat.add_comm 1, ih (fun x hx => hv x (List.mem_cons_of_mem _ hx)) hrest
        (by simp only [List.length_cons] at hf; omega),
      encodeName_cons, List.length_append, List.length_cons]
    simp [Nat.add_assoc]

theorem hostName_ne_empty {labels : List Bytes} (hne : labels ≠ []) (hv : WireLabels labels) :
    (hostName labels).isEmpty = false := by
  obtain ⟨l, rest, rfl⟩ := List.exists_cons_of_ne_nil hne
  obtain ⟨b, bs, rfl⟩ : ∃ b bs, l = b :: bs := List.exists_cons_of_ne_nil
    (List.ne_nil_of_length_pos (hv l List.mem_cons_self).1)
  have hcons : ∃ c cs, ['.'].intercalate (((b :: bs) :: rest).map fun l => l.map asciiChar) = c :: cs := by
    cases rest with
    | nil => exact ⟨_, _, List.intercalate_singleton⟩
    | cons l' rest => exact ⟨_, _, List.intercalate_cons_cons⟩
  obtain ⟨c, cs, hcs⟩ := hcons
  rw [hostName, hcs, Bool.eq_false_iff]
  intro h
  rw [String.isEmpty_iff, String.ofList_eq_empty_iff] at h
  exact List.cons_ne_nil c cs h

/-- The message counts a question, and the first one has these labels. -/
structure HasQuestion (query : Bytes) (labels : List Bytes) : Prop where
  count : 1 ≤ val (slice query 4 2)
  nonempty : labels ≠ []
  wire : WireLabels labels
  name : Holds query 12 (encodeName labels)
  size : 12 + (encodeName labels).length + 4 ≤ query.length

theorem HasQuestion.parseQuestion_eq {query : Bytes} {labels : List Bytes} (h : HasQuestion query labels) :
    parseQuestion query = pure (some (hostName labels, val (slice query (12 + (encodeName labels).length) 2),
      (encodeName labels).length + 4)) := by
  have hlabels := length_lt_encodeName labels
  have hsize := h.size
  have hcount := h.count
  rw [parseQuestion, u16At_eq (by omega), pure_bind, if_neg (by omega),
    readLabels_spec h.wire h.name (by omega), pure_bind]
  simp only [List.nil_append]
  rw [if_neg (by omega), u16At_eq (by omega), pure_bind, ← hostName,
    hostName_ne_empty h.nonempty h.wire]
  simp only [Bool.false_eq_true, if_false]
  congr 4
  omega

theorem parseQuestion_spec {query : Bytes} {labels : List Bytes} {qtype qclass : ℕ} (hne : labels ≠ [])
    (hv : WireLabels labels) (hcount : 1 ≤ val (slice query 4 2))
    (hq : Holds query 12 (encodeName labels ++ be 2 qtype ++ be 2 qclass)) (ht : qtype < 65536) :
    parseQuestion query =
      pure (some (hostName labels, qtype, (encodeName labels).length + 4)) := by
  have hlen := hq.le_length (by simp [encodeName])
  obtain ⟨hnt, -⟩ := hq.append
  obtain ⟨hname, htype⟩ := hnt.append
  simp only [List.length_append, length_be] at hlen
  rw [Holds, length_be] at htype
  have hquestion : HasQuestion query labels := ⟨hcount, hne, hv, hname, by omega⟩
  rw [hquestion.parseQuestion_eq, htype, val_be_of_lt (by omega)]

/-! ### The answer section -/

/-- The record an address is answered with. -/
def answerRecord (labels : List Bytes) (a : InetAddress) : Record where
  name := labels
  type := if a.isInet4 then 1 else 28
  cls := 1
  ttl := 60
  rdata := a.address

/-- The octets of that record: a pointer to the question's name, then the fields. -/
def recordBytes (labels : List Bytes) (a : InetAddress) : Bytes :=
  be 2 (192 * 256 + 12) ++ encodeRecordBody (answerRecord labels a)

theorem length_address (a : InetAddress) : a.address.length = 4 ∨ a.address.length = 16 := by
  cases a with
  | inet4 a => exact .inl a.2
  | inet6 a => exact .inr a.2

theorem length_recordBytes (labels : List Bytes) (a : InetAddress) :
    (recordBytes labels a).length = 12 + a.address.length := by
  simp only [recordBytes, encodeRecordBody, answerRecord, List.length_append, length_be]
  omega

theorem putRecords_spec (labels : List Bytes) (ms : List InetAddress) (filled : Bytes) :
    putRecords (filled ++ zeros (ms.map fun a => 2 + 2 + 2 + 4 + 2 + a.address.length).sum) filled.length ms =
      pure (filled ++ ms.flatMap (recordBytes labels)) := by
  induction ms generalizing filled with
  | nil => simp [putRecords, zeros]
  | cons a ms ih =>
    set rest := (ms.map fun a => 2 + 2 + 2 + 4 + 2 + a.address.length).sum with hrest
    have hz : zeros ((a :: ms).map fun a => 2 + 2 + 2 + 4 + 2 + a.address.length).sum =
        zeros (1 + (1 + (1 + (1 + (1 + (1 + (1 + (1 + (1 + (1 + (1 + (1 +
          (a.address.length + rest))))))))))))) := by
      congr 1
      rw [List.map_cons, List.sum_cons]
      omega
    have hnext := ih (filled ++ recordBytes labels a)
    rw [putRecords, hz]
    simp only []
    rw [aset_fill (by simp), pure_bind, aset_fill (by simp), pure_bind, aset_fill (by simp), pure_bind,
      aset_fill (by simp), pure_bind, aset_fill (by simp), pure_bind, aset_fill (by simp), pure_bind,
      aset_fill (by simp), pure_bind, aset_fill (by simp), pure_bind, aset_fill (by simp), pure_bind,
      aset_fill (by simp), pure_bind, aset_fill (by simp), pure_bind, aset_fill (by simp), pure_bind,
      arraycopy_fill (by simp) (by omega), pure_bind, slice_full,
      show filled.length + 12 + a.address.length = (filled ++ recordBytes labels a).length by
        rw [List.length_append, length_recordBytes, Nat.add_assoc]]
    rw [List.flatMap_cons, ← List.append_assoc, ← hnext]
    congr 2
    simp only [recordBytes, encodeRecordBody, answerRecord, be_two, be_four, Nat.shiftRight_eq_div_pow,
      DEFAULT_TTL_SECONDS, List.append_assoc, List.cons_append, List.nil_append]
    rfl

/-- **The answer section is one record for each matching address, in order.** -/
theorem buildAnswerRecords_spec (labels : List Bytes) (addresses : List InetAddress) (qType : ℕ) :
    buildAnswerRecords addresses qType =
      pure ((matching addresses qType).flatMap (recordBytes labels)) := by
  rw [buildAnswerRecords]
  by_cases h : (matching addresses qType).isEmpty
  · rw [if_pos h, List.isEmpty_iff.mp h]
    rfl
  · rw [if_neg h]
    exact putRecords_spec labels (matching addresses qType) []

theorem length_le_records (labels : List Bytes) (ms : List InetAddress) :
    12 * ms.length ≤ (ms.flatMap (recordBytes labels)).length := by
  induction ms with
  | nil => simp
  | cons a ms ih =>
    rw [List.flatMap_cons, List.length_append, length_recordBytes, List.length_cons]
    omega

theorem countFrom_spec {labels : List Bytes} {records : Bytes} {ms : List InetAddress} {fuel pos count : ℕ}
    (hr : Holds records pos (ms.flatMap (recordBytes labels)))
    (hlen : records.length = pos + (ms.flatMap (recordBytes labels)).length) (hf : ms.length ≤ fuel) :
    countFrom records fuel pos count = pure (count + ms.length) := by
  induction ms generalizing fuel pos count with
  | nil =>
    have hend : ¬ pos < records.length := by simp only [List.flatMap_nil, List.length_nil] at hlen; omega
    cases fuel with
    | zero => rfl
    | succ fuel => rw [countFrom, if_neg hend]; rfl
  | cons a ms ih =>
    obtain ⟨fuel, rfl⟩ : ∃ k, fuel = k + 1 := ⟨fuel - 1, by simp only [List.length_cons] at hf; omega⟩
    rw [List.flatMap_cons] at hr hlen
    obtain ⟨ha, hrest⟩ := hr.append
    rw [List.length_append, length_recordBytes] at hlen
    rw [length_recordBytes] at hrest
    have hrd : Holds records (pos + 10) (be 2 a.address.length) := by
      have hbody : recordBytes labels a = (be 2 (192 * 256 + 12) ++ (be 2 (answerRecord labels a).type ++
          (be 2 1 ++ be 4 60))) ++ (be 2 a.address.length ++ a.address) := by
        simp [recordBytes, encodeRecordBody, answerRecord]
      rw [hbody] at ha
      exact ha.append.2.append.1
    have hval : val (slice records (pos + 10) 2) = a.address.length := by
      rw [Holds, length_be] at hrd
      rw [hrd, val_be_of_lt (by have := length_address a; omega)]
    rw [countFrom, if_pos (by omega), u16At_eq (by omega), pure_bind, hval,
      show pos + 10 + (2 + a.address.length) = pos + (12 + a.address.length) by omega,
      ih hrest (by omega) (by simp only [List.length_cons] at hf; omega), List.length_cons]
    congr 1
    omega

theorem countRecords_spec (labels : List Bytes) (ms : List InetAddress) :
    countRecords (ms.flatMap (recordBytes labels)) = pure ms.length := by
  have hf := length_le_records labels ms
  have hall : Holds (ms.flatMap (recordBytes labels)) 0 (ms.flatMap (recordBytes labels)) := slice_full _
  rw [countRecords, countFrom_spec hall (Nat.zero_add _).symm (by omega), Nat.zero_add]

theorem answerCount_spec (labels : List Bytes) (ms : List InetAddress) :
    answerCount (ms.flatMap (recordBytes labels)) = pure ms.length := by
  rw [answerCount]
  split_ifs with h
  · have hlen := length_le_records labels ms
    rw [List.isEmpty_iff.mp h, List.length_nil] at hlen
    rw [show ms.length = 0 by omega]
  · exact countRecords_spec labels ms

/-! ### The message -/

/-- The header of the answer to `query` with `count` records. -/
def responseHeader (query : Bytes) (count : ℕ) : Bytes :=
  slice query 0 2 ++ (be 2 (0x8080 + octet query 2 % 2 * 256) ++
    (be 2 1 ++ (be 2 count ++ (be 2 0 ++ be 2 0))))

theorem buildDnsResponse_spec {query : Bytes} {n : ℕ} (labels : List Bytes) (ms : List InetAddress)
    (hq : 12 + n ≤ query.length) :
    buildDnsResponse query n (ms.flatMap (recordBytes labels)) =
      pure (responseHeader query ms.length ++ slice query 12 n ++ ms.flatMap (recordBytes labels)) := by
  have hz : zeros 12 = [] ++ zeros (1 + (1 + (1 + (1 + (1 + (1 + (1 + (1 + (1 + (1 + (1 + (1 + 0))))))))))))
    := rfl
  rw [buildDnsResponse, answerCount_spec, pure_bind]
  simp only []
  rw [aget_eq (by omega), pure_bind, hz, aset_fill (by simp), pure_bind, aget_eq (by omega), pure_bind,
    aset_fill (by simp), pure_bind, aget_eq (by omega), pure_bind, aset_fill (by simp), pure_bind,
    aset_fill (by simp), pure_bind, aset_fill (by simp), pure_bind, aset_fill (by simp), pure_bind,
    aset_fill (by simp), pure_bind, aset_fill (by simp), pure_bind, aset_fill (by simp), pure_bind,
    aset_fill (by simp), pure_bind, aset_fill (by simp), pure_bind, aset_fill (by simp), pure_bind,
    copyOfRange_eq (by omega) (by omega), pure_bind, Nat.add_sub_cancel_left, responseHeader, slice_zero]
  have htake : query.take 2 = [query[0], query[1]] := slice_two (i := 0) (by omega)
  rw [octet_eq (by omega), Nat.and_one_is_mod, htake]
  rcases Nat.mod_two_eq_zero_or_one query[2].toNat with hbit | hbit <;> rw [hbit]
  · simp [be_two, Nat.shiftRight_eq_div_pow, zeros]
  · simp [be_two, Nat.shiftRight_eq_div_pow, zeros]

/-- The message a receiver must read: the answer to `query` with the addresses `ms`. -/
def answerMessage (query : Bytes) (question : Question) (ms : List InetAddress) : Message where
  id := val (slice query 0 2)
  qr := true
  opcode := 0
  aa := false
  tc := false
  rd := (octet query 2).testBit 0
  ra := true
  z := 0
  rcode := 0
  questions := [question]
  answers := ms.map (answerRecord question.qname)
  authorities := []
  additionals := []

/-- The octets of a question. -/
def questionBytes (q : Question) : Bytes := encodeName q.qname ++ be 2 q.qtype ++ be 2 q.qclass

/-- Questions whose fields fit. -/
structure ValidQuestion (q : Question) : Prop where
  nonempty : q.qname ≠ []
  labels : ValidLabels q.qname
  qtype_lt : q.qtype < 65536
  qclass_lt : q.qclass < 65536

theorem answerRecord_fits (labels : List Bytes) (a : InetAddress) : (answerRecord labels a).Fits := by
  refine ⟨?_, show 1 < 65536 by decide, show 60 < 2 ^ 32 by decide, ?_⟩
  · simp only [answerRecord]
    split_ifs <;> decide
  · have := length_address a
    simp only [answerRecord]
    omega

theorem decodeRecords_answers {m : Bytes} {labels : List Bytes} (hv : ValidLabels labels)
    {ms : List InetAddress} (hname : Holds m 12 (encodeName labels)) {pos : ℕ}
    (hm : Holds m pos (ms.flatMap (recordBytes labels))) :
    decodeMany (decodeRecord m) ms.length pos =
      some (ms.map (answerRecord labels), pos + (ms.flatMap (recordBytes labels)).length) := by
  have hlen := hname.le_length (by simp [encodeName])
  have hlabels := length_lt_encodeName labels
  have hflat : ms.flatMap (recordBytes labels) = (ms.map (answerRecord labels)).flatMap fun r =>
      be 2 (192 * 256 + 12) ++ encodeRecordBody r := by
    rw [List.flatMap_map]
    rfl
  rw [hflat] at hm ⊢
  rw [← decodeMany_flatMap ?_ hm, List.length_map]
  intro r hr pos hpos
  obtain ⟨a, -, rfl⟩ := List.mem_map.mp hr
  obtain ⟨hptr, hbody⟩ := hpos.append
  have hn : decodeName m m.length pos = some (labels, pos + 2) :=
    decodeName_pointer hv hptr (by decide) hname (by omega)
  rw [decodeRecord_of_holds (answerRecord_fits labels a) hn hbody]
  simp only [encodeRecordBody, List.length_append, length_be]
  congr 2
  omega

theorem decodeMessage_response {query : Bytes} {q : Question} (hq : ValidQuestion q)
    (hquery : 2 ≤ query.length) {ms : List InetAddress} (hms : ms.length < 65536) :
    decodeMessage (responseHeader query ms.length ++ questionBytes q ++ ms.flatMap (recordBytes q.qname)) =
      some (answerMessage query q ms) := by
  set m := responseHeader query ms.length ++ questionBytes q ++ ms.flatMap (recordBytes q.qname) with hm
  have hidlen : (slice query 0 2).length = 2 := length_slice (by omega)
  have hall : Holds m 0 m := slice_full m
  have hlen : m.length = 12 + (questionBytes q).length + (ms.flatMap (recordBytes q.qname)).length := by
    rw [hm, List.length_append, List.length_append]
    simp only [responseHeader, List.length_append, length_be, hidlen]
  -- the regions of the message
  obtain ⟨hhq, hrecs⟩ := hall.append
  obtain ⟨hhdr, hquest⟩ := hhq.append
  obtain ⟨hid, hhdr⟩ := hhdr.append
  obtain ⟨hflags, hhdr⟩ := hhdr.append
  obtain ⟨hqd, hhdr⟩ := hhdr.append
  obtain ⟨han, hhdr⟩ := hhdr.append
  obtain ⟨hns, har⟩ := hhdr.append
  simp only [responseHeader, List.length_append, hidlen, length_be, Nat.zero_add, Nat.reduceAdd]
    at hflags hqd han hns har hquest hrecs
  obtain ⟨hnt, hcls⟩ := hquest.append
  obtain ⟨hname, htype⟩ := hnt.append
  have hfuel : q.qname.length < m.length := by
    have := length_lt_encodeName q.qname
    rw [hlen, questionBytes, List.length_append, List.length_append]
    omega
  have hdq := decodeQuestion_of_holds (m := m) hq.labels hquest hq.qtype_lt hq.qclass_lt hfuel
  have hdr := decodeRecords_answers hq.labels hname hrecs
  rw [decodeMessage, field16_of_pair hid hidlen]
  simp only [Option.bind_eq_bind, Option.bind_some, field16_of_holds hflags, field16_of_holds hqd,
    field16_of_holds han, field16_of_holds hns, field16_of_holds har, Nat.mod_eq_of_lt hms, decodeMany, hdq]
  have hend : 12 + (encodeName q.qname).length + 4 = 12 + (questionBytes q).length := by
    simp only [questionBytes, List.length_append, length_be]
    omega
  rw [hend]
  simp only [Option.pure_def, Option.bind_some, hdr]
  rw [if_pos hlen.symm, answerMessage, Nat.testBit_zero]
  rcases Nat.mod_two_eq_zero_or_one (octet query 2) with hbit | hbit <;> rw [hbit] <;> rfl

/-! ### The datagram and its answer -/

/-- A datagram with the DNS message `query` whose first question is `q`. -/
structure QueryPacket (v : IpVersion) (p query : Bytes) (q : Question) : Prop extends DnsDatagram v p where
  whole : unfragmented v p
  udpLength_le : udpLength v p ≤ (segment v p).length
  message : query = slice (segment v p) 8 (udpLength v p - 8)
  count : 1 ≤ val (slice query 4 2)
  question : Holds query 12 (questionBytes q)
  valid : ValidQuestion q

/-- The addresses a question of this type asks for. -/
def asked (addresses : List InetAddress) (qtype : ℕ) : List InetAddress :=
  if qtype = 1 then addresses.filter fun a => a.isInet4
  else if qtype = 28 then addresses.filter fun a => !a.isInet4
  else []

/-- `r` is a sound packet that answers question `q` of `query` with `addresses`. -/
structure AnswerTo (v : IpVersion) (query : Bytes) (q : Question) (addresses : List InetAddress)
    (r : Bytes) : Prop where
  ipLength : ipLength v r = r.length
  udpLength : udpLength v r = (segment v r).length
  header : ipHeaderVerifies v r
  segment : segmentVerifies v r 17
  checksum : udpChecksum v r ≠ 0
  question : slice (udpPayload v r) 12 (questionBytes q).length =
    slice query 12 (questionBytes q).length
  message : decodeMessage (udpPayload v r) = some (answerMessage query q addresses)

theorem matching_eq (addresses : List InetAddress) (qtype : ℕ) :
    matching addresses qtype = asked addresses qtype := by
  rw [matching, asked]
  by_cases h1 : qtype = 1
  · simp [h1]
  · by_cases h28 : qtype = 28
    · simp [h28]
    · simp [h1, h28]

/-- The DNS message of the answer. -/
def response (query : Bytes) (q : Question) (addresses : List InetAddress) : Bytes :=
  responseHeader query (asked addresses q.qtype).length ++ questionBytes q ++
    (asked addresses q.qtype).flatMap (recordBytes q.qname)

variable {v : IpVersion} {pkt query : Bytes} {q : Question} {addresses : List InetAddress}

theorem AnswerPacket.answerTo {p r : Bytes} (hans : AnswerPacket v p (response query q addresses) r)
    (hmin : minHeaderLen v ≤ ipHeaderLen v p) (hquery : Holds query 12 (questionBytes q))
    (hq : ValidQuestion q) (hr : r.length ≤ 65535) :
    AnswerTo v query q (asked addresses q.qtype) r := by
  have h20 := twenty_le hmin
  have hsize := hans.size
  have hqlen := hquery.le_length (by simp [questionBytes, encodeName])
  have hrecs := length_le_records q.qname (asked addresses q.qtype)
  have hhdr : (responseHeader query (asked addresses q.qtype).length).length = 12 := by
    have hid : (slice query 0 2).length = 2 := length_slice (by omega)
    simp only [responseHeader, List.length_append, length_be, hid]
  have hdns : (response query q addresses).length = 12 + (questionBytes q).length +
      ((asked addresses q.qtype).flatMap (recordBytes q.qname)).length := by
    rw [response, List.length_append, List.length_append, hhdr]
  have hmax : 65535 ≤ maxLength v := by cases v <;> simp [maxLength]
  refine ⟨hans.ipLength (by omega), ?_, hans.header, hans.segment, hans.checksum, ?_, ?_⟩
  · rw [hans.udpLength (by omega), BypassVpn.segment, List.length_drop, hans.headerLen, hsize]
    omega
  · rw [hans.payload, response, slice_append_left (by rw [List.length_append, hhdr]),
      slice_append_right (by omega), hhdr, Nat.sub_self, slice_full, hquery]
  · rw [hans.payload]
    exact decodeMessage_response hq (by omega) (by omega)

/-- **The answer decodes to the query and the addresses.** The interceptor writes one packet, which,
unless it is too long for IP, is sound and reads back as the answer to the first question. -/
theorem tryIntercept_roundTrip (resolver : Resolver) (config : BypassConfig) (v : IpVersion)
    (pkt : Bytes) (length : ℕ) (query : Bytes) (q : Question) (addresses : List InetAddress)
    (hlen : length ≤ pkt.length) (hp : QueryPacket v (pkt.take length) query q)
    (hdns : config.dnsInterceptEnabled = true)
    (hres : resolver (hostName q.qname) = .ok addresses) (out : List Bytes) :
    ∃ r, (tryIntercept resolver pkt length (ipHeaderLen v pkt) v config).outcome out =
        (pure true, out ++ [r]) ∧
      r.length = ipHeaderLen v pkt + 8 + (response query q addresses).length ∧
      (r.length ≤ 65535 → AnswerTo v query q (asked addresses q.qtype) r) := by
  have hmin := hp.header
  have hsize := hp.size
  have hudp := hp.udpLength_le
  have hqlen := hp.question.le_length (by simp [questionBytes, encodeName])
  rw [List.length_take_of_le hlen] at hsize
  obtain ⟨-, hhdr, -⟩ := header_take (v := v) (p := pkt) (n := length) (by omega)
  rw [segment, List.length_drop, List.length_take_of_le hlen] at hudp
  rw [hhdr] at hmin hsize hudp
  have hport : val (slice pkt (ipHeaderLen v pkt + 2) 2) = 53 := by
    rw [← hp.port, destinationPort, segment, hhdr, slice_drop, slice_take (by omega)]
  have hudpLen : val (slice pkt (ipHeaderLen v pkt + 4) 2) = udpLength v (pkt.take length) := by
    rw [udpLength, segment, hhdr, slice_drop, slice_take (by omega)]
  have hquery : slice pkt (ipHeaderLen v pkt + 8) (udpLength v (pkt.take length) - 8) = query := by
    rw [hp.message, segment, hhdr, slice_drop, slice_take (by omega)]
  have hquerylen : query.length = udpLength v (pkt.take length) - 8 := by
    rw [← hquery, length_slice (by omega)]
  have hquest : slice query 12 ((encodeName q.qname).length + 4) = questionBytes q := by
    have hn : (encodeName q.qname).length + 4 = (questionBytes q).length := by
      simp only [questionBytes, List.length_append, length_be]
    rw [hn, hp.question]
  have hnq : 12 + ((encodeName q.qname).length + 4) ≤ query.length := by
    simp only [questionBytes, List.length_append, length_be] at hqlen
    omega
  have hparse := parseQuestion_spec hp.valid.nonempty (wire_of_valid hp.valid.labels) hp.count hp.question
    hp.valid.qtype_lt
  obtain ⟨r, hwrap, hans⟩ := wrapAsDnsResponse_spec hmin (by omega) (response query q addresses)
  refine ⟨r, ?_, hans.size, hans.answerTo hmin hp.question hp.valid⟩
  rw [tryIntercept, hdns]
  simp only [Bool.not_true, Bool.false_eq_true, if_false]
  rw [if_neg (by omega), u16At_eq (by omega), liftArray_pure_bind, hport, if_neg (by decide),
    u16At_eq (by omega), liftArray_pure_bind, hudpLen, Nat.min_eq_left (by omega), if_neg (by omega),
    outcome_tryCatch, answerQuery, copyOfRange_eq (by omega) (by omega), liftArray_pure_bind,
    Nat.add_sub_cancel_left, hquery, hparse, liftArray_pure_bind]
  simp only [hres]
  rw [buildAnswerRecords_spec q.qname, liftArray_pure_bind, buildDnsResponse_spec _ _ hnq,
    liftArray_pure_bind,
    matching_eq, hquest, ← response, hwrap, liftArray_pure_bind, outcome_write_bind, outcome_pure]
  rfl

/-- The question of `queryPacket`. -/
def questionA : Question := ⟨[[97]], 1, 1⟩

theorem queryPacket_wellFormed : QueryPacket .v4 queryPacket (queryPacket.drop 28) questionA where
  toDnsDatagram := ⟨by decide, by decide, by decide, by decide, by decide⟩
  whole := by unfold unfragmented; decide
  udpLength_le := by decide
  message := by decide
  count := by decide
  question := by unfold Holds; decide
  valid := ⟨by decide, by unfold ValidLabels; decide, by decide, by decide⟩

theorem tryIntercept_roundTrip_queryPacket :
    ∃ r, (tryIntercept oneAddress.resolver queryPacket 47 20 .v4 (loadPreset "universal")).outcome [] =
        (pure true, [r]) ∧
      AnswerTo .v4 (queryPacket.drop 28) questionA (asked [.inet4 ⟨[93, 184, 216, 34], rfl⟩] 1) r := by
  obtain ⟨r, hrun, hlen, hans⟩ := tryIntercept_roundTrip oneAddress.resolver (loadPreset "universal") .v4
    queryPacket 47 (queryPacket.drop 28) questionA [.inet4 ⟨[93, 184, 216, 34], rfl⟩] (by decide)
    queryPacket_wellFormed (by decide) rfl []
  refine ⟨r, hrun, hans ?_⟩
  rw [hlen]
  decide

/-! ### Host names -/

/-- A label of a host name: 1 to 63 ASCII characters other than the dot. -/
structure HostLabel where
  text : List Char
  size : 1 ≤ text.length ∧ text.length ≤ 63
  ascii : ∀ c ∈ text, c.toNat < 128 ∧ c ≠ '.'

/-- The octets of a label. -/
def HostLabel.octets (l : HostLabel) : Bytes := l.text.map fun c => UInt8.ofNat c.toNat

/-- The labels joined by dots. -/
def dotted (labels : List HostLabel) : String :=
  ".".intercalate (labels.map fun l => String.ofList l.text)

/-- The question for a host. -/
def hostQuestion (labels : List HostLabel) (qtype qclass : UInt16) : Question :=
  ⟨labels.map HostLabel.octets, qtype.toNat, qclass.toNat⟩

theorem asciiChar_ofNat {c : Char} (h : c.toNat < 128) : asciiChar (UInt8.ofNat c.toNat) = c := by
  have hb : (UInt8.ofNat c.toNat).toNat = c.toNat := by
    rw [UInt8.toNat_ofNat', Nat.mod_eq_of_lt (by omega)]
  rw [asciiChar, hb, if_pos h, Char.ofNat_toNat]

theorem map_asciiChar_octets (l : HostLabel) : l.octets.map asciiChar = l.text := by
  rw [HostLabel.octets, List.map_map]
  conv_rhs => rw [← List.map_id l.text]
  exact List.map_congr_left fun c hc => asciiChar_ofNat (l.ascii c hc).1

theorem toList_dotted (labels : List HostLabel) :
    (dotted labels).toList = ['.'].intercalate (labels.map HostLabel.text) := by
  rw [dotted, String.toList_intercalate, List.map_map]
  congr 1
  exact List.map_congr_left fun l _ => String.toList_ofList

theorem hostName_octets (labels : List HostLabel) :
    hostName (labels.map HostLabel.octets) = dotted labels := by
  apply String.toList_injective
  rw [hostName, String.toList_ofList, toList_dotted, List.map_map]
  congr 1
  exact List.map_congr_left fun l _ => map_asciiChar_octets l

theorem validLabels_octets (labels : List HostLabel) : ValidLabels (labels.map HostLabel.octets) := by
  intro l hl
  obtain ⟨l, -, rfl⟩ := List.mem_map.mp hl
  rw [HostLabel.octets, List.length_map]
  exact l.size

theorem splitOn_dotted {labels : List HostLabel} (hne : labels ≠ []) :
    (dotted labels).toList.splitOn '.' = labels.map HostLabel.text := by
  rw [toList_dotted]
  apply List.splitOn_intercalate
  · intro t ht hdot
    obtain ⟨l, -, rfl⟩ := List.mem_map.mp ht
    exact (l.ascii _ hdot).2 rfl
  · simpa using hne

/-- **Every well-formed question is recovered.** Whatever the rest of the header and whatever
follows, the question is read as its host, its type and its own octets. -/
theorem parseQuestion_hostQuestion (header : Bytes) (labels : List HostLabel) (qtype qclass : UInt16)
    (trailing : Bytes) (hheader : header.length = 12) (hcount : 1 ≤ val (slice header 4 2))
    (hne : labels ≠ []) :
    parseQuestion (header ++ questionBytes (hostQuestion labels qtype qclass) ++ trailing) =
        pure (some (dotted labels, qtype.toNat, (questionBytes (hostQuestion labels qtype qclass)).length)) ∧
      copyOfRange (header ++ questionBytes (hostQuestion labels qtype qclass) ++ trailing) 12
          (12 + (questionBytes (hostQuestion labels qtype qclass)).length) =
        pure (questionBytes (hostQuestion labels qtype qclass)) ∧
      (dotted labels).toList.splitOn '.' = labels.map HostLabel.text := by
  set question := questionBytes (hostQuestion labels qtype qclass) with hquestion
  set query := header ++ question ++ trailing with hquery
  have hq : Holds query 12 question := by
    rw [Holds, hquery, slice_append_left (by rw [List.length_append]; omega),
      slice_append_right (by omega), hheader, Nat.sub_self, slice_full]
  have hcount' : 1 ≤ val (slice query 4 2) := by
    rw [hquery, slice_append_left (by rw [List.length_append]; omega), slice_append_left (by omega)]
    exact hcount
  have hfields : Holds query 12
      (encodeName (labels.map HostLabel.octets) ++ be 2 qtype.toNat ++ be 2 qclass.toNat) := hq
  have hparse := parseQuestion_spec (by simpa using hne) (wire_of_valid (validLabels_octets labels)) hcount'
    hfields qtype.toNat_lt
  have hlen : question.length = (encodeName (labels.map HostLabel.octets)).length + 4 := by
    simp only [hquestion, questionBytes, hostQuestion, List.length_append, length_be]
  have hbound : 12 + question.length ≤ query.length := by
    simp only [hquery, List.length_append, hheader]
    omega
  refine ⟨?_, ?_, splitOn_dotted hne⟩
  · rw [hparse, hostName_octets, hlen]
  · rw [copyOfRange_eq (by omega) hbound, Nat.add_sub_cancel_left, hq]

/-- The labels of `a.bc`. -/
def labelsABc : List HostLabel :=
  [⟨['a'], by decide, List.forall_mem_singleton.mpr (by decide)⟩,
    ⟨['b', 'c'], by decide, List.forall_mem_cons.mpr ⟨by decide, List.forall_mem_singleton.mpr (by decide)⟩⟩]

theorem parseQuestion_hostQuestion_abc :
    parseQuestion ([0, 7, 1, 0, 0, 1, 0, 0, 0, 0, 0, 0] ++
        questionBytes (hostQuestion labelsABc 28 1) ++ [0, 0, 41]) =
      pure (some (dotted labelsABc, 28, 10)) :=
  (parseQuestion_hostQuestion [0, 7, 1, 0, 0, 1, 0, 0, 0, 0, 0, 0] labelsABc 28 1 [0, 0, 41]
    (by decide) (by decide) (by decide)).1

end BypassVpn
