import BypassVpn.Packet.Split

/-!
# Splitting and the TCP sequence space

The control bits `SYN` and `FIN` take places in the sequence space, before and behind the payload,
and `URG` points into it. The splitter copies the header into both fragments whole.

* `numbered`: entries at consecutive sequence numbers; `occupied`, `urgentNumber`: what a segment
  puts there and what it points at.
* `SameSequenceSpace`: two segments, one behind the other, stand for one.
* `sameSequenceSpace_iff`: for the two fragments of a split; **`processPacket_sequence_iff`**.
-/

namespace BypassVpn

open Region OnesComplement

/-! ### Sequence numbers -/

/-- The entries of a list at the sequence numbers from `s` on. -/
def numbered {α : Type} (s : ℕ) : List α → List (ℕ × α)
  | [] => []
  | x :: xs => (s % 2 ^ 32, x) :: numbered (s + 1) xs

section Numbered

variable {α : Type}

theorem length_numbered (s : ℕ) (xs : List α) : (numbered s xs).length = xs.length := by
  induction xs generalizing s with
  | nil => rfl
  | cons x xs ih => rw [numbered, List.length_cons, ih, List.length_cons]

theorem numbered_append (s : ℕ) (xs ys : List α) :
    numbered s (xs ++ ys) = numbered s xs ++ numbered (s + xs.length) ys := by
  induction xs generalizing s with
  | nil => rfl
  | cons x xs ih =>
    rw [List.cons_append, numbered, ih, numbered, List.length_cons, Nat.add_right_comm, Nat.add_assoc]
    rfl

theorem numbered_mod (s : ℕ) (xs : List α) : numbered (s % 2 ^ 32) xs = numbered s xs := by
  suffices h : ∀ r, r % 2 ^ 32 = s % 2 ^ 32 → numbered r xs = numbered s xs from
    h _ (Nat.mod_mod _ _)
  induction xs generalizing s with
  | nil => exact fun _ _ => rfl
  | cons x xs ih =>
    intro r hr
    rw [numbered, numbered, hr, ih (s + 1) (r + 1) (by omega)]

end Numbered

/-! ### Segments -/

section Segment

variable (v : IpVersion) (p : Bytes)

/-- The control bits, from the lowest. -/
def finBit : Bool := (tcpFlags v p).testBit 0

/-- The SYN bit. -/
def synBit : Bool := (tcpFlags v p).testBit 1

/-- The URG bit. -/
def urgBit : Bool := (tcpFlags v p).testBit 5

/-- The urgent pointer. -/
def urgentPointer : ℕ := val (slice (segment v p) 18 2)

/-- What takes a place in the sequence space. -/
inductive SeqItem where
  | syn
  | octet (b : UInt8)
  | fin
  deriving DecidableEq, Repr

/-- `SYN` comes before the first octet of the payload and `FIN` behind the last. -/
def seqItems : List SeqItem :=
  (if synBit v p then [.syn] else []) ++ (tcpPayload v p).map .octet ++ (if finBit v p then [.fin] else [])

/-- The places of the sequence space a segment takes, in order. -/
def occupied : List (ℕ × SeqItem) := numbered (tcpSeq v p) (seqItems v p)

/-- The sequence number an urgent segment points at. -/
def urgentNumber : Option ℕ :=
  if urgBit v p then some ((tcpSeq v p + urgentPointer v p) % 2 ^ 32) else none

/-- **Delivered one behind the other, `p1` and `p2` are `p`.** -/
structure SameSequenceSpace (p1 p2 : Bytes) : Prop where
  items : occupied v p1 ++ occupied v p2 = occupied v p
  urgent : ∀ q ∈ [p1, p2], urgentNumber v q = none ∨ urgentNumber v q = urgentNumber v p
  urgent_kept : urgentNumber v p ≠ none → ∃ q ∈ [p1, p2], urgentNumber v q = urgentNumber v p

theorem length_occupied : (occupied v p).length =
    (synBit v p).toNat + (tcpPayload v p).length + (finBit v p).toNat := by
  rw [occupied, length_numbered, seqItems, List.length_append, List.length_append, List.length_map]
  cases synBit v p <;> cases finBit v p <;> rfl

end Segment

/-! ### The two fragments -/

section Split

variable {v : IpVersion} {p p1 p2 : Bytes} (hp : HelloSegment v p) (hs : SplitOf v p p1 p2)
include hp

/-- A fragment whose header is that of `p` outside the rewritten octets and the sequence number. -/
theorem control_eq {q : Bytes} (hframe : ∀ i < ipHeaderLen v p + tcpHeaderLen v p,
      ¬ rewritten v (ipHeaderLen v p) i → ¬ (ipHeaderLen v p + 4 ≤ i ∧ i < ipHeaderLen v p + 8) →
        q[i]? = p[i]?) :
    tcpFlags v q = tcpFlags v p ∧ urgentPointer v q = urgentPointer v p := by
  have h20 := hp.bounds.1
  have hoff := hp.offset
  have hl : ipHeaderLen v q = ipHeaderLen v p :=
    ipHeaderLen_congr (hframe 0 (by omega) (not_rewritten_zero v _) (by omega))
  have hseg : ∀ i, ipHeaderLen v p + 13 ≤ i → i < ipHeaderLen v p + 20 →
      (i ≠ ipHeaderLen v p + 16 ∧ i ≠ ipHeaderLen v p + 17) → q[i]? = p[i]? := fun i hi hi' hne =>
    hframe i (by omega) (not_rewritten_segment hp.header (by omega) hne) (by omega)
  constructor
  · rw [tcpFlags, tcpFlags, segment, segment, octet_drop, octet_drop, hl]
    exact octet_congr (hseg _ (by omega) (by omega) (by omega))
  · rw [urgentPointer, urgentPointer, segment, segment, slice_drop, slice_drop, hl]
    exact congrArg val (slice_congr fun i hi hi' => hseg i (by omega) (by omega) (by omega))

include hs

/-- **The fragments stand for the segment exactly when it has none of the three bits.** -/
theorem sameSequenceSpace_iff : SameSequenceSpace v p p1 p2 ↔
    synBit v p = false ∧ finBit v p = false ∧ urgBit v p = false := by
  obtain ⟨hf1, hu1⟩ := control_eq hp fun i hi hr _ => hs.frame₁ i hi hr
  obtain ⟨hf2, hu2⟩ := control_eq hp hs.frame₂
  have hlen : (tcpPayload v p1).length + (tcpPayload v p2).length = (tcpPayload v p).length := by
    rw [← hs.payload, List.length_append]
  have hpos : 0 < (tcpPayload v p1).length := List.length_pos_iff.mpr hs.nonempty₁
  have hmax : (tcpPayload v p).length ≤ 65575 := by
    have := hp.bounds.2.2
    have hle : (tcpPayload v p).length ≤ p.length := by rw [tcpPayload_eq, List.length_drop]; omega
    cases v <;> simp only [maxLength] at this <;> omega
  have hsyn : ∀ q, tcpFlags v q = tcpFlags v p → synBit v q = synBit v p := fun q hq => by
    rw [synBit, hq, synBit]
  have hfin : ∀ q, tcpFlags v q = tcpFlags v p → finBit v q = finBit v p := fun q hq => by
    rw [finBit, hq, finBit]
  have hurg : ∀ q, tcpFlags v q = tcpFlags v p → urgBit v q = urgBit v p := fun q hq => by
    rw [urgBit, hq, urgBit]
  constructor
  · intro h
    -- a copied SYN or FIN makes the two lists one entry too long
    have hcount := congrArg List.length h.items
    rw [List.length_append, length_occupied, length_occupied, length_occupied, hsyn _ hf1, hsyn _ hf2,
      hfin _ hf1, hfin _ hf2] at hcount
    refine ⟨?_, ?_, ?_⟩
    · cases hb : synBit v p
      · rfl
      · rw [hb] at hcount
        simp only [Bool.toNat_true] at hcount
        omega
    · cases hb : finBit v p
      · rfl
      · rw [hb] at hcount
        simp only [Bool.toNat_true] at hcount
        omega
    · cases hb : urgBit v p
      · rfl
      · -- the second pointer is further on by the length of the first payload
        have h2 := h.urgent p2 (by simp)
        rw [urgentNumber, urgentNumber, hurg _ hf2, hb, hu2, hs.seq₂, hs.seq₁] at h2
        simp only [if_true, reduceCtorEq, Option.some.injEq, false_or] at h2
        omega
  · rintro ⟨hsyn0, hfin0, hurg0⟩
    have hitems : ∀ q, tcpFlags v q = tcpFlags v p → seqItems v q = (tcpPayload v q).map .octet :=
      fun q hq => by
        rw [seqItems, hsyn q hq, hfin q hq, hsyn0, hfin0]
        simp
    have hnone : ∀ q, tcpFlags v q = tcpFlags v p → urgentNumber v q = none := fun q hq => by
      rw [urgentNumber, hurg q hq, hurg0]
      rfl
    refine ⟨?_, ?_, fun h => absurd (hnone p rfl) h⟩
    · rw [occupied, occupied, occupied, hitems _ hf1, hitems _ hf2, hitems _ rfl, ← hs.payload,
        List.map_append, numbered_append, List.length_map, hs.seq₂, numbered_mod, hs.seq₁]
    · intro q hq
      simp only [List.mem_cons, List.not_mem_nil, or_false] at hq
      obtain rfl | rfl := hq
      · exact .inl (hnone _ hf1)
      · exact .inl (hnone _ hf2)

end Split

/-- **A split keeps the sequence space exactly when `SYN`, `FIN` and `URG` are clear.** -/
theorem processPacket_sequence_iff (env : PacketEnv) (config : BypassConfig) (v : IpVersion) (pkt : Bytes)
    (length : ℕ) (hlen : length ≤ pkt.length) (hp : HelloSegment v (pkt.take length)) :
    ∃ p1 p2, (processPacket env pkt length config).outcome [] =
        (pure true, if isSet config.disorderPosition then [p2, p1] else [p1, p2]) ∧
      (SameSequenceSpace v (pkt.take length) p1 p2 ↔ synBit v (pkt.take length) = false ∧
        finBit v (pkt.take length) = false ∧ urgBit v (pkt.take length) = false) := by
  obtain ⟨p1, p2, hrun, hsplit⟩ := processPacket_segment env config v pkt length hlen hp []
  exact ⟨p1, p2, hrun, sameSequenceSpace_iff hp hsplit⟩

theorem processPacket_sequence_iff_helloPacket :
    ∃ p1 p2, (processPacket ⟨fun _ => pure [], lowRandom⟩ helloPacket 49 (loadPreset "minimal")).outcome [] =
        (pure true, [p1, p2]) ∧
      (SameSequenceSpace .v4 helloPacket p1 p2 ↔ synBit .v4 helloPacket = false ∧
        finBit .v4 helloPacket = false ∧ urgBit .v4 helloPacket = false) :=
  processPacket_sequence_iff ⟨fun _ => pure [], lowRandom⟩ (loadPreset "minimal") .v4 helloPacket 49
    (by decide) helloPacket_wellFormed.segment

/-- `helloPacket` with `FIN` set. -/
def finPacket : Bytes := helloPacket.set 33 0x19

theorem finPacket_wellFormed : HelloSegment .v4 finPacket where
  version := by decide
  header := by decide
  protocol := by decide
  size := by decide
  port := by decide
  offset := by decide
  hello := ⟨by decide, by decide, by decide, by decide, by decide, by decide⟩

/-- Both fragments of `finPacket` carry the `FIN`. -/
theorem processPacket_finPacket :
    ∃ p1 p2, (processPacket ⟨fun _ => pure [], lowRandom⟩ finPacket 49 (loadPreset "minimal")).outcome [] =
        (pure true, [p1, p2]) ∧ ¬ SameSequenceSpace .v4 finPacket p1 p2 := by
  obtain ⟨p1, p2, hrun, hsplit⟩ := processPacket_segment ⟨fun _ => pure [], lowRandom⟩
    (loadPreset "minimal") .v4 finPacket 49 (by decide) finPacket_wellFormed []
  refine ⟨p1, p2, hrun, fun h => ?_⟩
  have hfin := ((sameSequenceSpace_iff finPacket_wellFormed hsplit).mp h).2.1
  revert hfin
  decide

end BypassVpn
