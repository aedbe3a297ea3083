import BypassVpn.Packet.Checksum

/-!
# What the checksum routines guarantee

* `HeaderRight`, `SegmentRight`: a packet in which one checksum has been made right, and nothing else
  changed.
* `recalcIpv4HeaderChecksum_again`, `recalcSegmentChecksum_again`: a second call changes nothing.
* **`checksum_routines_verify`**: all routines, for packets of any length.
-/

namespace BypassVpn

open Region OnesComplement

/-- `r` is `pkt` with a header checksum that verifies. -/
structure HeaderRight (pkt : Bytes) (h : ℕ) (r : Bytes) : Prop where
  length_eq : r.length = pkt.length
  frame : ∀ i, ¬ (i = 10 ∨ i = 11) → r[i]? = pkt[i]?
  verifies : sum16 (r.take h) = 0xFFFF

/-- `r` is `pkt` with a segment checksum that verifies against the pseudo-header of the segment. -/
structure SegmentRight (v : IpVersion) (proto : UInt8) (field : ℕ) (pkt : Bytes) (h : ℕ)
    (r : Bytes) : Prop where
  length_eq : r.length = pkt.length
  frame : ∀ i, ¬ (i = h + field ∨ i = h + field + 1) → r[i]? = pkt[i]?
  verifies : sum16 (pseudoHeader v r proto (r.drop h).length ++ r.drop h) = 0xFFFF

/-- A routine that makes the checksum at `field` of the segment right; on its own result it does
nothing. -/
def MakesRight (routine : Bytes → ℕ → Except Exn Bytes) (v : IpVersion) (proto : UInt8) (field : ℕ) : Prop :=
  ∀ pkt h, minHeaderLen v ≤ h → h + field + 1 < pkt.length →
    ∃ r, routine pkt h = pure r ∧ SegmentRight v proto field pkt h r ∧ routine r h = pure r

/-- A routine that never leaves a zero in the two octets at `field` of the segment. -/
def NeverZero (routine : Bytes → ℕ → Except Exn Bytes) (v : IpVersion) (field : ℕ) : Prop :=
  ∀ pkt h r, minHeaderLen v ≤ h → h + field + 1 < pkt.length → routine pkt h = pure r →
    val (slice r (h + field) 2) ≠ 0

/-! ### A second call -/

theorem recalcIpv4HeaderChecksum_again {pkt r : Bytes} {h : ℕ} (h12 : 12 ≤ h) (hp : h ≤ pkt.length)
    (hr : recalcIpv4HeaderChecksum pkt h = pure r) : recalcIpv4HeaderChecksum r h = pure r := by
  rw [recalcIpv4HeaderChecksum_eq h12 hp] at hr
  obtain rfl := Except.ok.inj hr
  set c := 0xFFFF - sum16 ((patch pkt 10 [0, 0]).take h) with hc
  have hlen : (patch pkt 10 (be 2 c)).length = pkt.length := length_patch (by rw [length_be]; omega)
  have hback : patch (patch pkt 10 (be 2 c)) 10 [0, 0] = patch pkt 10 [0, 0] :=
    patch_patch_self (by simp) (by rw [length_be]; omega)
  rw [recalcIpv4HeaderChecksum_eq h12 (by omega), hback, ← hc,
    patch_patch_self rfl (by rw [length_be]; omega)]

/-- The octets of the field are zeroed before they are read. -/
theorem recalcSegmentChecksum_again {v : IpVersion} {proto : UInt8} {field : ℕ} {final : ℕ → ℕ}
    {pkt r : Bytes} {h : ℕ}
    (hmin : minHeaderLen v ≤ h) (hp : h + field + 1 < pkt.length)
    (hr : recalcSegmentChecksum (pseudoOf v) proto field final pkt h = pure r) :
    recalcSegmentChecksum (pseudoOf v) proto field final r h = pure r := by
  have hzero : (patch pkt (h + field) [0, 0]).length = pkt.length := length_patch (by simp; omega)
  have hps : pseudoOf v (patch pkt (h + field) [0, 0]) h proto (pkt.length - h) =
      pure (pseudoHeader v (patch pkt (h + field) [0, 0]) proto (pkt.length - h) ++
        (patch pkt (h + field) [0, 0]).drop h) := pseudoOf_eq hmin (by omega) proto
  rw [recalcSegmentChecksum_eq hp hps] at hr
  obtain rfl := Except.ok.inj hr
  set c := final (0xFFFF - sum16 (pseudoHeader v (patch pkt (h + field) [0, 0]) proto (pkt.length - h) ++
    (patch pkt (h + field) [0, 0]).drop h)) with hc
  have hlen : (patch pkt (h + field) (be 2 c)).length = pkt.length := length_patch (by rw [length_be]; omega)
  have hback : patch (patch pkt (h + field) (be 2 c)) (h + field) [0, 0] = patch pkt (h + field) [0, 0] :=
    patch_patch_self (by simp) (by rw [length_be]; omega)
  rw [recalcSegmentChecksum_eq (by omega) (by rw [hback, hlen]; exact hps), ← hc,
    patch_patch_self rfl (by rw [length_be]; omega)]

/-! ### The routines -/

theorem recalcIpv4HeaderChecksum_right (pkt : Bytes) (h : ℕ) (h20 : 20 ≤ h) (hp : h ≤ pkt.length) :
    ∃ r, recalcIpv4HeaderChecksum pkt h = pure r ∧ HeaderRight pkt h r ∧
      recalcIpv4HeaderChecksum r h = pure r := by
  obtain ⟨c, -, hrun, hsum⟩ := recalcIpv4HeaderChecksum_spec pkt h (by omega) hp
  refine ⟨_, hrun, ⟨?_, fun i hi => ?_, hsum⟩, recalcIpv4HeaderChecksum_again (by omega) hp hrun⟩
  · exact length_patch (by rw [length_be]; omega)
  · exact getElem?_patch (by rw [length_be]; omega) (by rw [length_be]; omega)

section Segments

variable (v : IpVersion) (proto : UInt8) {field : ℕ} (hfield : field % 2 = 0)
include hfield

theorem recalcSegmentChecksum_right {final : ℕ → ℕ} (hfinal : final = id ∨ final = nonZero) :
    MakesRight (recalcSegmentChecksum (pseudoOf v) proto field final) v proto field := by
  intro pkt h hmin hp
  obtain ⟨c, -, -, hrun, hsum⟩ := recalcSegmentChecksum_spec v proto field final pkt h hfinal hfield hmin hp
  have hlen : (patch pkt (h + field) (be 2 c)).length = pkt.length := length_patch (by rw [length_be]; omega)
  refine ⟨_, hrun, ⟨hlen, fun i hi => ?_, ?_⟩, recalcSegmentChecksum_again hmin hp hrun⟩
  · exact getElem?_patch (by rw [length_be]; omega) (by rw [length_be]; omega)
  · rw [List.length_drop, hlen]
    exact hsum

theorem recalcSegmentChecksum_neverZero :
    NeverZero (recalcSegmentChecksum (pseudoOf v) proto field nonZero) v field := by
  intro pkt h r hmin hp hr
  obtain ⟨c, hc, hne, hrun, -⟩ :=
    recalcSegmentChecksum_spec v proto field nonZero pkt h (Or.inr rfl) hfield hmin hp
  rw [hrun] at hr
  obtain rfl := Except.ok.inj hr
  rw [slice_patch_be (by omega), val_be_of_lt hc]
  exact hne rfl

end Segments

/-- **The checksum routines produce packets that verify.** `internetChecksum` is the complement of the
one's-complement sum of any region; each of the five routines changes the two octets of its checksum
only, makes the receiver's sum `0xFFFF` and changes nothing when it is called again; a UDP checksum is
never zero. -/
theorem checksum_routines_verify :
    (∀ data offset length, offset + length ≤ data.length →
      internetChecksum data offset length = pure (0xFFFF - sum16 (slice data offset length))) ∧
    (∀ pkt h, 20 ≤ h → h ≤ pkt.length →
      ∃ r, recalcIpv4HeaderChecksum pkt h = pure r ∧ HeaderRight pkt h r ∧
        recalcIpv4HeaderChecksum r h = pure r) ∧
    MakesRight recalcTcpChecksumV4 .v4 6 16 ∧ MakesRight recalcTcpChecksumV6 .v6 6 16 ∧
    MakesRight recalcUdpChecksumV4 .v4 17 6 ∧ MakesRight recalcUdpChecksumV6 .v6 17 6 ∧
    NeverZero recalcUdpChecksumV4 .v4 6 ∧ NeverZero recalcUdpChecksumV6 .v6 6 := by
  refine ⟨fun data offset length h => internetChecksum_eq h, recalcIpv4HeaderChecksum_right, ?_, ?_,
    ?_, ?_, ?_, ?_⟩
  · exact recalcSegmentChecksum_right .v4 6 rfl (Or.inl rfl)
  · exact recalcSegmentChecksum_right .v6 6 rfl (Or.inl rfl)
  · exact recalcSegmentChecksum_right .v4 17 rfl (Or.inr rfl)
  · exact recalcSegmentChecksum_right .v6 17 rfl (Or.inr rfl)
  · exact recalcSegmentChecksum_neverZero .v4 17 rfl
  · exact recalcSegmentChecksum_neverZero .v6 17 rfl

/-- A datagram whose sum is zero before its checksum is written, and so is sent with `0xFFFF`. -/
theorem checksum_routines_verify_allOnes :
    ∃ r, recalcUdpChecksumV4 (zeros 20 ++ ([0xFF, 0xE6] ++ zeros 6)) 20 = pure r ∧
      SegmentRight .v4 17 6 (zeros 20 ++ ([0xFF, 0xE6] ++ zeros 6)) 20 r ∧
      recalcUdpChecksumV4 r 20 = pure r :=
  checksum_routines_verify.2.2.2.2.1 (zeros 20 ++ ([0xFF, 0xE6] ++ zeros 6)) 20 (by decide) (by decide)

end BypassVpn
