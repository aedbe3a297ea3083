import BypassVpn.Packet.Wire

/-!
# `ChecksumUtils`

The shared checksum and length arithmetic of the packet code, over IPv4 and IPv6.

* `internetChecksum`, `writeChecksum`, `recalcIpv4HeaderChecksum`; the four segment routines
  `recalcTcpChecksumV4`, `recalcUdpChecksumV4`, `recalcTcpChecksumV6`, `recalcUdpChecksumV6` are one
  routine `recalcSegmentChecksum` at their own pseudo-header, protocol number, field offset and
  treatment of zero; `setIpv4TotalLength`, `setIpv6PayloadLength`, `advanceTcpSeq`.
* **`internetChecksum_eq`**: the checksum is the complement of the one's-complement sum.
* What each routine overwrites: `recalcIpv4HeaderChecksum_eq`, `recalcSegmentChecksum_eq` with
  `pseudoV4_eq` and `pseudoV6_eq`, `setIpv4TotalLength_eq`, `setIpv6PayloadLength_eq`,
  `advanceTcpSeq_eq`.
-/

namespace BypassVpn

open Region OnesComplement

/-! ### The routines -/

/-- The loop over 16-bit words: `while (i < stop - 1)`. The fuel bounds the number of rounds. -/
def sumWords (data : Bytes) (stop : ℕ) : ℕ → ℕ → ℕ → Except Exn ℕ
  | 0, _, sum => pure sum
  | fuel + 1, i, sum =>
    if i + 1 < stop then do
      let hi ← aget data i
      let lo ← aget data (i + 1)
      sumWords data stop fuel (i + 2) (sum + (hi.toNat <<< 8 ||| lo.toNat))
    else pure sum

/-- The carry loop: `while (sum shr 16 != 0L) sum = (sum and 0xFFFF) + (sum shr 16)`. -/
def foldCarry : ℕ → ℕ → ℕ
  | 0, sum => sum
  | fuel + 1, sum =>
    if sum >>> 16 ≠ 0 then foldCarry fuel ((sum &&& 0xFFFF) + (sum >>> 16)) else sum

/-- The Internet checksum of a region. -/
def internetChecksum (data : Bytes) (offset length : ℕ) : Except Exn ℕ := do
  let mut sum ← sumWords data (offset + length) length offset 0
  if length % 2 ≠ 0 then
    let last ← aget data (offset + length - 1)
    sum := sum + last.toNat <<< 8
  -- `sum.inv() and 0xFFFF` of a 16-bit value
  pure (0xFFFF - foldCarry sum sum)

/-- The two octets of a checksum. -/
def writeChecksum (pkt : Bytes) (at' cs : ℕ) : Except Exn Bytes := do
  let pkt ← aset pkt at' (UInt8.ofNat (cs >>> 8))
  aset pkt (at' + 1) (UInt8.ofNat cs)

/-- `recalcIpv4HeaderChecksum`. -/
def recalcIpv4HeaderChecksum (pkt : Bytes) (ipHdrLen : ℕ) : Except Exn Bytes := do
  let pkt ← aset pkt 10 0
  let pkt ← aset pkt 11 0
  let cs ← internetChecksum pkt 0 ipHdrLen
  writeChecksum pkt 10 cs

/-- The IPv4 pseudo-header followed by the segment. -/
def pseudoV4 (pkt : Bytes) (ipHdrLen : ℕ) (proto : UInt8) (segLen : ℕ) : Except Exn Bytes := do
  let pseudo := zeros (12 + segLen)
  let pseudo ← arraycopy pkt 12 pseudo 0 4
  let pseudo ← arraycopy pkt 16 pseudo 4 4
  let pseudo ← aset pseudo 8 0
  let pseudo ← aset pseudo 9 proto
  let pseudo ← aset pseudo 10 (UInt8.ofNat (segLen >>> 8))
  let pseudo ← aset pseudo 11 (UInt8.ofNat segLen)
  arraycopy pkt ipHdrLen pseudo 12 segLen

/-- The IPv6 pseudo-header followed by the segment. -/
def pseudoV6 (pkt : Bytes) (ipHdrLen : ℕ) (proto : UInt8) (segLen : ℕ) : Except Exn Bytes := do
  let pseudo := zeros (40 + segLen)
  let pseudo ← arraycopy pkt 8 pseudo 0 16
  let pseudo ← arraycopy pkt 24 pseudo 16 16
  let pseudo ← aset pseudo 32 (UInt8.ofNat (segLen >>> 24))
  let pseudo ← aset pseudo 33 (UInt8.ofNat (segLen >>> 16))
  let pseudo ← aset pseudo 34 (UInt8.ofNat (segLen >>> 8))
  let pseudo ← aset pseudo 35 (UInt8.ofNat segLen)
  let pseudo ← aset pseudo 36 0
  let pseudo ← aset pseudo 37 0
  let pseudo ← aset pseudo 38 0
  let pseudo ← aset pseudo 39 proto
  arraycopy pkt ipHdrLen pseudo 40 segLen

/-- Recompute the checksum field at offset `field` of the segment behind the IP header. -/
def recalcSegmentChecksum (pseudoOf : Bytes → ℕ → UInt8 → ℕ → Except Exn Bytes) (proto : UInt8)
    (field : ℕ) (final : ℕ → ℕ) (pkt : Bytes) (ipHdrLen : ℕ) : Except Exn Bytes := do
  let segLen := pkt.length - ipHdrLen
  let pkt ← aset pkt (ipHdrLen + field) 0
  let pkt ← aset pkt (ipHdrLen + field + 1) 0
  let pseudo ← pseudoOf pkt ipHdrLen proto segLen
  let cs ← internetChecksum pseudo 0 pseudo.length
  writeChecksum pkt (ipHdrLen + field) (final cs)

/-- UDP sends a zero checksum as `0xFFFF`. -/
def nonZero (cs : ℕ) : ℕ := if cs = 0 then 0xFFFF else cs

/-- `recalcTcpChecksumV4`. -/
def recalcTcpChecksumV4 : Bytes → ℕ → Except Exn Bytes := recalcSegmentChecksum pseudoV4 6 16 id

/-- `recalcUdpChecksumV4`. -/
def recalcUdpChecksumV4 : Bytes → ℕ → Except Exn Bytes := recalcSegmentChecksum pseudoV4 17 6 nonZero

/-- `recalcTcpChecksumV6`. -/
def recalcTcpChecksumV6 : Bytes → ℕ → Except Exn Bytes := recalcSegmentChecksum pseudoV6 6 16 id

/-- `recalcUdpChecksumV6`. -/
def recalcUdpChecksumV6 : Bytes → ℕ → Except Exn Bytes := recalcSegmentChecksum pseudoV6 17 6 nonZero

/-- `setIpv4TotalLength`. -/
def setIpv4TotalLength (pkt : Bytes) (totalLen : ℕ) : Except Exn Bytes := do
  let pkt ← aset pkt 2 (UInt8.ofNat (totalLen >>> 8))
  aset pkt 3 (UInt8.ofNat totalLen)

def IPV6_HEADER_LEN : ℕ := 40

/-- `setIpv6PayloadLength`. -/
def setIpv6PayloadLength (pkt : Bytes) (payloadLen : ℕ) : Except Exn Bytes := do
  let pkt ← aset pkt 4 (UInt8.ofNat (payloadLen >>> 8))
  aset pkt 5 (UInt8.ofNat payloadLen)

/-- Add `delta` to the sequence number, in 32-bit arithmetic. -/
def advanceTcpSeq (pkt : Bytes) (ipHdrLen delta : ℕ) : Except Exn Bytes := do
  let seqOffset := ipHdrLen + 4
  let b0 ← aget pkt seqOffset
  let b1 ← aget pkt (seqOffset + 1)
  let b2 ← aget pkt (seqOffset + 2)
  let b3 ← aget pkt (seqOffset + 3)
  let seq := b0.toNat <<< 24 ||| b1.toNat <<< 16 ||| b2.toNat <<< 8 ||| b3.toNat
  let seq := (seq + delta) % 2 ^ 32
  let pkt ← aset pkt seqOffset (UInt8.ofNat (seq >>> 24))
  let pkt ← aset pkt (seqOffset + 1) (UInt8.ofNat (seq >>> 16))
  let pkt ← aset pkt (seqOffset + 2) (UInt8.ofNat (seq >>> 8))
  aset pkt (seqOffset + 3) (UInt8.ofNat seq)

/-! ### The checksum -/

theorem sumWords_eq (data : Bytes) {stop : ℕ} (hs : stop ≤ data.length) (fuel i sum : ℕ)
    (hi : i ≤ stop) (hf : stop - i ≤ fuel + 1) :
    sumWords data stop fuel i sum = pure (sum + wordSum (slice data i (2 * ((stop - i) / 2)))) := by
  induction fuel generalizing i sum with
  | zero =>
    have h0 : (stop - i) / 2 = 0 := by omega
    simp [sumWords, h0, slice, wordSum, words]
  | succ fuel ih =>
    by_cases h : i + 1 < stop
    · have hsplit : slice data i (2 * ((stop - i) / 2)) =
          data[i] :: data[i + 1] :: slice data (i + 2) (2 * ((stop - (i + 2)) / 2)) := by
        rw [show 2 * ((stop - i) / 2) = 2 + 2 * ((stop - (i + 2)) / 2) by omega,
          ← slice_append_slice, slice_two (by omega)]
        rfl
      rw [sumWords, if_pos h, aget_eq (by omega), aget_eq (by omega), pure_bind, pure_bind,
        ih _ _ (by omega) (by omega), hsplit, wordSum_cons_cons, shl_or_eq, val_pair, Nat.add_assoc]
    · have h0 : (stop - i) / 2 = 0 := by omega
      rw [sumWords, if_neg h]
      simp [h0, slice, wordSum, words]

theorem foldCarry_eq (fuel sum : ℕ) (h : sum ≤ fuel) : foldCarry fuel sum = norm16 sum := by
  induction fuel generalizing sum with
  | zero => rw [Nat.le_zero.mp h]; rfl
  | succ fuel ih =>
    have hand : sum &&& 0xFFFF = sum % 65536 := Nat.and_two_pow_sub_one_eq_mod sum 16
    rw [foldCarry, Nat.shiftRight_eq_div_pow, hand]
    split_ifs with hc
    · rw [ih _ (by omega)]
      unfold norm16
      split_ifs <;> omega
    · rw [norm16_of_lt (by omega)]

theorem wordSum_slice_odd {data : Bytes} {offset length : ℕ} (h : offset + length ≤ data.length)
    (hodd : length % 2 ≠ 0) : wordSum (slice data offset length) =
      wordSum (slice data offset (2 * (length / 2))) + (data[offset + length - 1]).toNat <<< 8 := by
  have hsplit : slice data offset length =
      slice data offset (2 * (length / 2)) ++ [data[offset + length - 1]] := by
    have h1 := slice_append_slice data offset (2 * (length / 2)) 1
    rw [slice_one (by omega), show 2 * (length / 2) + 1 = length by omega] at h1
    rw [← h1]
    congr 3
    omega
  rw [hsplit, wordSum_append _ _ (by rw [length_slice (by omega)]; omega), Nat.shiftLeft_eq]
  simp [wordSum, words]

/-- **The Internet checksum is the complement of the one's-complement sum.** -/
theorem internetChecksum_eq {data : Bytes} {offset length : ℕ} (h : offset + length ≤ data.length) :
    internetChecksum data offset length = pure (0xFFFF - sum16 (slice data offset length)) := by
  have hloop := sumWords_eq data h length offset 0 (by omega) (by omega)
  rw [Nat.add_sub_cancel_left, Nat.zero_add] at hloop
  rw [internetChecksum, hloop, pure_bind, sum16_eq]
  by_cases hodd : length % 2 ≠ 0
  · simp only [if_pos hodd]
    rw [aget_eq (by omega), wordSum_slice_odd h hodd]
    simp [foldCarry_eq]
  · simp only [if_neg hodd]
    rw [show 2 * (length / 2) = length by omega]
    simp [foldCarry_eq]

theorem writeChecksum_eq {pkt : Bytes} {i : ℕ} (h : i + 1 < pkt.length) (cs : ℕ) :
    writeChecksum pkt i cs = pure (patch pkt i (be 2 cs)) := by
  rw [writeChecksum, aset_aset_eq h, be_two, Nat.shiftRight_eq_div_pow]

theorem setIpv4TotalLength_eq {pkt : Bytes} (h : 3 < pkt.length) (n : ℕ) :
    setIpv4TotalLength pkt n = pure (patch pkt 2 (be 2 n)) := by
  rw [setIpv4TotalLength, aset_aset_eq h, be_two, Nat.shiftRight_eq_div_pow]

theorem setIpv6PayloadLength_eq {pkt : Bytes} (h : 5 < pkt.length) (n : ℕ) :
    setIpv6PayloadLength pkt n = pure (patch pkt 4 (be 2 n)) := by
  rw [setIpv6PayloadLength, aset_aset_eq h, be_two, Nat.shiftRight_eq_div_pow]

/-- The IPv4 header checksum routine overwrites two octets. -/
theorem recalcIpv4HeaderChecksum_eq {pkt : Bytes} {h : ℕ} (h12 : 12 ≤ h) (hp : h ≤ pkt.length) :
    recalcIpv4HeaderChecksum pkt h =
      pure (patch pkt 10 (be 2 (0xFFFF - sum16 ((patch pkt 10 [0, 0]).take h)))) := by
  have hlen : (patch pkt 10 [0, 0]).length = pkt.length := length_patch (by simp; omega)
  rw [recalcIpv4HeaderChecksum, ← bind_assoc, aset_aset_eq (by omega), pure_bind,
    internetChecksum_eq (by omega), pure_bind, writeChecksum_eq (by omega),
    patch_patch_self (by simp) (by simp; omega), slice_zero]

/-! ### Pseudo-headers -/

theorem zeros_add (m n : ℕ) : zeros (m + n) = zeros m ++ zeros n := List.replicate_add m n 0

/-- Storing at the end of the filled part of a fresh array. -/
theorem aset_fill {a : Bytes} {i n : ℕ} (hi : i = a.length) (b : UInt8) :
    aset (a ++ zeros (1 + n)) i b = pure ((a ++ [b]) ++ zeros n) := by
  rw [aset_eq (by simp [zeros, hi]), patch_append hi, zeros_add]
  simp [zeros]

/-- Copying to the end of the filled part of a fresh array. -/
theorem arraycopy_fill {a src : Bytes} {i j m n : ℕ} (hi : i = a.length) (hj : j + m ≤ src.length) :
    arraycopy src j (a ++ zeros (m + n)) i m = pure ((a ++ slice src j m) ++ zeros n) := by
  rw [arraycopy_eq hj (by simp [zeros, hi]), patch_append hi, length_slice hj, zeros_add]
  simp [zeros]

theorem pseudoV4_eq {pkt : Bytes} {h n : ℕ} (h20 : 20 ≤ pkt.length) (hn : h + n = pkt.length)
    (proto : UInt8) :
    pseudoV4 pkt h proto n = pure (pseudoHeader .v4 pkt proto n ++ pkt.drop h) := by
  have h1 : (slice pkt 12 4).length = 4 := length_slice (by omega)
  have h2 : (slice pkt 16 4).length = 4 := length_slice (by omega)
  have hz : zeros (12 + n) = [] ++ zeros (4 + (4 + (1 + (1 + (1 + (1 + (n + 0))))))) := by
    rw [List.nil_append]; congr 1; omega
  have hd : slice pkt h n = pkt.drop h := List.take_of_length_le (by simp; omega)
  rw [pseudoV4]
  simp only [hz]
  rw [arraycopy_fill (by simp) (by omega), pure_bind, arraycopy_fill (by simp [h1]) (by omega), pure_bind,
    aset_fill (by simp [h1, h2]), pure_bind, aset_fill (by simp [h1, h2]), pure_bind,
    aset_fill (by simp [h1, h2]), pure_bind, aset_fill (by simp [h1, h2]), pure_bind,
    arraycopy_fill (by simp [h1, h2]) (by omega), hd]
  simp [pseudoHeader, ipSource, ipDestination, be_two, Nat.shiftRight_eq_div_pow, zeros]

theorem pseudoV6_eq {pkt : Bytes} {h n : ℕ} (h40 : 40 ≤ pkt.length) (hn : h + n = pkt.length)
    (proto : UInt8) :
    pseudoV6 pkt h proto n = pure (pseudoHeader .v6 pkt proto n ++ pkt.drop h) := by
  have h1 : (slice pkt 8 16).length = 16 := length_slice (by omega)
  have h2 : (slice pkt 24 16).length = 16 := length_slice (by omega)
  have hz : zeros (40 + n) = [] ++ zeros (16 + (16 + (1 + (1 + (1 + (1 + (1 + (1 + (1 + (1 +
      (n + 0))))))))))) := by
    rw [List.nil_append]; congr 1; omega
  have hd : slice pkt h n = pkt.drop h := List.take_of_length_le (by simp; omega)
  rw [pseudoV6]
  simp only [hz]
  rw [arraycopy_fill (by simp) (by omega), pure_bind, arraycopy_fill (by simp [h1]) (by omega), pure_bind,
    aset_fill (by simp [h1, h2]), pure_bind, aset_fill (by simp [h1, h2]), pure_bind,
    aset_fill (by simp [h1, h2]), pure_bind, aset_fill (by simp [h1, h2]), pure_bind,
    aset_fill (by simp [h1, h2]), pure_bind, aset_fill (by simp [h1, h2]), pure_bind,
    aset_fill (by simp [h1, h2]), pure_bind, aset_fill (by simp [h1, h2]), pure_bind,
    arraycopy_fill (by simp [h1, h2]) (by omega), hd]
  simp [pseudoHeader, ipSource, ipDestination, be_four, Nat.shiftRight_eq_div_pow, zeros,
    Nat.div_div_eq_div_mul]

/-- A segment routine overwrites its checksum field, given the pseudo-header it builds. -/
theorem recalcSegmentChecksum_eq {pseudoOf : Bytes → ℕ → UInt8 → ℕ → Except Exn Bytes}
    {proto : UInt8} {field : ℕ} {final : ℕ → ℕ} {pkt pseudo : Bytes} {h : ℕ}
    (hp : h + field + 1 < pkt.length)
    (hps : pseudoOf (patch pkt (h + field) [0, 0]) h proto (pkt.length - h) = pure pseudo) :
    recalcSegmentChecksum pseudoOf proto field final pkt h =
      pure (patch pkt (h + field) (be 2 (final (0xFFFF - sum16 pseudo)))) := by
  have hlen : (patch pkt (h + field) [0, 0]).length = pkt.length := length_patch (by simp; omega)
  rw [recalcSegmentChecksum, ← bind_assoc, aset_aset_eq hp, pure_bind, hps, pure_bind,
    internetChecksum_eq (by omega), pure_bind, slice_full, writeChecksum_eq (by omega),
    patch_patch_self (by simp) (by simp; omega)]

/-! ### The routines verify -/

/-- The pseudo-header builder of an IP version. -/
def pseudoOf : IpVersion → Bytes → ℕ → UInt8 → ℕ → Except Exn Bytes
  | .v4 => pseudoV4
  | .v6 => pseudoV6

theorem pseudoOf_eq {v : IpVersion} {pkt : Bytes} {h n : ℕ} (hmin : minHeaderLen v ≤ h)
    (hn : h + n = pkt.length) (proto : UInt8) :
    pseudoOf v pkt h proto n = pure (pseudoHeader v pkt proto n ++ pkt.drop h) := by
  cases v <;> simp only [minHeaderLen] at hmin
  · exact pseudoV4_eq (by omega) hn proto
  · exact pseudoV6_eq (by omega) hn proto

/-- The pseudo-header does not look behind the addresses. -/
theorem pseudoHeader_patch {v : IpVersion} {pkt bs : Bytes} {i : ℕ} (hmin : minHeaderLen v ≤ i)
    (hi : i ≤ pkt.length) (proto : UInt8) (n : ℕ) :
    pseudoHeader v (patch pkt i bs) proto n = pseudoHeader v pkt proto n := by
  cases v <;> simp only [minHeaderLen] at hmin <;> simp only [pseudoHeader, ipSource, ipDestination]
  · rw [slice_patch_left (by omega) hi, slice_patch_left (by omega) hi]
  · rw [slice_patch_left (by omega) hi, slice_patch_left (by omega) hi]

theorem nonZero_lt {c : ℕ} (h : c < 65536) : nonZero c < 65536 := by
  unfold nonZero; split_ifs <;> omega

theorem nonZero_ne_zero (c : ℕ) : nonZero c ≠ 0 := by
  unfold nonZero; split_ifs <;> omega

/-- **A segment routine writes a checksum that verifies**, and nothing else. -/
theorem recalcSegmentChecksum_spec (v : IpVersion) (proto : UInt8) (field : ℕ) (final : ℕ → ℕ)
    (pkt : Bytes) (h : ℕ) (hfinal : final = id ∨ final = nonZero) (hfield : field % 2 = 0)
    (hmin : minHeaderLen v ≤ h) (hp : h + field + 1 < pkt.length) :
    ∃ c < 65536, (final = nonZero → c ≠ 0) ∧
      recalcSegmentChecksum (pseudoOf v) proto field final pkt h =
        pure (patch pkt (h + field) (be 2 c)) ∧
      sum16 (pseudoHeader v (patch pkt (h + field) (be 2 c)) proto (pkt.length - h) ++
        (patch pkt (h + field) (be 2 c)).drop h) = 0xFFFF := by
  set as := pseudoHeader v pkt proto (pkt.length - h) ++ (pkt.drop h).take field with has
  set bs := (pkt.drop h).drop (field + 2) with hbs
  have heven : as.length % 2 = 0 := by
    have := length_pseudoHeader (v := v) (p := pkt) (by omega) proto (pkt.length - h)
    rw [has, List.length_append, List.length_take, List.length_drop]; omega
  -- the covered octets around the field
  have hcover : ∀ cs : Bytes, cs.length = 2 →
      pseudoHeader v (patch pkt (h + field) cs) proto (pkt.length - h) ++
        (patch pkt (h + field) cs).drop h = as ++ cs ++ bs := by
    intro cs hcs
    rw [pseudoHeader_patch (by omega) (by omega), drop_patch_left (by omega) (by omega),
      Nat.add_sub_cancel_left, patch, hcs, has, hbs]
    simp only [List.append_assoc]
  have hps : pseudoOf v (patch pkt (h + field) [0, 0]) h proto (pkt.length - h) =
      pure (as ++ [0, 0] ++ bs) := by
    rw [← hcover [0, 0] rfl]
    exact pseudoOf_eq hmin (by rw [length_patch (by simp; omega)]; omega) proto
  have hrun : recalcSegmentChecksum (pseudoOf v) proto field final pkt h = _ :=
    recalcSegmentChecksum_eq hp hps
  have hsum := norm16_lt (wordSum (as ++ [0, 0] ++ bs))
  rcases hfinal with rfl | rfl
  · refine ⟨_, by simp only [id]; omega, fun h => ?_, hrun, ?_⟩
    · have := congrFun h 0
      simp [nonZero] at this
    · rw [hcover _ (length_be 2 _)]
      exact sum16_complement heven
  · refine ⟨_, nonZero_lt (by omega), fun _ => nonZero_ne_zero _, hrun, ?_⟩
    rw [hcover _ (length_be 2 _)]
    exact sum16_complement_nonzero heven

/-- **The header routine writes a checksum that verifies**, and nothing else. -/
theorem recalcIpv4HeaderChecksum_spec (pkt : Bytes) (h : ℕ) (h12 : 12 ≤ h) (hp : h ≤ pkt.length) :
    ∃ c < 65536, recalcIpv4HeaderChecksum pkt h = pure (patch pkt 10 (be 2 c)) ∧
      sum16 ((patch pkt 10 (be 2 c)).take h) = 0xFFFF := by
  have hcover : ∀ cs : Bytes, cs.length = 2 →
      (patch pkt 10 cs).take h = (pkt.take h).take 10 ++ cs ++ (pkt.take h).drop 12 := by
    intro cs hcs
    rw [take_patch_right (by omega) hp, patch, hcs]
  refine ⟨_, ?_, recalcIpv4HeaderChecksum_eq h12 hp, ?_⟩
  · omega
  · rw [hcover _ (length_be 2 _), hcover [0, 0] rfl]
    exact sum16_complement (by rw [List.length_take, List.length_take]; omega)

/-! ### All checksums of a packet -/

/-- Recompute the header checksum, where there is one, and then the segment's. -/
def recalcChecksums (v : IpVersion) (proto : UInt8) (field : ℕ) (final : ℕ → ℕ) (pkt : Bytes)
    (ipHdrLen : ℕ) : Except Exn Bytes :=
  match v with
  | .v6 => recalcSegmentChecksum (pseudoOf .v6) proto field final pkt ipHdrLen
  | .v4 => do
    let pkt ← recalcIpv4HeaderChecksum pkt ipHdrLen
    recalcSegmentChecksum (pseudoOf .v4) proto field final pkt ipHdrLen

/-- The octets that hold a checksum. -/
def checksumOctet (v : IpVersion) (h field i : ℕ) : Prop :=
  v = .v4 ∧ (i = 10 ∨ i = 11) ∨ i = h + field ∨ i = h + field + 1

/-- `r` is `q` with all its checksums right. -/
structure Checksummed (v : IpVersion) (proto : UInt8) (field : ℕ) (q r : Bytes) : Prop where
  length_eq : r.length = q.length
  frame : ∀ i, ¬ checksumOctet v (ipHeaderLen v q) field i → r[i]? = q[i]?
  header : ipHeaderVerifies v r
  segment : segmentVerifies v r proto

theorem recalcSegment_checksummed {v : IpVersion} {q : Bytes} (proto : UInt8) (field : ℕ) (final : ℕ → ℕ)
    (hfinal : final = id ∨ final = nonZero) (hfield : field % 2 = 0)
    (hmin : minHeaderLen v ≤ ipHeaderLen v q) (hp : ipHeaderLen v q + field + 1 < q.length) :
    ∃ r, recalcSegmentChecksum (pseudoOf v) proto field final q (ipHeaderLen v q) = pure r ∧
      r.length = q.length ∧ ipHeaderLen v r = ipHeaderLen v q ∧
      (∀ i, ¬ (i = ipHeaderLen v q + field ∨ i = ipHeaderLen v q + field + 1) → r[i]? = q[i]?) ∧
      segmentVerifies v r proto ∧
      (final = nonZero → val (slice r (ipHeaderLen v q + field) 2) ≠ 0) := by
  set h := ipHeaderLen v q with hh
  obtain ⟨c, hc, hne, hrun, hsum⟩ := recalcSegmentChecksum_spec v proto field final q h hfinal hfield hmin hp
  set r := patch q (h + field) (be 2 c) with hr
  have hlen : r.length = q.length := length_patch (by rw [length_be]; omega)
  have hframe : ∀ i, ¬ (i = h + field ∨ i = h + field + 1) → r[i]? = q[i]? := fun i hi =>
    getElem?_patch (by rw [length_be]; omega) (by rw [length_be]; omega)
  have hpos := twenty_le hmin
  have hrh : ipHeaderLen v r = h := ipHeaderLen_congr (hframe 0 (by omega))
  refine ⟨r, hrun, hlen, hrh, hframe, ?_, fun hf => ?_⟩
  · rw [segmentVerifies, segment, hrh, List.length_drop, hlen]
    exact hsum
  · rw [hr, slice_patch_be (by omega), val_be_of_lt hc]
    exact hne hf

/-- **All checksums of a packet are made right**, and nothing else is changed. -/
theorem recalcChecksums_spec {v : IpVersion} {q : Bytes} (proto : UInt8) (field : ℕ) (final : ℕ → ℕ)
    (hfinal : final = id ∨ final = nonZero) (hfield : field % 2 = 0)
    (hmin : minHeaderLen v ≤ ipHeaderLen v q) (hp : ipHeaderLen v q + field + 1 < q.length) :
    ∃ r, recalcChecksums v proto field final q (ipHeaderLen v q) = pure r ∧
      Checksummed v proto field q r ∧
      (final = nonZero → val (slice r (ipHeaderLen v q + field) 2) ≠ 0) := by
  cases v
  · obtain ⟨c, -, hrun1, hsum⟩ := recalcIpv4HeaderChecksum_spec q (ipHeaderLen .v4 q)
      (by simp only [minHeaderLen] at hmin; omega) (by omega)
    set q1 := patch q 10 (be 2 c) with hq1
    simp only [minHeaderLen] at hmin
    have hlen1 : q1.length = q.length := length_patch (by rw [length_be]; omega)
    have hframe1 : ∀ i, ¬ (i = 10 ∨ i = 11) → q1[i]? = q[i]? := fun i hi =>
      getElem?_patch (by rw [length_be]; omega) (by rw [length_be]; omega)
    have hh1 : ipHeaderLen .v4 q1 = ipHeaderLen .v4 q := ipHeaderLen_congr (hframe1 0 (by omega))
    obtain ⟨r, hrun, hlen, hh, hframe, hseg, hne⟩ := recalcSegment_checksummed (v := .v4) (q := q1) proto
      field final hfinal hfield (by rw [hh1]; exact hmin) (by omega)
    rw [hh1] at hrun hframe hne hh
    refine ⟨r, ?_, ⟨by omega, fun i hi => ?_, ?_, hseg⟩, hne⟩
    · rw [recalcChecksums, hrun1, pure_bind, hrun]
    · simp only [checksumOctet, true_and, not_or] at hi
      rw [hframe i (by omega), hframe1 i (by omega)]
    · have htake : r.take (ipHeaderLen .v4 q) = q1.take (ipHeaderLen .v4 q) :=
        slice_congr (i := 0) fun j _ hj => hframe j (by omega)
      rw [ipHeaderVerifies, hh, htake]
      exact hsum
  · obtain ⟨r, hrun, hlen, hh, hframe, hseg, hne⟩ := recalcSegment_checksummed (v := .v6) (q := q) proto
      field final hfinal hfield hmin hp
    exact ⟨r, hrun, ⟨hlen, fun i hi => hframe i fun h => hi (.inr h), trivial, hseg⟩, hne⟩

/-! ### The length field -/

/-- Set the IP length field for a packet of `len` octets. -/
def setIpLength (v : IpVersion) (pkt : Bytes) (len : ℕ) : Except Exn Bytes :=
  match v with
  | .v4 => setIpv4TotalLength pkt len
  | .v6 => setIpv6PayloadLength pkt (len - IPV6_HEADER_LEN)

/-- The octets of the IP length field. -/
def lengthOctet (v : IpVersion) (i : ℕ) : Prop :=
  match v with
  | .v4 => i = 2 ∨ i = 3
  | .v6 => i = 4 ∨ i = 5

theorem ipLength_congr {v : IpVersion} {p q : Bytes} (h : ∀ i, lengthOctet v i → q[i]? = p[i]?) :
    ipLength v q = ipLength v p := by
  cases v <;> simp only [ipLength, lengthOctet] at h ⊢
  · rw [slice_congr fun j hj hj' => h j (by omega)]
  · rw [slice_congr fun j hj hj' => h j (by omega)]

theorem setIpLength_spec {v : IpVersion} {q : Bytes} {n : ℕ} (hmin : minHeaderLen v ≤ q.length)
    (hn : minHeaderLen v ≤ n) :
    ∃ r, setIpLength v q n = pure r ∧ r.length = q.length ∧
      (∀ i, ¬ lengthOctet v i → r[i]? = q[i]?) ∧ (n ≤ maxLength v → ipLength v r = n) := by
  cases v <;> simp only [minHeaderLen, maxLength, lengthOctet, setIpLength, ipLength] at hmin hn ⊢
  · refine ⟨_, setIpv4TotalLength_eq (by omega) n, length_patch (by rw [length_be]; omega), fun i hi => ?_,
      fun h => ?_⟩
    · exact getElem?_patch (by rw [length_be]; omega) (by rw [length_be]; omega)
    · rw [slice_patch_be (by omega), val_be_of_lt (by omega)]
  · refine ⟨_, setIpv6PayloadLength_eq (by omega) _, length_patch (by rw [length_be]; omega), fun i hi => ?_,
      fun h => ?_⟩
    · exact getElem?_patch (by rw [length_be]; omega) (by rw [length_be]; omega)
    · rw [slice_patch_be (by omega), IPV6_HEADER_LEN, val_be_of_lt (by omega)]
      omega

/-! ### Sequence numbers -/

theorem slice_four {a : Bytes} {i : ℕ} (h : i + 3 < a.length) :
    slice a i 4 = [a[i], a[i + 1], a[i + 2], a[i + 3]] := by
  rw [← slice_append_slice a i 2 2, slice_two (by omega), slice_two h]; rfl

theorem val_four (a b c d : UInt8) :
    a.toNat <<< 24 ||| b.toNat <<< 16 ||| c.toNat <<< 8 ||| d.toNat = val [a, b, c, d] := by
  have hb := b.toNat_lt
  have hc := c.toNat_lt
  have e1 : a.toNat <<< 24 ||| b.toNat <<< 16 = (a.toNat <<< 8 + b.toNat) <<< 16 := by
    rw [Nat.shiftLeft_add_eq_or_of_lt hb, Nat.shiftLeft_or_distrib, ← Nat.shiftLeft_add]
  have e2 : (a.toNat <<< 8 + b.toNat) <<< 16 ||| c.toNat <<< 8 =
      ((a.toNat <<< 8 + b.toNat) <<< 8 + c.toNat) <<< 8 := by
    rw [Nat.shiftLeft_add_eq_or_of_lt hc, Nat.shiftLeft_or_distrib, ← Nat.shiftLeft_add]
  rw [e1, e2, ← Nat.shiftLeft_add_eq_or_of_lt d.toNat_lt]
  simp only [Nat.shiftLeft_eq, val, List.foldl_cons, List.foldl_nil]
  omega

/-- Four adjacent stores overwrite one four-octet region. -/
theorem aset_four_eq {a : Bytes} {i : ℕ} (h : i + 3 < a.length) (b c d e : UInt8) :
    (do let a ← aset a i b
        let a ← aset a (i + 1) c
        let a ← aset a (i + 2) d
        aset a (i + 3) e) = (pure (patch a i [b, c, d, e]) : Except Exn Bytes) := by
  rw [aset_eq (by omega), pure_bind, aset_extend (by rfl) (by omega), pure_bind,
    aset_extend (by rfl) (by omega), pure_bind, aset_extend (by rfl) h]
  rfl

/-- Advancing the sequence number overwrites four octets. -/
theorem advanceTcpSeq_eq {pkt : Bytes} {h : ℕ} (hp : h + 7 < pkt.length) (delta : ℕ) :
    advanceTcpSeq pkt h delta =
      pure (patch pkt (h + 4) (be 4 ((val (slice pkt (h + 4) 4) + delta) % 2 ^ 32))) := by
  rw [advanceTcpSeq]
  simp only []
  rw [aget_eq (by omega), pure_bind, aget_eq (by omega), pure_bind, aget_eq (by omega), pure_bind,
    aget_eq (by omega), pure_bind, val_four, slice_four (by omega), aset_four_eq (by omega), be_four]
  simp only [Nat.shiftRight_eq_div_pow, Nat.div_div_eq_div_mul]

end BypassVpn
