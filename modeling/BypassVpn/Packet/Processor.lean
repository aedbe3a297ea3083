import BypassVpn.Packet.Dns

/-!
# `PacketProcessor`

Every packet read from the TUN is forwarded, dropped, answered or split.

* `Random`: the random choices, whatever they are; `PacketEnv`: the resolver and the random choices.
* `frag1PayloadLen`: where the ClientHello is cut; `fragment1`, `fragment2`: the two packets.
* `handleTcp`, `handleUdp`, `processPacket`. The packet counters only feed a log line; they are
  left out.
* `processPacket_eq`: behind the header checks, `processPacket` is its handler inside the catch-all;
  `outcome_processPacket`: a handler that returns normally is the whole of it.
-/

namespace BypassVpn

open Region

/-- The outcomes of `kotlin.random.Random`. -/
structure Random where
  /-- `Random.nextInt(lo, hi)`. -/
  nextInt : ℕ → ℕ → ℕ
  nextInt_mem : ∀ lo hi, lo < hi → lo ≤ nextInt lo hi ∧ nextInt lo hi < hi

/-- Random choices that always take the lower end. -/
def lowRandom : Random where
  nextInt lo _ := lo
  nextInt_mem _ _ h := ⟨Nat.le_refl _, h⟩

/-- What a handler asks of its surroundings. -/
structure PacketEnv where
  resolver : Resolver
  random : Random

/-! ### Splitting a ClientHello -/

/-- The `isTlsHandshake` test on the payload at `payloadOffset`. -/
def isTlsHandshake (pkt : Bytes) (payloadOffset payloadLen : ℕ) : Except Exn Bool := do
  let contentType := (← aget pkt payloadOffset).toNat
  let tlsVerMajor := (← aget pkt (payloadOffset + 1)).toNat
  let tlsVerMinor := (← aget pkt (payloadOffset + 2)).toNat
  let recordLen ← u16At pkt (payloadOffset + 3)
  let handshakeType := (← aget pkt (payloadOffset + 5)).toNat
  return contentType = 0x16 && tlsVerMajor = 0x03 && (0x01 ≤ tlsVerMinor && tlsVerMinor ≤ 0x04) &&
    handshakeType = 0x01 && recordLen > 0 && recordLen ≤ payloadLen - 5

/-- The length of the first part of the payload. -/
def frag1PayloadLen (config : BypassConfig) (random : Random) (payloadLen : ℕ) : ℕ :=
  let sp := config.splitPosition
  let base := (sp.bind firstNumber).getD 0
  let n :=
    if 1 ≤ base ∧ base < payloadLen then base
    else if mentions sp "m" then payloadLen / 2
    else if mentions sp "end" then payloadLen - 1
    else if mentions sp "r" then random.nextInt 1 payloadLen
    else random.nextInt 1 (min 5 (payloadLen - 1) + 1)
  -- `coerceIn(1, payloadLen - 1)`
  max 1 (min n (payloadLen - 1))

/-- The length fields and checksums of a fragment of `len` octets. -/
def finishFragment (v : IpVersion) (pkt : Bytes) (ipHdrLen len : ℕ) : Except Exn Bytes :=
  match v with
  | .v6 => do
    let pkt ← setIpv6PayloadLength pkt (len - IPV6_HEADER_LEN)
    recalcTcpChecksumV6 pkt ipHdrLen
  | .v4 => do
    let pkt ← setIpv4TotalLength pkt len
    let pkt ← recalcIpv4HeaderChecksum pkt ipHdrLen
    recalcTcpChecksumV4 pkt ipHdrLen

/-- The first fragment. -/
def fragment1 (v : IpVersion) (pkt : Bytes) (ipHdrLen payloadOffset frag1Len : ℕ) : Except Exn Bytes :=
  let pkt1Len := payloadOffset + frag1Len
  finishFragment v (copyOf pkt pkt1Len) ipHdrLen pkt1Len

/-- The second fragment. -/
def fragment2 (v : IpVersion) (pkt : Bytes) (ipHdrLen payloadOffset frag1Len frag2Len : ℕ) :
    Except Exn Bytes := do
  let pkt2Len := payloadOffset + frag2Len
  let pkt2 := zeros pkt2Len
  let pkt2 ← arraycopy pkt 0 pkt2 0 payloadOffset
  let pkt2 ← arraycopy pkt (payloadOffset + frag1Len) pkt2 payloadOffset frag2Len
  let pkt2 ← advanceTcpSeq pkt2 ipHdrLen frag1Len
  finishFragment v pkt2 ipHdrLen pkt2Len

/-! ### The handlers -/

/-- `ipv6 = true` is `.v6`. A negative payload length of the source is zero here; both are below 9. -/
def handleTcp (env : PacketEnv) (pkt : Bytes) (length ipHdrLen : ℕ) (config : BypassConfig)
    (v : IpVersion) : PacketM Bool := do
  let dPort ← liftArray (u16At pkt (ipHdrLen + 2))
  if dPort ≠ 443 then
    write pkt length
    return true
  let tcpHdrLen := ((← liftArray (aget pkt (ipHdrLen + 12))).toNat >>> 4 &&& 0x0F) * 4
  let payloadOffset := ipHdrLen + tcpHdrLen
  let payloadLen := length - payloadOffset
  if payloadLen < 9 then
    write pkt length
    return true
  if !(← liftArray (isTlsHandshake pkt payloadOffset payloadLen)) then
    write pkt length
    return true
  let frag1Len := frag1PayloadLen config env.random payloadLen
  let frag2Len := payloadLen - frag1Len
  if frag2Len ≤ 0 then
    write pkt length
    return true
  let pkt1 ← liftArray (fragment1 v pkt ipHdrLen payloadOffset frag1Len)
  let pkt2 ← liftArray (fragment2 v pkt ipHdrLen payloadOffset frag1Len frag2Len)
  if isSet config.disorderPosition then
    write pkt2 (payloadOffset + frag2Len)
    write pkt1 (payloadOffset + frag1Len)
  else
    write pkt1 (payloadOffset + frag1Len)
    write pkt2 (payloadOffset + frag2Len)
  return true

/-- `handleUdp`. -/
def handleUdp (env : PacketEnv) (pkt : Bytes) (length ipHdrLen : ℕ) (config : BypassConfig)
    (v : IpVersion) : PacketM Bool := do
  if length < ipHdrLen + 4 then
    write pkt length
    return true
  if ← tryIntercept env.resolver pkt length ipHdrLen v config then
    return true
  let dPort ← liftArray (u16At pkt (ipHdrLen + 2))
  if dPort = 443 then
    -- dropped: QUIC falls back to TCP
    return true
  else
    write pkt length
    return true

/-- The `when` over the IP version and the protocol. -/
def dispatch (env : PacketEnv) (packetBytes : Bytes) (length ipVersion : ℕ) (config : BypassConfig) :
    PacketM Bool := do
  if ipVersion = 4 then
    let ipHeaderLen := ((← liftArray (aget packetBytes 0)).toNat &&& 0x0F) * 4
    let protocol := (← liftArray (aget packetBytes 9)).toNat
    if protocol = 17 then handleUdp env packetBytes length ipHeaderLen config .v4
    else if protocol = 6 then handleTcp env packetBytes length ipHeaderLen config .v4
    else
      write packetBytes length
      return true
  else if ipVersion = 6 then
    if length < IPV6_HEADER_LEN then
      write packetBytes length
      return true
    let nextHeader := (← liftArray (aget packetBytes 6)).toNat
    if nextHeader = 17 then handleUdp env packetBytes length IPV6_HEADER_LEN config .v6
    else if nextHeader = 6 then handleTcp env packetBytes length IPV6_HEADER_LEN config .v6
    else
      write packetBytes length
      return true
  else
    write packetBytes length
    return true

/-- Process one packet; on any exception the packet is passed through. -/
def processPacket (env : PacketEnv) (packetBytes : Bytes) (length : ℕ) (config : BypassConfig) :
    PacketM Bool := do
  if length < 20 then
    write packetBytes length
    return true
  let ipVersion := (← liftArray (aget packetBytes 0)).toNat >>> 4 &&& 0x0F
  tryCatch (dispatch env packetBytes length ipVersion config) fun _ => do
    tryCatch (write packetBytes length) fun _ => pure ()
    return true

/-! ### Reaching a handler -/

/-- The number in the version field. -/
def versionNumber : IpVersion → ℕ
  | .v4 => 4
  | .v6 => 6

/-- The handler of a protocol number. -/
def handle (env : PacketEnv) (pkt : Bytes) (length : ℕ) (config : BypassConfig) (v : IpVersion)
    (proto : ℕ) : PacketM Bool :=
  if proto = 17 then handleUdp env pkt length (ipHeaderLen v pkt) config v
  else if proto = 6 then handleTcp env pkt length (ipHeaderLen v pkt) config v
  else write pkt length >>= fun _ => pure true

theorem nibble_hi (b : UInt8) : b.toNat >>> 4 &&& 0x0F = b.toNat / 16 := by
  have := b.toNat_lt
  rw [show (0x0F : ℕ) = 2 ^ 4 - 1 from rfl, Nat.and_two_pow_sub_one_eq_mod, Nat.shiftRight_eq_div_pow]
  omega

theorem nibble_lo (b : UInt8) : b.toNat &&& 0x0F = b.toNat % 16 :=
  Nat.and_two_pow_sub_one_eq_mod b.toNat 4

theorem octet_eq {p : Bytes} {i : ℕ} (h : i < p.length) : octet p i = (p[i]).toNat := by
  simp [octet, h]

variable {env : PacketEnv} {pkt : Bytes} {length : ℕ} {config : BypassConfig} {v : IpVersion}

theorem dispatch_eq (hmin : minHeaderLen v ≤ length) (hlen : length ≤ pkt.length) :
    dispatch env pkt length (versionNumber v) config =
      handle env pkt length config v (ipProtocol v pkt) := by
  cases v <;> simp only [minHeaderLen] at hmin
  · rw [dispatch, versionNumber, if_pos rfl, aget_eq (by omega), liftArray_pure_bind,
      aget_eq (by omega), liftArray_pure_bind, nibble_lo, ← octet_eq, ← octet_eq]
    rfl
  · rw [dispatch, versionNumber, if_neg (by omega), if_pos rfl,
      if_neg (by simp only [IPV6_HEADER_LEN]; omega), aget_eq (by omega), liftArray_pure_bind,
      ← octet_eq]
    rfl

/-- Behind the header checks, `processPacket` is its handler inside the catch-all. -/
theorem processPacket_eq (hmin : minHeaderLen v ≤ length) (hlen : length ≤ pkt.length)
    (hver : ipVersionField pkt = versionNumber v) :
    processPacket env pkt length config =
      tryCatch (handle env pkt length config v (ipProtocol v pkt)) fun _ => do
        tryCatch (write pkt length) fun _ => pure ()
        return true := by
  have h20 := twenty_le hmin
  rw [← dispatch_eq hmin hlen, ← hver, processPacket, if_neg (by omega), aget_eq (by omega),
    liftArray_pure_bind, nibble_hi, ← octet_eq]
  rfl

/-- A handler that returns normally is the whole of `processPacket`. -/
theorem outcome_processPacket {out out' : List Bytes} {b : Bool} (hmin : minHeaderLen v ≤ length)
    (hlen : length ≤ pkt.length) (hver : ipVersionField pkt = versionNumber v)
    (hrun : (handle env pkt length config v (ipProtocol v pkt)).outcome out = (pure b, out')) :
    (processPacket env pkt length config).outcome out = (pure b, out') := by
  rw [processPacket_eq hmin hlen hver, outcome_tryCatch, hrun]
  rfl

end BypassVpn
