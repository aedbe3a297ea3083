import BypassVpn.Config
import BypassVpn.Packet.Checksum

/-!
# `DnsInterceptor`

A UDP datagram to port 53 is parsed, its name resolved over HTTPS, and a synthesised answer written
back; whatever goes wrong, the datagram is dropped.

* `InetAddress`; `parseQuestion` with its label loop `readLabels`.
* The encoder: `buildAnswerRecords` (loop `putRecords`), `countRecords`, `buildDnsResponse`,
  `wrapAsDnsResponse`.
* `tryIntercept`, whose `try` block is `answerQuery`.
-/

namespace BypassVpn

open Region

/-- `java.net.InetAddress`: an `Inet4Address` or an `Inet6Address`. -/
inductive InetAddress where
  | inet4 (addr : {b : Bytes // b.length = 4})
  | inet6 (addr : {b : Bytes // b.length = 16})
  deriving DecidableEq

/-- `addr.address`. -/
def InetAddress.address : InetAddress → Bytes
  | .inet4 a => a.1
  | .inet6 a => a.1

/-- `is Inet4Address`. -/
def InetAddress.isInet4 : InetAddress → Bool
  | .inet4 _ => true
  | .inet6 _ => false

/-- A resolver: addresses, or an exception. -/
abbrev Resolver := String → Except Exn (List InetAddress)

def DNS_PORT : ℕ := 53

def DEFAULT_TTL_SECONDS : ℕ := 60

/-! ### Parsing -/

/-- `Charsets.US_ASCII`: octets above 127 decode to the replacement character. -/
def asciiChar (b : UInt8) : Char := if b.toNat < 128 then Char.ofNat b.toNat else '\uFFFD'

/-- The loop over the labels of the first question: the position behind the name and the labels, or
`none` where the source returns `null`. The fuel bounds the number of rounds. -/
def readLabels (query : Bytes) : ℕ → ℕ → List (List Char) → Except Exn (Option (ℕ × List (List Char)))
  | 0, pos, labels => pure (some (pos, labels))
  | fuel + 1, pos, labels =>
    if pos < query.length then do
      let len := (← aget query pos).toNat
      if len = 0 then pure (some (pos + 1, labels))
      else if len &&& 0xC0 = 0xC0 then pure none
      else if pos + 1 + len > query.length then pure none
      else
        let label := (slice query (pos + 1) len).map asciiChar
        readLabels query fuel (pos + 1 + len) (labels ++ [label])
    else pure (some (pos, labels))

/-- The host, the query type and the length of the question section, or `null`. -/
def parseQuestion (query : Bytes) : Except Exn (Option (String × ℕ × ℕ)) := do
  let qdCount ← u16At query 4
  if qdCount < 1 then return none
  match ← readLabels query query.length 12 [] with
  | none => return none
  | some (pos, labels) =>
    if pos + 4 > query.length then return none
    let qType ← u16At query pos
    let host := String.ofList (['.'].intercalate labels)
    if host.isEmpty then return none
    return some (host, qType, pos + 4 - 12)

/-! ### The answer -/

/-- The loop that writes one record for each address. -/
def putRecords (out : Bytes) (pos : ℕ) : List InetAddress → Except Exn Bytes
  | [] => pure out
  | addr :: rest => do
    -- NAME: a pointer to offset 12
    let out ← aset out pos 0xC0
    let out ← aset out (pos + 1) 0x0C
    let type := if addr.isInet4 then 1 else 28
    let out ← aset out (pos + 2) (UInt8.ofNat (type >>> 8))
    let out ← aset out (pos + 3) (UInt8.ofNat type)
    -- CLASS
    let out ← aset out (pos + 4) 0x00
    let out ← aset out (pos + 5) 0x01
    let out ← aset out (pos + 6) (UInt8.ofNat (DEFAULT_TTL_SECONDS >>> 24))
    let out ← aset out (pos + 7) (UInt8.ofNat (DEFAULT_TTL_SECONDS >>> 16))
    let out ← aset out (pos + 8) (UInt8.ofNat (DEFAULT_TTL_SECONDS >>> 8))
    let out ← aset out (pos + 9) (UInt8.ofNat DEFAULT_TTL_SECONDS)
    let rdata := addr.address
    let out ← aset out (pos + 10) (UInt8.ofNat (rdata.length >>> 8))
    let out ← aset out (pos + 11) (UInt8.ofNat rdata.length)
    let out ← arraycopy rdata 0 out (pos + 12) rdata.length
    putRecords out (pos + 12 + rdata.length) rest

/-- The addresses of the family the query type asks for. -/
def matching (addresses : List InetAddress) (qType : ℕ) : List InetAddress :=
  addresses.filter fun a => (decide (qType = 1) && a.isInet4) || (decide (qType = 28) && !a.isInet4)

/-- `buildAnswerRecords`: one record for each address of the type. -/
def buildAnswerRecords (addresses : List InetAddress) (qType : ℕ) : Except Exn Bytes := do
  let ms := matching addresses qType
  if ms.isEmpty then return []
  let total := (ms.map fun a => 2 + 2 + 2 + 4 + 2 + a.address.length).sum
  putRecords (zeros total) 0 ms

/-- The loop of `countRecords`: `while (pos < records.size)`. The fuel bounds the number of rounds. -/
def countFrom (records : Bytes) : ℕ → ℕ → ℕ → Except Exn ℕ
  | 0, _, count => pure count
  | fuel + 1, pos, count =>
    if pos < records.length then do
      let rdlen ← u16At records (pos + 10)
      countFrom records fuel (pos + 10 + (2 + rdlen)) (count + 1)
    else pure count

/-- `countRecords`. -/
def countRecords (records : Bytes) : Except Exn ℕ := countFrom records records.length 0 0

/-- The `ancount` of `buildDnsResponse`. -/
def answerCount (answerRecords : Bytes) : Except Exn ℕ :=
  if answerRecords.isEmpty then pure 0 else countRecords answerRecords

/-- `buildDnsResponse`: header, question and answers. -/
def buildDnsResponse (query : Bytes) (questionBytesLen : ℕ) (answerRecords : Bytes) :
    Except Exn Bytes := do
  let ancount ← answerCount answerRecords
  let header := zeros 12
  let header ← aset header 0 (← aget query 0)
  let header ← aset header 1 (← aget query 1)
  let rd := (← aget query 2).toNat &&& 0x01
  let header ← aset header 2 (UInt8.ofNat (0x80 ||| rd))
  let header ← aset header 3 0x80
  let header ← aset header 4 0x00
  let header ← aset header 5 0x01
  let header ← aset header 6 (UInt8.ofNat (ancount >>> 8))
  let header ← aset header 7 (UInt8.ofNat ancount)
  let header ← aset header 8 0x00
  let header ← aset header 9 0x00
  let header ← aset header 10 0x00
  let header ← aset header 11 0x00
  let questionSection ← copyOfRange query 12 (12 + questionBytesLen)
  return header ++ questionSection ++ answerRecords

/-! ### IP and UDP around the answer -/

/-- Exchange source and destination and set the length field of the copied IP header. -/
def turnIpHeader (v : IpVersion) (out : Bytes) (udpLen totalLen : ℕ) : Except Exn Bytes :=
  match v with
  | .v6 => do
    let src ← copyOfRange out 8 24
    let dst ← copyOfRange out 24 40
    let out ← arraycopy dst 0 out 8 16
    let out ← arraycopy src 0 out 24 16
    setIpv6PayloadLength out udpLen
  | .v4 => do
    let src ← copyOfRange out 12 16
    let dst ← copyOfRange out 16 20
    let out ← arraycopy dst 0 out 12 4
    let out ← arraycopy src 0 out 16 4
    setIpv4TotalLength out totalLen

/-- Recompute the checksums of the answer. -/
def sealResponse (v : IpVersion) (out : Bytes) (ipHdrLen : ℕ) : Except Exn Bytes :=
  match v with
  | .v6 => recalcUdpChecksumV6 out ipHdrLen
  | .v4 => do
    let out ← recalcIpv4HeaderChecksum out ipHdrLen
    recalcUdpChecksumV4 out ipHdrLen

/-- The answer packet, from the queried server back to the client. `ipv6 = true` is `.v6`. -/
def wrapAsDnsResponse (originalPkt : Bytes) (ipHdrLen : ℕ) (dnsPayload : Bytes) (v : IpVersion) :
    Except Exn Bytes := do
  let udpLen := 8 + dnsPayload.length
  let totalLen := ipHdrLen + udpLen
  let out := zeros totalLen
  let out ← arraycopy originalPkt 0 out 0 ipHdrLen
  let out ← turnIpHeader v out udpLen totalLen
  let udpOff := ipHdrLen
  let origSrcPort0 ← aget originalPkt udpOff
  let origSrcPort1 ← aget originalPkt (udpOff + 1)
  let out ← aset out udpOff 0x00
  let out ← aset out (udpOff + 1) (UInt8.ofNat DNS_PORT)
  let out ← aset out (udpOff + 2) origSrcPort0
  let out ← aset out (udpOff + 3) origSrcPort1
  let out ← aset out (udpOff + 4) (UInt8.ofNat (udpLen >>> 8))
  let out ← aset out (udpOff + 5) (UInt8.ofNat udpLen)
  let out ← aset out (udpOff + 6) 0
  let out ← aset out (udpOff + 7) 0
  let out ← arraycopy dnsPayload 0 out (udpOff + 8) dnsPayload.length
  sealResponse v out ipHdrLen

/-- The `try` block of `tryIntercept`. -/
def answerQuery (resolver : Resolver) (pkt : Bytes) (ipHdrLen : ℕ) (v : IpVersion)
    (dnsOffset dnsLen : ℕ) : PacketM Bool := do
  let query ← liftArray (copyOfRange pkt dnsOffset (dnsOffset + dnsLen))
  match ← liftArray (parseQuestion query) with
  | none => return true
  | some (host, qType, questionBytesLen) =>
    let addresses := match resolver host with
      | .ok addresses => addresses
      | .error _ => []
    let answerRecords ← liftArray (buildAnswerRecords addresses qType)
    let responseDns ← liftArray (buildDnsResponse query questionBytesLen answerRecords)
    let responsePkt ← liftArray (wrapAsDnsResponse pkt ipHdrLen responseDns v)
    write responsePkt responsePkt.length
    return true

/-- Answer or drop a DNS query; `false` for every other datagram. -/
def tryIntercept (resolver : Resolver) (pkt : Bytes) (length ipHdrLen : ℕ) (v : IpVersion)
    (config : BypassConfig) : PacketM Bool := do
  if !config.dnsInterceptEnabled then return false
  if length < ipHdrLen + 8 then return false
  let dPort ← liftArray (u16At pkt (ipHdrLen + 2))
  if dPort ≠ DNS_PORT then return false
  let udpLen ← liftArray (u16At pkt (ipHdrLen + 4))
  let dnsOffset := ipHdrLen + 8
  -- a length field below 8 makes the minimum negative in the source, zero here: dropped either way
  let dnsLen := min (udpLen - 8) (length - dnsOffset)
  if dnsLen < 12 then return true
  tryCatch (answerQuery resolver pkt ipHdrLen v dnsOffset dnsLen) fun _ => pure true

end BypassVpn
