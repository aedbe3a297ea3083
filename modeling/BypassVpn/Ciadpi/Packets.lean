import Mathlib.Data.List.Basic
import BypassVpn.Lib.Region
import BypassVpn.Ciadpi.Params

/-!
# `packets.c`

What `desync` uses of the parsers of TLS and HTTP messages and of the functions that change them. A
message is the list of its bytes; a function that works in the buffer behind the message gets the whole
buffer.

* `isTlsChello`, `findExtBlock`, `findTlsExtOffset`, `parseTls`.
* `isHttp`, `strncasestr`, `parseHttp`.
* `modHttp`, `partTls`: the changes, in a buffer.
-/

namespace BypassVpn.Ciadpi

open Region

def IS_HTTP : ℕ := 4
def IS_HTTPS : ℕ := 8

/-- `(uint8_t)data[i]`. -/
def byteAt (data : Bytes) (i : ℕ) : ℕ := (data.getD i 0).toNat

/-- `ANTOHS`: two octets in network order. -/
def ANTOHS (data : Bytes) (i : ℕ) : ℕ := byteAt data i * 256 + byteAt data (i + 1)

/-- The bytes that `SHTONA` writes. -/
def SHTONA (x : ℕ) : Bytes := [UInt8.ofNat (x / 256), UInt8.ofNat x]

/-- The octet of an ASCII character. -/
def chr (c : Char) : UInt8 := c.toNat.toUInt8

/-- The octets of an ASCII string. -/
def text (s : String) : Bytes := s.toList.map chr

/-! ### TLS -/

/-- `is_tls_chello`. -/
def isTlsChello (buffer : Bytes) : Bool :=
  decide (buffer.length > 5) && ANTOHS buffer 0 == 0x1603 && byteAt buffer 5 == 0x01

/-- The offset of the extensions behind one compression method; 0 if there is none. -/
def findExtBlock (data : Bytes) : ℕ :=
  if data.length < 44 then 0
  else
    let sidLen := byteAt data 43
    if data.length < 44 + sidLen + 2 then 0
    else
      let cipLen := ANTOHS data (44 + sidLen)
      let skip := 44 + sidLen + 2 + cipLen + 2
      if skip > data.length then 0 else skip

/-- The loop of `find_tls_ext_offset`; it advances by at least 4 in each of the `fuel` rounds. -/
def extLoop (type : ℕ) (data : Bytes) (size : ℕ) : ℕ → ℕ → ℕ
  | 0, _ => 0
  | fuel + 1, skip =>
    if skip + 4 < size then
      if type = ANTOHS data skip then skip else extLoop type data size fuel
        (skip + ANTOHS data (skip + 2) + 4)
    else 0

/-- `find_tls_ext_offset`: where the extension of this type begins, else 0. -/
def findTlsExtOffset (type : ℕ) (data : Bytes) (skip : ℕ) : ℕ :=
  if data.length ≤ skip + 2 then 0
  else
    let extLen := ANTOHS data skip
    let size := if extLen < data.length - (skip + 2) then extLen + (skip + 2) else data.length
    extLoop type data size size (skip + 2)

/-- The length of the host, and its offset if `*hs` is set. -/
def parseTls (buffer : Bytes) : ℕ × Option ℕ :=
  if isTlsChello buffer then
    let skip := findExtBlock buffer
    if skip = 0 then (0, none)
    else
      let sniOffs := findTlsExtOffset 0x00 buffer skip
      if sniOffs = 0 ∨ sniOffs + 12 ≥ buffer.length then (0, none)
      else
        let len := ANTOHS buffer (sniOffs + 7)
        if sniOffs + 9 + len > buffer.length then (0, none) else (len, some (sniOffs + 9))
  else (0, none)

/-! ### HTTP -/

/-- The methods that `is_http` knows. -/
def methods : List String := ["HEAD", "GET", "POST", "PUT", "DELETE", "OPTIONS", "CONNECT", "TRACE", "PATCH"]

/-- `is_http`: the buffer begins with a method. -/
def isHttp (buffer : Bytes) : Bool :=
  if buffer.length < 16 ∨ byteAt buffer 0 > 'T'.toNat ∨ byteAt buffer 0 < 'C'.toNat then false
  else methods.any fun m => (text m).isPrefixOf buffer

/-- `isspace` of the C locale. -/
def isspace (b : UInt8) : Bool := b == 32 || (9 ≤ b && b ≤ 13)

/-- `isdigit`. -/
def isdigit (b : UInt8) : Bool := 48 ≤ b && b ≤ 57

/-- `tolower` of the C locale. -/
def tolower (b : UInt8) : UInt8 := if 65 ≤ b && b ≤ 90 then b + 32 else b

/-- `toupper` of the C locale. -/
def toupper (b : UInt8) : UInt8 := if 97 ≤ b && b ≤ 122 then b - 32 else b

/-- The offset, counted from `i`, of the first `b` in `a`, whatever the case of its letters. -/
def strncasestr (b : Bytes) : Bytes → ℕ → Option ℕ
  | [], _ => none
  | c :: cs, i =>
    if some c = b.head? then
      if (c :: cs).length < b.length then none
      else if ((c :: cs).take b.length).map tolower = b.map tolower then some i
      else strncasestr b cs (i + 1)
    else strncasestr b cs (i + 1)

/-- `for (; isspace(*(l_end - 1)); l_end--);` -/
def trimEnd (buffer : Bytes) : ℕ → ℕ
  | 0 => 0
  | lEnd + 1 => if isspace (buffer.getD lEnd 0) then trimEnd buffer lEnd else lEnd + 1

/-- `while (isdigit(*--h_end));` -/
def skipDigits (buffer : Bytes) : ℕ → ℕ
  | 0 => 0
  | hEnd + 1 => if isdigit (buffer.getD hEnd 0) then skipDigits buffer hEnd else hEnd

/-- The length of the host, which may be negative, and its offset if `*hs` is set. -/
def parseHttp (buffer : Bytes) : Int × Option ℕ :=
  if isHttp buffer then
    match strncasestr (text "\nHost:") buffer 0 with
    | none => (0, none)
    | some k =>
      let host := k + 6 + ((buffer.drop (k + 6)).takeWhile (· == 32)).length
      match (buffer.drop host).findIdx? (· == 10) with
      | none => (0, none)
      | some nl =>
        let lEnd := trimEnd buffer (host + nl)
        let colon := skipDigits buffer (lEnd - 1)
        let hEnd := if buffer.getD colon 0 == chr ':' then colon else lEnd
        if buffer.getD host 0 == chr '[' then
          if buffer.getD (hEnd - 1) 0 == chr ']' then ((hEnd - 1 : ℕ) - (host + 1 : ℕ), some (host + 1))
          else (0, none)
        else ((hEnd : Int) - host, some host)
  else (0, none)

/-! ### Changes in a buffer -/

/-- `host[i] = toupper(host[i])` for every second `i` below `hlen`. -/
def mixCase (mem : Bytes) (host hlen : ℕ) : Bytes :=
  patch mem host ((slice mem host hlen).mapIdx fun i b => if i % 2 = 0 then toupper b else b)

/-- `for (par = host - 1; *par != ':'; par--)`. -/
def colonBefore (mem : Bytes) : ℕ → ℕ
  | 0 => 0
  | par + 1 => if mem.getD par 0 == chr ':' then par else colonBefore mem par

/-- `mod_http` on the first `n` bytes of the buffer; `none` where it makes `memmove` run out of the
memory. -/
def modHttp (m : ℕ) (mem : Bytes) (n : ℕ) : Option Bytes :=
  match parseHttp (mem.take n) with
  | (hlen, some host) =>
    if hlen = 0 then some mem
    else
      let par := colonBefore mem host - 4
      let mem := if has m MH_HMIX then
          ((mem.modify par tolower).modify (par + 1) toupper).modify (par + 3) toupper
        else mem
      let mem := if has m MH_DMIX then mixCase mem host hlen.toNat else mem
      if has m MH_SPACE then
        let hlen := hlen + ((mem.drop (host + hlen).toNat).takeWhile fun b => !isspace b).length
        if hlen < 0 then none
        else
          let name := slice mem host hlen.toNat
          some (patch (patch mem (par + 5) name) (par + 5 + name.length)
            (List.replicate (host - (par + 5)) 9))
      else some mem
  | (_, none) => some mem

/-- `part_tls` on the `n` bytes at `lp`: the buffer, and whether the result is not zero. -/
def partTls (mem : Bytes) (bfsize lp n : ℕ) (pos : Int) : Bytes × Bool :=
  if n < 3 ∨ bfsize - lp - n < 5 ∨ pos < 0 ∨ pos + 5 > n then (mem, false)
  else
    let p := pos.toNat
    let rSz := ANTOHS mem (lp + 3)
    if rSz < p then (mem, true)
    else
      let head := slice mem lp 3
      let mem := patch mem (lp + 5 + p + 5) (slice mem (lp + 5 + p) (n - (5 + p)))
      let mem := patch mem (lp + 5 + p) head
      let mem := patch mem (lp + 3) (SHTONA p)
      (patch mem (lp + 5 + p + 3) (SHTONA (rSz - p)), true)

end BypassVpn.Ciadpi
