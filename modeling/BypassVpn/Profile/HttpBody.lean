import BypassVpn.Lib.Utf8
import BypassVpn.Packet.Doh

/-!
# `NetworkProfileDetector.readHttpBody`

The reply of the geo API is read through a `BufferedReader`: lines up to the empty one, then a body in
chunks or up to the end. Sizes of chunks are octets; the reader counts UTF-16 units.

* `Reader`: what stands ahead of a `BufferedReader`. `readLine`, `read`, `readChar`.
* `toIntOrNull16`, `announcesChunked`: the tests on a line.
* `readHttpBody` with its loops `readHeaders`, `fill`, `readChunks`, `readToEnd`.
-/

namespace BypassVpn.Profile

open Utf8

/-- A `String` of the JVM. -/
abbrev Text := List UInt16

def LF : UInt16 := 10

def CR : UInt16 := 13

/-- A string literal of the source. -/
def text (s : String) : Text := utf16 s.toList

/-! ### `BufferedReader` -/

/-- A reader in front of the characters that the socket will deliver. -/
structure Reader where
  rest : Text
  /-- The last line ended with `\r`: a `\n` that comes next belongs to it. -/
  skipLF : Bool
  /-- How many characters the coming bulk reads find in the buffer. -/
  found : ℕ → ℕ

/-- The characters that a reader gives. -/
def Reader.ahead (r : Reader) : Text :=
  if r.skipLF ∧ r.rest.head? = some LF then r.rest.tail else r.rest

/-- The end of a line, as `readLine` sees it. -/
def isEol (c : UInt16) : Bool := c == LF || c == CR

/-- `reader.readLine()`. -/
def Reader.readLine (r : Reader) : Option Text × Reader :=
  if r.ahead = [] then (none, { r with rest := [], skipLF := false })
  else
    let line := r.ahead.takeWhile fun c => !isEol c
    match r.ahead.dropWhile fun c => !isEol c with
    | [] => (some line, { r with rest := [], skipLF := false })
    | c :: rest => (some line, { r with rest := rest, skipLF := c == CR })

/-- `reader.read(buf, off, len)`: the characters put into `buf`, at least one, or `none` for -1. -/
def Reader.read (r : Reader) (len : ℕ) : Option Text × Reader :=
  if r.ahead = [] then (none, { r with rest := [], skipLF := false })
  else
    let n := min len (max 1 (r.found 0))
    (some (r.ahead.take n), ⟨r.ahead.drop n, false, fun i => r.found (i + 1)⟩)

/-- `reader.read()`: one character, or `none` for -1. -/
def Reader.readChar (r : Reader) : Option UInt16 × Reader :=
  match r.ahead with
  | [] => (none, { r with rest := [], skipLF := false })
  | c :: rest => (some c, { r with rest := rest, skipLF := false })

/-! ### Tests on a line -/

/-- Where the ten decimal digits of a script begin. -/
def digitZeros : List ℕ :=
  [0x30, 0x660, 0x6F0, 0x7C0, 0x966, 0x9E6, 0xA66, 0xAE6, 0xB66, 0xBE6, 0xC66, 0xCE6, 0xD66, 0xDE6, 0xE50,
    0xED0, 0xF20, 0x1040, 0x1090, 0x17E0, 0x1810, 0x1946, 0x19D0, 0x1A80, 0x1A90, 0x1B50, 0x1BB0, 0x1C40,
    0x1C50, 0xA620, 0xA8D0, 0xA900, 0xA9D0, 0xA9F0, 0xAA50, 0xABF0, 0xFF10]

/-- `Character.digit(c, 16)`: decimal digits, and the letters `a` to `f` in both cases and widths. -/
def digit16 (c : UInt16) : Option ℕ :=
  let n := c.toNat
  if 0x41 ≤ n ∧ n ≤ 0x46 then some (n - 0x41 + 10)
  else if 0x61 ≤ n ∧ n ≤ 0x66 then some (n - 0x61 + 10)
  else if 0xFF21 ≤ n ∧ n ≤ 0xFF26 then some (n - 0xFF21 + 10)
  else if 0xFF41 ≤ n ∧ n ≤ 0xFF46 then some (n - 0xFF41 + 10)
  else (digitZeros.find? fun z => z ≤ n ∧ n ≤ z + 9).map fun z => n - z

/-- The value of digits, if all are. -/
def value16 (s : Text) : Option ℕ := (s.mapM digit16).map fun ds => ds.foldl (fun n d => 16 * n + d) 0

/-- `s.toIntOrNull(16)`. -/
def toIntOrNull16 : Text → Option ℤ
  | [] => none
  | c :: cs =>
    if c.toNat < 0x30 then
      -- a sign, and at least one digit behind it
      if cs = [] then none
      else if c = 45 then (value16 cs).bind fun n => if n ≤ 2 ^ 31 then some (-(n : ℤ)) else none
      else if c = 43 then (value16 cs).bind fun n => if n < 2 ^ 31 then some (n : ℤ) else none
      else none
    else (value16 (c :: cs)).bind fun n => if n < 2 ^ 31 then some (n : ℤ) else none

/-- `c.isWhitespace()`; surrogates are none. -/
def isBlankUnit (c : UInt16) : Bool := isWhitespace (Char.ofNat c.toNat)

/-- `s.trim()`. -/
def trim (s : Text) : Text := ((s.dropWhile isBlankUnit).reverse.dropWhile isBlankUnit).reverse

/-- The comparison that ignores case: upper case, then lower case, of the characters that this takes to
an ASCII letter. -/
def lowerCase (c : UInt16) : UInt16 :=
  if 65 ≤ c.toNat ∧ c.toNat ≤ 90 then UInt16.ofNat (c.toNat + 32)
  else if c = 0x130 ∨ c = 0x131 then 105
  else if c = 0x17F then 115
  else if c = 0x212A then 107
  else c

/-- `line.startsWith("Transfer-Encoding", true) && line.contains("chunked", true)`. -/
def announcesChunked (line : Text) : Bool :=
  (text "transfer-encoding").isPrefixOf (line.map lowerCase) &&
    (line.map lowerCase).tails.any fun t => (text "chunked").isPrefixOf t

/-! ### The body -/

/-- The loop over the headers: whether one announces chunks, or `none` where the source returns `null`.
The fuel bounds the number of rounds. -/
def readHeaders : ℕ → Reader → Bool → Option (Bool × Reader)
  | 0, _, _ => none
  | fuel + 1, r, chunked =>
    match r.readLine with
    | (none, _) => none
    | (some line, r) =>
      if line = [] then some (chunked, r) else readHeaders fuel r (chunked || announcesChunked line)

/-- `while (readTotal < size)`: the filled part of `buf`. The fuel bounds the number of rounds. -/
def fill : ℕ → Reader → ℕ → Text → Text × Reader
  | 0, r, _, buf => (buf, r)
  | fuel + 1, r, size, buf =>
    if buf.length < size then
      match r.read (size - buf.length) with
      | (none, r) => (buf, r)
      | (some cs, r) => fill fuel r size (buf ++ cs)
    else (buf, r)

/-- The loop over the chunks. The fuel bounds the number of rounds. -/
def readChunks : ℕ → Reader → Text → Text
  | 0, _, sb => sb
  | fuel + 1, r, sb =>
    match r.readLine with
    | (none, _) => sb
    | (some sizeLine, r) =>
      match toIntOrNull16 (trim sizeLine) with
      | none => sb
      | some size =>
        if size ≤ 0 then sb
        else
          let (buf, r) := fill size.toNat r size.toNat []
          -- the line end behind the chunk
          readChunks fuel r.readLine.2 (sb ++ buf)

/-- The loop over a body without chunks. The fuel bounds the number of rounds. -/
def readToEnd : ℕ → Reader → Text → Text
  | 0, _, sb => sb
  | fuel + 1, r, sb =>
    match r.readChar with
    | (none, _) => sb
    | (some c, r) => readToEnd fuel r (sb ++ [c])

/-- `readHttpBody`. -/
def readHttpBody (r : Reader) : Option Text :=
  match readHeaders (r.rest.length + 1) r false with
  | none => none
  | some (chunked, r) =>
    some (if chunked then readChunks (r.rest.length + 1) r [] else readToEnd (r.rest.length + 1) r [])

/-- The characters of what the socket delivers: octets that arrive in several reads are decoded as one
text. -/
def decoded (bs : Bytes) : Text := (decode none bs).flatMap units

/-- `BufferedReader(InputStreamReader(socket.getInputStream(), UTF_8))`. -/
def Reader.of (bs : Bytes) (found : ℕ → ℕ) : Reader := ⟨decoded bs, false, found⟩

end BypassVpn.Profile
