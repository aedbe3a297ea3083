import Mathlib.Data.List.Basic
import BypassVpn.Config

/-!
# `ciadpi_jni.c`: from the arguments to the parameters of the engine

`ciadpiStart` parses the position strings into a `JniConfig`; `initParams` makes the global parameters
out of it, with the list of parts that `desync` works through. Allocations succeed. Fields of the
structures that no modelled function reads, or that stay as `calloc` leaves them, are left out.

* `atoi`, `parsePosString`, `parseModHttp`, `ciadpiStart`: the argument strings.
* `Part`, `DesyncParams`, `Globals`, `detectDefaultTtl`; `mainPart`, the part that every configuration
  has; `initParams`.
-/

namespace BypassVpn.Ciadpi

/-- A C buffer. -/
abbrev Bytes := List UInt8

/-! ### `params.h` -/

def OFFSET_END : ℕ := 1
def OFFSET_MID : ℕ := 2
def OFFSET_RAND : ℕ := 4
def OFFSET_SNI : ℕ := 8
def OFFSET_HOST : ℕ := 16
def OFFSET_START : ℕ := 32

/-- `flag & mask`, as a condition. -/
def has (flag mask : ℕ) : Bool := flag &&& mask != 0

def MH_HMIX : ℕ := 1
def MH_SPACE : ℕ := 2
def MH_DMIX : ℕ := 4

/-- `enum demode`. -/
inductive Demode where
  | DESYNC_NONE
  | DESYNC_SPLIT
  | DESYNC_DISORDER
  | DESYNC_OOB
  | DESYNC_DISOOB
  | DESYNC_FAKE
  deriving DecidableEq, Repr

/-- `struct part`: how to cut, and where. -/
structure Part where
  m : Demode
  flag : ℕ
  pos : Int
  r : ℕ
  s : Int
  deriving DecidableEq, Repr

/-- `data` is `none` for a null pointer. -/
structure Packet where
  size : ℕ
  data : Option Bytes
  off : ℕ
  deriving DecidableEq, Repr

/-- A packet of zeroed memory. -/
def Packet.zero : Packet := ⟨0, none, 0⟩

/-- `struct desync_params`, what `desync` and `desync_udp` read of it. -/
structure DesyncParams where
  ttl : Int
  fakeData : Packet
  udpFakeCount : Int
  fakeOffset : Part
  dropSack : Bool
  oobChar : UInt8 × UInt8
  parts : List Part
  modHttp : ℕ
  tlsrec : List Part
  deriving DecidableEq, Repr

/-- What `calloc` returns. -/
def DesyncParams.zero : DesyncParams where
  ttl := 0
  fakeData := .zero
  udpFakeCount := 0
  fakeOffset := ⟨.DESYNC_NONE, 0, 0, 0, 0⟩
  dropSack := false
  oobChar := (0, 0)
  parts := []
  modHttp := 0
  tlsrec := []

/-- `struct params`, what the model reads of it. -/
structure Params where
  defTtl : Int
  bfsize : ℕ
  dp : DesyncParams
  deriving DecidableEq, Repr

/-- The global variables. -/
structure Globals where
  params : Params
  fakeTls : Packet
  fakeHttp : Packet
  fakeUdp : Packet
  deriving DecidableEq, Repr

/-- The TTL of a decoy where none is set. -/
def DEFAULT_TTL : Int := 8

/-- The TTL of the decoys. -/
def DesyncParams.fakeTtl (dp : DesyncParams) : Int := if dp.ttl ≠ 0 then dp.ttl else DEFAULT_TTL

/-! ### The position strings -/

/-- The platforms that the library is built for. -/
inductive Abi where
  | arm64V8a
  | armeabiV7a
  | x86_64
  deriving DecidableEq, Repr

/-- The largest `long`. -/
def Abi.LONG_MAX : Abi → ℕ
  | .armeabiV7a => 2 ^ 31 - 1
  | _ => 2 ^ 63 - 1

/-- The number that the digits at the head of `s` denote. -/
def digitsValue (s : List Char) : ℕ :=
  (s.takeWhile Char.isDigit).foldl (fun n c => n * 10 + (c.toNat - '0'.toNat)) 0

/-- `(int)strtol(s, NULL, 10)` where `s` begins with a digit. -/
def atoi (abi : Abi) (s : List Char) : Int := (BitVec.ofNat 32 (min (digitsValue s) abi.LONG_MAX)).toInt

/-- `strchr(s, lower) || strchr(s, upper)`. -/
def strchr2 (s : List Char) (lower upper : Char) : Bool := s.contains lower || s.contains upper

/-- `s[0] >= '0' && s[0] <= '9'`. -/
def digitLed (s : List Char) : Bool := s.head?.any Char.isDigit

/-- `s[0] == lower || s[0] == upper`. -/
def ledBy (s : List Char) (lower upper : Char) : Bool := s.head? == some lower || s.head? == some upper

/-- `pos` after the head of the string was read. -/
def leadPos (abi : Abi) (s : List Char) (defaultPos : Int) : Int :=
  if digitLed s then (if atoi abi s ≤ 0 then defaultPos else atoi abi s)
  else if ledBy s 'e' 'E' || ledBy s 'm' 'M' || ledBy s 'r' 'R' then 0
  else defaultPos

/-- `flag` after the head of the string was read. -/
def leadFlag (s : List Char) : ℕ :=
  if digitLed s then 0
  else if ledBy s 'e' 'E' then OFFSET_END
  else if ledBy s 'm' 'M' then OFFSET_MID
  else if ledBy s 'r' 'R' then OFFSET_RAND
  else 0

/-- The bits that the letters of the string add to `flag`. -/
def letterFlags (s : List Char) : ℕ :=
  (if strchr2 s 's' 'S' then OFFSET_SNI else 0) |||
  (if strchr2 s 'h' 'H' then OFFSET_HOST else 0) |||
  (if strchr2 s 'm' 'M' && digitLed s then OFFSET_MID else 0) |||
  (if strchr2 s 'e' 'E' && digitLed s then OFFSET_END else 0) |||
  (if strchr2 s 'r' 'R' && digitLed s then OFFSET_RAND else 0)

/-- The position and the flags that a string denotes. -/
def parsePosString (abi : Abi) (jstr : Option String) (defaultPos : Int) : Int × ℕ :=
  match jstr with
  | none => (defaultPos, 0)
  | some s => (leadPos abi s.toList defaultPos, leadFlag s.toList ||| letterFlags s.toList)

/-- `parse_mod_http`: the flags of the letters in the string. -/
def parseModHttp (jstr : Option String) : ℕ :=
  match jstr with
  | none => 0
  | some s =>
    s.toList.foldl (fun flags p =>
      flags ||| (if p == 'h' || p == 'H' then MH_HMIX else 0) |||
        (if p == 'd' || p == 'D' then MH_DMIX else 0) |||
        (if p == 'r' || p == 'R' then MH_SPACE else 0)) 0

/-! ### `ciadpiStart` -/

/-- The arguments of `ciadpiStart`. -/
structure JniConfig where
  splitPos : Int
  splitFlag : ℕ
  disorder : Int
  oobEnabled : Bool
  oobPos : Int
  oobFlag : ℕ
  fakeEnabled : Bool
  fakeTtl : Int
  dropSack : Bool
  tlsrecPos : Int
  tlsrecFlag : ℕ
  udpFakeCount : Int
  modHttp : ℕ
  deriving DecidableEq, Repr

/-- `x > 0 ? x : d`. -/
def positiveOr (x d : Int) : Int := if 0 < x then x else d

/-- The configuration that `ciadpiStart` hands to the thread of the engine when none is running. -/
def ciadpiStart (abi : Abi) (args : CiadpiArgs) : JniConfig :=
  let split := parsePosString abi (some args.splitPosStr) (positiveOr args.splitPos 1)
  let oob := parsePosString abi (some args.oobPosStr) 0
  let oobEnabled := !args.oobPosStr.isEmpty
  let tls := parsePosString abi (some args.tlsRecStr) 0
  let tlsEnabled := !args.tlsRecStr.isEmpty
  let tlsrecPos := if tlsEnabled then positiveOr tls.1 1 else 0
  { splitPos := positiveOr split.1 1
    splitFlag := split.2
    -- nothing is configured: disorder at the split position
    disorder :=
      if args.disorder = 0 ∧ ¬ oobEnabled ∧ ¬ args.fakeEnabled ∧ tlsrecPos ≤ 0 then 1 else args.disorder
    oobEnabled := oobEnabled
    oobPos := if oobEnabled then positiveOr oob.1 1 else 0
    oobFlag := if oobEnabled then oob.2 else 0
    fakeEnabled := args.fakeEnabled
    fakeTtl := args.fakeTtl
    dropSack := args.dropSack
    tlsrecPos := tlsrecPos
    tlsrecFlag := if tlsEnabled then tls.2 else 0
    udpFakeCount := args.udpFakeCount
    modHttp := parseModHttp (some args.modHttpStr) }

/-! ### `init_params` -/

/-- `none` when there is no socket, `some none` when `getsockopt` fails. -/
def detectDefaultTtl : Option (Option Int) → Int
  | some (some ttl) => if ttl ≤ 0 then 64 else ttl
  | _ => 64

/-- `tls_data`, the ClientHello of the decoys. -/
def tls_data : Bytes := [
  22, 3, 1, 2, 0, 1, 0, 1, 252, 3, 3, 3, 95, 111, 44, 237, 19, 34, 248, 220, 178, 242, 96, 72, 45,
    114, 102, 111, 87, 221, 19, 157, 27, 55, 220, 250, 54, 46, 186, 249, 146, 153, 58, 32, 249,
    223, 12, 46, 138, 85, 137, 130, 49, 99, 26, 239, 168, 190, 8, 88, 167, 163, 90, 24, 211, 150,
    95, 4, 92, 180, 98, 175, 137, 215, 15, 139, 0, 62, 19, 2, 19, 3, 19, 1, 192, 44, 192, 48, 0,
    159, 204, 169, 204, 168, 204, 170, 192, 43, 192, 47, 0, 158, 192, 36, 192, 40, 0, 107, 192, 35,
    192, 39, 0, 103, 192, 10, 192, 20, 0, 57, 192, 9, 192, 19, 0, 51, 0, 157, 0, 156, 0, 61, 0, 60,
    0, 53, 0, 47, 0, 255, 1, 0, 1, 117, 0, 0, 0, 22, 0, 20, 0, 0, 17, 119, 119, 119, 46, 119, 105,
    107, 105, 112, 101, 100, 105, 97, 46, 111, 114, 103, 0, 11, 0, 4, 3, 0, 1, 2, 0, 10, 0, 22, 0,
    20, 0, 29, 0, 23, 0, 30, 0, 25, 0, 24, 1, 0, 1, 1, 1, 2, 1, 3, 1, 4, 0, 16, 0, 14, 0, 12, 2,
    104, 50, 8, 104, 116, 116, 112, 47, 49, 46, 49, 0, 22, 0, 0, 0, 23, 0, 0, 0, 49, 0, 0, 0, 13,
    0, 42, 0, 40, 4, 3, 5, 3, 6, 3, 8, 7, 8, 8, 8, 9, 8, 10, 8, 11, 8, 4, 8, 5, 8, 6, 4, 1, 5, 1,
    6, 1, 3, 3, 3, 1, 3, 2, 4, 2, 5, 2, 6, 2, 0, 43, 0, 9, 8, 3, 4, 3, 3, 3, 2, 3, 1, 0, 45, 0, 2,
    1, 1, 0, 51, 0, 38, 0, 36, 0, 29, 0, 32, 17, 140, 184, 140, 232, 138, 8, 144, 30, 238, 25, 217,
    221, 232, 212, 6, 177, 209, 226, 171, 224, 22, 99, 214, 220, 218, 132, 164, 184, 75, 251, 14,
    0, 21, 0, 172, 0, 0, 0, 0, 0, 0, 0, 0, 0, 0, 0, 0, 0, 0, 0, 0, 0, 0, 0, 0, 0, 0, 0, 0, 0, 0, 0,
    0, 0, 0, 0, 0, 0, 0, 0, 0, 0, 0, 0, 0, 0, 0, 0, 0, 0, 0, 0, 0, 0, 0, 0, 0, 0, 0, 0, 0, 0, 0, 0,
    0, 0, 0, 0, 0, 0, 0, 0, 0, 0, 0, 0, 0, 0, 0, 0, 0, 0, 0, 0, 0, 0, 0, 0, 0, 0, 0, 0, 0, 0, 0, 0,
    0, 0, 0, 0, 0, 0, 0, 0, 0, 0, 0, 0, 0, 0, 0, 0, 0, 0, 0, 0, 0, 0, 0, 0, 0, 0, 0, 0, 0, 0, 0, 0,
    0, 0, 0, 0, 0, 0, 0, 0, 0, 0, 0, 0, 0, 0, 0, 0, 0, 0, 0, 0, 0, 0, 0, 0, 0, 0, 0, 0, 0, 0, 0, 0,
    0, 0, 0, 0, 0, 0, 0, 0, 0, 0, 0, 0, 0, 0, 0, 0, 0]

/-- `http_data`. -/
def http_data : Bytes :=
  "GET / HTTP/1.1\r\nHost: www.wikipedia.org\r\n\r\n".toList.map fun c => c.toNat.toUInt8

/-- `fake_tls`: the built-in decoy for TLS. -/
def fakeTlsInit : Packet := ⟨tls_data.length, some tls_data, 0⟩

/-- `fake_http`: the built-in decoy for HTTP. -/
def fakeHttpInit : Packet := ⟨http_data.length, some http_data, 0⟩

/-- The mode, the position and the flags of the split, disorder or OOB part. -/
def JniConfig.mainPart (cfg : JniConfig) : Part :=
  let pos := positiveOr cfg.splitPos 1
  if cfg.oobEnabled then
    { m := if cfg.disorder ≠ 0 then .DESYNC_DISOOB else .DESYNC_OOB
      pos := positiveOr cfg.oobPos pos
      flag := if cfg.oobFlag ≠ 0 then cfg.oobFlag else cfg.splitFlag
      r := 1
      s := 0 }
  else
    { m := if cfg.disorder ≠ 0 then .DESYNC_DISORDER else if cfg.fakeEnabled then .DESYNC_FAKE
        else .DESYNC_SPLIT
      pos := pos
      flag := cfg.splitFlag
      r := 1
      s := 0 }

/-- `init_params`, on a host whose default TTL is `ttl`. -/
def initParams (ttl : Int) (cfg : JniConfig) : Globals :=
  let part := cfg.mainPart
  let dp : DesyncParams := { DesyncParams.zero with
    oobChar := ('a'.toNat.toUInt8, 0)
    dropSack := cfg.dropSack
    ttl := if cfg.fakeEnabled then positiveOr cfg.fakeTtl 6 else 0
    -- the decoy comes first, at the same offset
    parts := if cfg.fakeEnabled ∧ part.m ≠ .DESYNC_FAKE then [{ part with m := .DESYNC_FAKE }, part]
      else [part]
    tlsrec := if cfg.tlsrecPos > 0 then [⟨.DESYNC_SPLIT, cfg.tlsrecFlag, cfg.tlsrecPos, 1, 0⟩] else []
    udpFakeCount := if cfg.udpFakeCount > 0 then cfg.udpFakeCount else 0
    modHttp := cfg.modHttp }
  { params := { defTtl := ttl, bfsize := 16384, dp := dp }
    fakeTls := if cfg.fakeEnabled then fakeTlsInit else .zero
    fakeHttp := if cfg.fakeEnabled then fakeHttpInit else .zero
    fakeUdp := .zero }

end BypassVpn.Ciadpi
