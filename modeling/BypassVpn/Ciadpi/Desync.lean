import BypassVpn.Ciadpi.Packets

/-!
# `desync`

The first data of a connection go out part by part. Each part has an offset that `genOffset` resolves
against the data; the loop sends what lies between the offset before it and this one, in the way of the
part's mode, and the rest follows when the list ends.

* `ProtoInfo`, `initProtoInfo`, `genOffset`; `tampRecords`, `tamp`: changes before the loop.
* `Outcome`, `Net`: how the system calls turn out; `Executed`, `Loop`, `Job`.
* `getTcpFake`, `sendPart`, `partStep`, `runParts`, `desync`: the parts are repeated as `rounds` says.
-/

namespace BypassVpn.Ciadpi

open Region

/-! ### Offsets -/

/-- `struct proto_info`. -/
structure ProtoInfo where
  init : Bool
  type : ℕ
  hostLen : Int
  hostPos : ℕ
  deriving DecidableEq, Repr

/-- `struct proto_info info = { 0 }`. -/
def ProtoInfo.zero : ProtoInfo := ⟨false, 0, 0, 0⟩

/-- `init_proto_info`: the protocol of the buffer and where its host is, once. -/
def initProtoInfo (buffer : Bytes) (info : ProtoInfo) : ProtoInfo :=
  if info.init then info
  else
    let tls := parseTls buffer
    let http := parseHttp buffer
    if tls.1 ≠ 0 then { init := true, type := IS_HTTPS, hostLen := tls.1, hostPos := tls.2.getD 0 }
    else
      { init := true
        type := if http.1 ≠ 0 then IS_HTTP else info.type
        hostLen := http.1
        hostPos := (http.2.or tls.2).getD 0 }

/-- The offset that a position and its flags stand for; `rand` is what `rand()` returns if it is called.
The process dies when it divides by a host length of zero, which is not told apart here. -/
def genOffset (rand : ℕ) (pos : Int) (flag : ℕ) (buffer : Bytes) (lp : Int) (info : ProtoInfo) :
    Int × ProtoInfo :=
  let n := buffer.length
  if has flag (OFFSET_SNI ||| OFFSET_HOST) then
    let info := initProtoInfo buffer info
    if info.hostPos = 0 ∨ (has flag OFFSET_SNI ∧ info.type ≠ IS_HTTPS) then (-1, info)
    else
      let pos := pos + info.hostPos
      if has flag OFFSET_END then (pos + info.hostLen, info)
      else if has flag OFFSET_MID then (pos + info.hostLen.tdiv 2, info)
      else if has flag OFFSET_RAND then (pos + (rand : Int).tmod info.hostLen, info)
      else (pos, info)
  else if has flag OFFSET_RAND then (pos + lp + (rand : Int) % (n - lp), info)
  else if has flag OFFSET_MID then (pos + (n / 2 : ℕ), info)
  else if pos < 0 ∨ has flag OFFSET_END then (pos + n, info)
  else (pos, info)

/-- Each part is worked through `r` times, at least once; the second component counts from 0. -/
def rounds (parts : List Part) : List (Part × ℕ) :=
  parts.flatMap fun p => (List.range (max 1 p.r)).map fun k => (p, k)

/-- The loop of `tamp` over the record splits, `rc` of which are done: the buffer, `*n` and `info`. -/
def tampRecords (rand : ℕ → ℕ) (bfsize : ℕ) :
    List (Part × ℕ) → ℕ → Int → Bytes × ℕ × ProtoInfo → Bytes × ℕ × ProtoInfo
  | [], _, _, st => st
  | (part, k) :: rest, rc, lp, (mem, n, info) =>
    let g := genOffset (rand rc) part.pos part.flag (mem.take (n - rc * 5)) lp info
    let pos := rc * 5 + g.1
    let pos := if part.pos < 0 ∨ part.flag ≠ 0 then pos - 5 else pos
    let pos := pos + part.s * k
    if pos < lp then (mem, n, g.2)
    else
      let cut := partTls mem bfsize lp.toNat (n - lp.toNat) (pos - lp)
      if cut.2 then tampRecords rand bfsize rest (rc + 1) (pos + 5) (cut.1, n + 5, g.2)
      else (mem, n, g.2)

/-- `tamp` on the first `n` bytes of a buffer of `bfsize`; `none` where the process dies in `mod_http`.
-/
def tamp (rand : ℕ → ℕ) (bfsize : ℕ) (dp : DesyncParams) (mem : Bytes) (n : ℕ) (info : ProtoInfo) :
    Option (Bytes × ℕ × ProtoInfo) := do
  let mem ← if dp.modHttp ≠ 0 ∧ isHttp (mem.take n) then modHttp dp.modHttp mem n else some mem
  if dp.tlsrec ≠ [] ∧ isTlsChello (mem.take n) then
    return tampRecords rand bfsize (rounds dp.tlsrec) 0 0 (mem, n, info)
  else return (mem, n, info)

/-! ### The parts -/

/-- How the system calls for one part turn out. -/
structure Outcome where
  /-- `mmap` in `alloc_pktd`. -/
  alloc : Bool
  pipe : Bool
  setttl : Bool
  /-- What `send`, or `vmsplice` and `splice`, return for so many bytes. -/
  send : ℕ → Int
  eagain : Bool
  /-- `sock_has_notsent`. -/
  notsent : Bool

/-- What the system calls of one `desync` give. -/
structure Net where
  /-- By the number of the part. -/
  part : ℕ → Outcome
  /-- The `send` of the rest. -/
  last : ℕ → Int
  lastEagain : Bool

/-- A part that was executed: its interval, and what it sent under which TTL. -/
structure Executed where
  m : Demode
  lp : Int
  pos : Int
  ttl : Int
  bytes : Bytes
  deriving DecidableEq, Repr

/-- What `desync` works on; `skip` and `partSkip` are the bytes and parts of the earlier calls. -/
structure Job where
  g : Globals
  net : Net
  rand : ℕ → ℕ
  buffer : Bytes
  bfsize : ℕ
  offset : Int
  skip : Int
  partSkip : ℕ

/-- The variables of the loop, the TTL of the socket, and the parts executed so far. -/
structure Loop where
  lp : Int
  currPart : ℕ
  info : ProtoInfo
  ttl : Int
  restoreTtl : Bool
  partSent : ℕ
  executed : List Executed
  deriving DecidableEq, Repr

/-- The bytes of the buffer from `lp` up to `pos`. -/
def Job.bytes (j : Job) (lp pos : Int) : Bytes := slice j.buffer lp.toNat (pos - lp).toNat

/-- The type that `get_tcp_fake` gives the data if they have none. -/
def fakeType (buffer : Bytes) (info : ProtoInfo) : ProtoInfo :=
  if info.type ≠ 0 then info
  else if isTlsChello buffer then { info with type := IS_HTTPS }
  else if isHttp buffer then { info with type := IS_HTTP }
  else info

/-- The memory of the decoy: the fake packet, and zeros up to the length of the data. -/
def getTcpFake (j : Job) (rand : ℕ) (info : ProtoInfo) : Packet × ProtoInfo :=
  let dp := j.g.params.dp
  let info := if dp.fakeData.data.isSome then info else fakeType j.buffer info
  let pkt := if dp.fakeData.data.isSome then dp.fakeData
    else if info.type = IS_HTTP then j.g.fakeHttp else j.g.fakeTls
  let size := max j.buffer.length pkt.size
  let p := (pkt.data.getD []).take pkt.size
  let data := p ++ List.replicate (size - p.length) 0
  if dp.fakeOffset.m ≠ .DESYNC_NONE then
    let off := genOffset rand dp.fakeOffset.pos dp.fakeOffset.flag j.buffer 0 info
    ({ size := size, data := some data, off := if off.1 > size ∨ off.1 < 0 then 0 else off.1.toNat }, off.2)
  else ({ size := size, data := some data, off := pkt.off }, info)

/-- The call for one part: the result `s`, `none` when `desync` gives up at once, and the state after
it. -/
def sendPart (j : Job) (out : Outcome) (rand : ℕ) (part : Part) (k : ℕ) (pos : Int) (st : Loop) :
    Option Int × Loop :=
  let dp := j.g.params.dp
  let len := (pos - st.lp).toNat
  match part.m with
  | .DESYNC_FAKE =>
    let fake := getTcpFake j rand st.info
    let st := { st with info := fake.2 }
    if out.alloc then
      if pos = st.lp then
        (some 0, { st with executed := st.executed ++ [⟨part.m, st.lp, pos, st.ttl, []⟩] })
      else if out.pipe ∧ out.setttl then
        let bytes := slice (fake.1.data.getD []) fake.1.off len
        (some (out.send len), { st with
          ttl := dp.fakeTtl
          restoreTtl := true
          executed := st.executed ++ [⟨part.m, st.lp, pos, dp.fakeTtl, bytes⟩] })
      else (some (-1), st)
    else (none, st)
  | .DESYNC_OOB =>
    if j.bfsize ≤ pos then (some (-1), st)
    else
      let oob := if dp.oobChar.2 ≠ 0 then dp.oobChar.1 else chr 'a'
      (some (out.send (len + 1) - 1), { st with
        executed := st.executed ++ [⟨part.m, st.lp, pos, st.ttl, j.bytes st.lp pos ++ [oob]⟩] })
  | .DESYNC_DISORDER | .DESYNC_DISOOB =>
    if k % 2 = 0 ∧ ¬ out.setttl then (some (-1), st)
    else
      let st := { st with ttl := if k % 2 = 0 then 1 else st.ttl, restoreTtl := true }
      if part.m = .DESYNC_DISOOB then
        if j.bfsize ≤ pos then (some (-1), st)
        else
          let oob := if dp.oobChar.2 ≠ 0 then dp.oobChar.1 else chr 'a'
          (some (out.send (len + 1) - 1), { st with
            executed := st.executed ++ [⟨part.m, st.lp, pos, st.ttl, j.bytes st.lp pos ++ [oob]⟩] })
      else
        (some (out.send len), { st with
          executed := st.executed ++ [⟨part.m, st.lp, pos, st.ttl, j.bytes st.lp pos⟩] })
  | _ =>
    (some (out.send len), { st with
      executed := st.executed ++ [⟨part.m, st.lp, pos, st.ttl, j.bytes st.lp pos⟩] })

/-- How a round of the loop ends. -/
inductive Flow where
  | next (st : Loop)
  /-- `break`. -/
  | cancel (st : Loop)
  /-- `return v`, with `*wait`. -/
  | ret (v : Int) (wait : Bool) (st : Loop)
  deriving DecidableEq, Repr

/-- `restore_state`, and `lp = pos`. -/
def Loop.restore (st : Loop) (defTtl pos : Int) : Loop :=
  { st with lp := pos, ttl := if st.restoreTtl then defTtl else st.ttl, restoreTtl := false }

/-- What follows the call for a part. -/
def afterPart (j : Job) (out : Outcome) (pos lp : Int) (s : Option Int) (st : Loop) : Flow :=
  match s with
  | none => .ret (-1) false st
  | some s =>
    let st := { st with partSent := st.currPart }
    if s < 0 then .ret (if out.eagain then lp - j.offset else -1) false st
    else if s ≠ pos - lp then .ret (lp + s - j.offset) false st
    else if out.notsent then .ret (pos - j.offset) true st
    else .next (st.restore j.g.params.defTtl pos)

/-- One round of the loop. -/
def partStep (j : Job) (part : Part) (k : ℕ) (st : Loop) : Flow :=
  let cur := st.currPart + 1
  let off := genOffset (j.rand cur) part.pos part.flag j.buffer st.lp st.info
  let pos := off.1 + part.s * k
  let st := { st with currPart := cur, info := off.2 }
  if ((j.skip ≠ 0 ∧ pos < j.skip) ∨ cur < j.partSkip) ∧ ¬ has part.flag OFFSET_START then .next st
  else if j.offset ≠ 0 ∧ pos < j.offset then .next st
  else if pos < 0 ∨ pos < st.lp then .cancel st
  else
    let pos := min pos j.buffer.length
    if cur = j.partSkip then afterPart j (j.net.part cur) pos st.lp (some (pos - st.lp)) st
    else
      let sent := sendPart j (j.net.part cur) (j.rand cur) part k pos st
      afterPart j (j.net.part cur) pos st.lp sent.1 sent.2

/-- The loop; `none` when it has come to its end. -/
def runParts (j : Job) : List (Part × ℕ) → Loop → Option (Int × Bool) × Loop
  | [], st => (none, st)
  | (part, k) :: rest, st =>
    match partStep j part k st with
    | .next st => runParts j rest st
    | .cancel st => (none, st)
    | .ret v wait st => (some (v, wait), st)

/-- What a call of `desync` leaves: its result and `*wait`, the parts executed, and the rest it sent. -/
structure Run where
  result : Int
  wait : Bool
  loop : Loop
  rest : Option (Int × Int)
  deriving DecidableEq, Repr

/-- From the loop on. -/
def desyncParts (j : Job) (info : ProtoInfo) (ttl : Int) : Run :=
  let n : Int := j.buffer.length
  let start : Loop := ⟨j.offset, 0, info, ttl, false, j.partSkip, []⟩
  match runParts j (rounds j.g.params.dp.parts) start with
  | (some (v, wait), st) => ⟨v, wait, st, none⟩
  | (none, st) =>
    if st.lp < n then
      if j.net.last (n - st.lp).toNat < 0 then
        ⟨if j.net.lastEagain then st.lp - j.offset else -1, false, st, none⟩
      else ⟨n - j.offset, false, st, some (st.lp, n)⟩
    else ⟨n - j.offset, false, st, none⟩

/-- The first call of `desync` for a connection, on the first `n` bytes of the buffer `mem`; the socket
has the TTL `ttl`. -/
def desync (g : Globals) (net : Net) (rand randTamp : ℕ → ℕ) (mem : Bytes) (n bfsize : ℕ) (ttl : Int) :
    Option Run := do
  -- the log names the host before anything is changed
  let st ← tamp randTamp bfsize g.params.dp mem n (initProtoInfo (mem.take n) .zero)
  return desyncParts ⟨g, net, rand, st.1.take st.2.1, bfsize, 0, 0, 0⟩ st.2.2 ttl

end BypassVpn.Ciadpi
