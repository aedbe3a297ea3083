import BypassVpn.Lib.Ledger
import BypassVpn.Packet.Jvm
import BypassVpn.Service.Handshake

/-!
# `handleClient`: the descriptors of a protect request

The kernel makes a new descriptor in the JVM process for every ancillary descriptor that a read brings.
`handleClient` of `ProtectSocketServer` looks at the first of them and closes the client socket.

* `Course`: how the calls of one request turn out; `FdM`: code with a ledger of descriptors, which
  survives an exception.
* `handleClient`, with its `try` block `protectRequest`; `connection`: one request from `accept()` on.
* **`requests_balanced_iff`**: for any requests, served in any interleaving, every descriptor is closed
  exactly once if and only if no request brings one.
-/

namespace BypassVpn.ProtectServer

open Ledger Handshake

/-- The descriptors of one request in the JVM process. -/
inductive Fd where
  | socket
  | ancillary (i : ℕ)
  deriving DecidableEq

/-- `input.read()`: the end of the stream, an octet, or an exception. -/
inductive ReadOutcome where
  | eof
  | marker
  | throws
  deriving DecidableEq

/-- The accessor `getInt$`, if reflection finds it, applied to the first descriptor. -/
inductive GetInt where
  | unavailable
  | throws
  | gives (nativeFd : ℤ)
  deriving DecidableEq

/-- How the calls of one `handleClient` turn out. -/
structure Course where
  /-- `socket.inputStream` and `socket.outputStream` return. -/
  streams : Bool
  read : ReadOutcome
  /-- The number of descriptors that come with what is read. -/
  received : ℕ
  /-- `socket.ancillaryFileDescriptors` returns. -/
  ancillary : Bool
  getInt : GetInt
  protect : ProtectOutcome
  /-- `output.write` returns. -/
  write : Bool
  deriving DecidableEq

/-- The ledger of descriptors and the octets sent to the client. -/
structure Effects where
  fds : List (Event Fd) := []
  sent : List UInt8 := []

/-- A computation with descriptors, which survive an exception. -/
abbrev FdM := ExceptT Exn (StateM Effects)

def ioException : Exn := .other "IOException"

/-- A call that returns or throws. -/
def call (returns : Bool) : FdM Unit := if returns then pure () else throw ioException

/-- Descriptors are opened or closed. -/
def record (events : List (Event Fd)) : FdM Unit := modify fun e => { e with fds := e.fds ++ events }

/-- `output.write(octet)`. -/
def writeOctet (c : Course) (octet : UInt8) : FdM Unit := do
  call c.write
  modify fun e => { e with sent := e.sent ++ [octet] }

/-- `val nativeFd`. -/
def Course.nativeFd (c : Course) : ℤ :=
  match c.getInt with
  | .gives n => n
  | _ => -1

/-- `val ok`. -/
def Course.ok (c : Course) : Bool := decide (0 ≤ c.nativeFd) && decide (c.protect = .returnsTrue)

/-- The `try` block of `handleClient`. -/
def protectRequest (c : Course) : FdM Unit := do
  call c.streams
  let fds := (List.range c.received).map Fd.ancillary
  record (fds.map .opened)
  match c.read with
  | .throws => throw ioException
  | .eof => return
  | .marker =>
    call c.ancillary
    match fds with
    | [] => writeOctet c 0
    | _ :: _ => writeOctet c (if c.ok then 1 else 0)

/-- Exceptions end the request; in the end the client socket is closed. -/
def handleClient (c : Course) : FdM Unit := do
  tryCatch (protectRequest c) fun _ => pure ()
  record [.closed .socket]

/-- The ledger of one request: `accept()` opens the client socket, `handleClient` does the rest. -/
def connection (c : Course) : List (Event Fd) :=
  .opened .socket :: ((handleClient c).run.run {}).2.fds

/-- The descriptors that the read brings. -/
def Course.receives (c : Course) : ℕ := if c.streams then c.received else 0

theorem connection_eq (c : Course) :
    connection c =
      .opened .socket :: ((List.range c.receives).map Fd.ancillary).map .opened ++ [.closed .socket] := by
  obtain ⟨streams, read, received, ancillary, getInt, protect, write⟩ := c
  unfold connection handleClient protectRequest Course.receives
  cases streams with
  | false => rfl
  | true =>
    cases read with
    | eof => rfl
    | throws => rfl
    | marker =>
      cases ancillary with
      | false => rfl
      | true =>
        simp only [if_true]
        generalize (List.range received).map Fd.ancillary = fds
        cases fds <;> cases write <;> rfl

theorem closes_connection (c : Course) : closes (connection c) = [.socket] := by
  rw [connection_eq, closes_append, closes_cons_opened, closes_map_opened]
  rfl

theorem opens_connection (c : Course) :
    opens (connection c) = .socket :: (List.range c.receives).map Fd.ancillary := by
  rw [connection_eq, opens_append, opens_cons_opened, opens_map_opened]
  exact List.append_nil _

theorem balanced_connection_iff (c : Course) : Balanced (connection c) ↔ c.receives = 0 := by
  constructor
  · intro h
    have hlen := h.length_eq
    rw [closes_connection, opens_connection] at hlen
    simpa using hlen.symm
  · intro h
    refine ⟨?_, ?_⟩
    · rw [opens_connection, h]
      exact List.nodup_singleton _
    · rw [closes_connection, opens_connection, h]
      exact .refl _

/-- The ledger of the process while the requests are served, in any interleaving. -/
def Interleaves (courses : List Course) (log : List (Event (ℕ × Fd))) : Prop :=
  ∀ k, part k log = (courses[k]?.map connection).getD []

/-- **Descriptors received are never closed.** Whatever the requests and however they are interleaved,
every descriptor opened for them is closed exactly once if and only if none of them brings an ancillary
descriptor; the client sockets are closed in any case. -/
theorem requests_balanced_iff (courses : List Course) (log : List (Event (ℕ × Fd)))
    (hlog : Interleaves courses log) :
    (∀ k, k < courses.length → closes (part k log) = [.socket]) ∧
    (Balanced log ↔ ∀ c ∈ courses, c.receives = 0) := by
  have hpart : ∀ k (hk : k < courses.length), part k log = connection courses[k] := by
    intro k hk
    rw [hlog k, List.getElem?_eq_getElem hk]
    rfl
  constructor
  · intro k hk
    rw [hpart k hk, closes_connection]
  rw [balanced_iff_part]
  constructor
  · intro h c hc
    obtain ⟨k, hk, rfl⟩ := List.mem_iff_getElem.mp hc
    rw [← balanced_connection_iff, ← hpart k hk]
    exact h k
  · intro h k
    by_cases hk : k < courses.length
    · rw [hpart k hk, balanced_connection_iff]
      exact h _ (List.getElem_mem hk)
    · rw [hlog k, List.getElem?_eq_none (Nat.le_of_not_lt hk)]
      exact Balanced.nil

/-- A request that ends before a descriptor arrives. -/
def closedEarly : Course where
  streams := true
  read := .eof
  received := 0
  ancillary := true
  getInt := .gives 9
  protect := .returnsTrue
  write := true

theorem requests_balanced_iff_closedEarly :
    ∃ log, Interleaves [closedEarly, closedEarly] log ∧ Balanced log := by
  let log : List (Event (ℕ × Fd)) :=
    [.opened (0, .socket), .opened (1, .socket), .closed (1, .socket), .closed (0, .socket)]
  have hlog : Interleaves [closedEarly, closedEarly] log := by
    intro k
    match k with
    | 0 => rfl
    | 1 => rfl
    | k + 2 => rfl
  refine ⟨log, hlog, (requests_balanced_iff _ log hlog).2.mpr ?_⟩
  intro c hc
  simp only [List.mem_cons, List.not_mem_nil, or_false, or_self] at hc
  subst hc
  rfl

/-- One request that succeeds. -/
theorem descriptor_leaks : ¬ ∀ (courses : List Course) (log : List (Event (ℕ × Fd))),
    Interleaves courses log → Balanced log := by
  intro h
  let c : Course := { closedEarly with read := .marker, received := 1 }
  let log : List (Event (ℕ × Fd)) :=
    [.opened (0, .socket), .opened (0, .ancillary 0), .closed (0, .socket)]
  have hlog : Interleaves [c] log := by
    intro k
    match k with
    | 0 => rfl
    | k + 1 => rfl
  exact absurd (h [c] log hlog).length_eq (by decide)

end BypassVpn.ProtectServer
