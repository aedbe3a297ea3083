import BypassVpn.Lib.Transition

/-!
# The protect handshake

The C side asks the app to keep a socket out of the VPN: `protect` in `extend.c` connects to a local
socket, sends one octet with the descriptor attached and waits for one octet back. The other end is
`handleClient` of `ProtectSocketServer`, one worker for each connection. Any number of requests run at
once.

* `Params`, `Client`, `Worker`, `Conn`: the two ends of one request and what is in flight between them.
* `ConnLabel`, `connStep`: every step either end can take, with how the calls it makes turn out;
  `Handshake`, `step`: all requests, and the server being started and stopped.
* `Sound`: what a successful return promises; `ConnInv`, `connStep_inv`: why the octet `1` keeps it.
* **`handshake_sound`**: it holds along every run in which no client reads the failure octet `0`.
-/

namespace BypassVpn.Handshake

open Transition

/-- A socket; duplicated descriptors are the same socket. -/
abbrev Socket := ℕ

/-- What `socket_mod` reads of `params`. -/
structure Params where
  customTtl : Bool
  /-- `protect_path` is set. -/
  protectPath : Bool
  deriving DecidableEq, Repr

/-- Where a call of `socket_mod` stands; from `opening` to `receiving` it is inside `protect`. -/
inductive Client where
  | idle
  | entered
  | opening
  | connecting
  | sending
  | receiving
  | returned (r : Int)
  deriving DecidableEq, Repr

/-- Where `handleClient` stands. -/
inductive Worker where
  /-- Not accepted yet. -/
  | absent
  | reading
  /-- The marker was read; the ancillary descriptor, if one came. -/
  | checking (fd : Option Socket)
  /-- Before `vpnService.protect(nativeFd)`. -/
  | protecting (fd : Socket)
  /-- Before the write of the reply. -/
  | replying (ok : Bool)
  | replied
  | closed
  deriving DecidableEq, Repr

/-- One request. -/
structure Conn where
  client : Client := .idle
  /-- The argument of `socket_mod` and `protect`. -/
  connFd : Socket := 0
  connected : Bool := false
  /-- The marker octet in flight, with its descriptor. -/
  request : Option Socket := none
  /-- The reply octet in flight. -/
  reply : Option UInt8 := none
  worker : Worker := .absent
  /-- The sockets on which `VpnService.protect` was called for this request and returned `true`. -/
  shielded : List Socket := []
  deriving DecidableEq, Repr

/-- How `VpnService.protect` ends. -/
inductive ProtectOutcome where
  | returnsTrue
  | returnsFalse
  | throws
  deriving DecidableEq, Repr

/-- A step of one request. -/
inductive ConnLabel where
  | call (fd : Socket)
  | setttl (ok : Bool)
  | socket (ok : Bool)
  | connect (ok : Bool)
  | sendmsg (ok : Bool)
  | recv
  /-- The timeout, the end of the stream or an error. -/
  | recvFails
  | accept
  /-- `input.read()`; the ancillary descriptor may not arrive. -/
  | read (arrived : Bool)
  | readEof
  | noFds
  /-- The reflective accessor gives a descriptor, or is unavailable or throws. -/
  | getInt (ok : Bool)
  | protect (outcome : ProtectOutcome)
  | write
  | close
  /-- An exception anywhere in `handleClient`: the connection is closed without a reply. -/
  | fail
  deriving DecidableEq, Repr

/-- One step of one request. -/
def connStep (params : Params) (listening : Bool) (c : Conn) : ConnLabel → Option Conn
  | .call fd => if c.client = .idle then some { c with client := .entered, connFd := fd } else none
  | .setttl ok =>
    if c.client = .entered then
      some { c with client :=
        if params.customTtl && !ok then .returned (-1)
        else if params.protectPath then .opening
        else .returned 0 }
    else none
  | .socket ok =>
    if c.client = .opening then some { c with client := if ok then .connecting else .returned (-1) }
    else none
  | .connect ok =>
    if c.client = .connecting ∧ (ok → listening) then
      some { c with client := if ok then .sending else .returned (-1), connected := ok }
    else none
  | .sendmsg ok =>
    if c.client = .sending then
      some (if ok then { c with client := .receiving, request := some c.connFd }
        else { c with client := .returned (-1) })
    else none
  | .recv =>
    if c.client = .receiving ∧ c.reply.isSome then
      -- any octet is taken for success
      some { c with client := .returned 0, reply := none }
    else none
  | .recvFails =>
    if c.client = .receiving then some { c with client := .returned (-1) } else none
  | .accept =>
    if listening ∧ c.connected ∧ c.worker = .absent then some { c with worker := .reading } else none
  | .read arrived =>
    match c.worker, c.request with
    | .reading, some fd =>
      some { c with worker := .checking (if arrived then some fd else none), request := none }
    | _, _ => none
  | .readEof =>
    match c.worker, c.request, c.client with
    | .reading, none, .returned _ => some { c with worker := .closed }
    | _, _, _ => none
  | .noFds => if c.worker = .checking none then some { c with worker := .replying false } else none
  | .getInt ok =>
    match c.worker with
    | .checking (some fd) => some { c with worker := if ok then .protecting fd else .replying false }
    | _ => none
  | .protect outcome =>
    match c.worker with
    | .protecting fd =>
      match outcome with
      | .returnsTrue => some { c with worker := .replying true, shielded := fd :: c.shielded }
      | .returnsFalse => some { c with worker := .replying false }
      | .throws => some { c with worker := .replying false }
    | _ => none
  | .write =>
    match c.worker with
    | .replying ok => some { c with worker := .replied, reply := some (if ok then 1 else 0) }
    | _ => none
  | .close => if c.worker = .replied then some { c with worker := .closed } else none
  | .fail =>
    if c.worker ≠ .absent ∧ c.worker ≠ .closed then some { c with worker := .closed } else none

/-- All requests, and whether the server accepts connections. -/
structure State where
  conns : ℕ → Conn := fun _ => {}
  listening : Bool := false

/-- A step of the server, or of one request. -/
inductive Label where
  | start
  | stop
  | conn (k : ℕ) (l : ConnLabel)
  deriving DecidableEq, Repr

/-- One step; `none` where it cannot be taken. -/
def step (params : Params) (s : State) : Label → Option State
  | .start => some { s with listening := true }
  | .stop => some { s with listening := false }
  | .conn k l =>
    (connStep params s.listening (s.conns k) l).map fun c => { s with conns := Function.update s.conns k c }

/-- A successful return means that `VpnService.protect` returned `true` on the very socket. -/
def Sound (c : Conn) : Prop := c.client = .returned 0 → c.connFd ∈ c.shielded

/-- No client reads the octet with which the server reports a failure. -/
def NoFailureRead (s : State) (l : Label) : Prop := ∀ k, l = .conn k .recv → (s.conns k).reply ≠ some 0

/-! ### The invariant of one request -/

/-- Before `connect` has returned. -/
def Client.early : Client → Bool
  | .idle | .entered | .opening | .connecting => true
  | _ => false

/-- What holds of a request in every run in which no failure octet is read. -/
structure ConnInv (c : Conn) : Prop where
  early : c.client.early → c.connected = false
  sending : c.client = .sending → c.connected = true
  unconnected : c.connected = false → c.request = none ∧ c.worker = .absent ∧ c.reply = none
  request : ∀ fd, c.request = some fd → fd = c.connFd
  checking : ∀ fd, c.worker = .checking (some fd) → fd = c.connFd
  protecting : ∀ fd, c.worker = .protecting fd → fd = c.connFd
  replying : c.worker = .replying true → c.connFd ∈ c.shielded
  reply : ∀ b, c.reply = some b → b ≠ 0 → c.connFd ∈ c.shielded
  sound : Sound c

theorem connInv_init : ConnInv {} := by
  constructor <;> simp [Sound, Client.early]

variable {params : Params} {listening : Bool} {c c' : Conn} {l : ConnLabel}

theorem ConnInv.withClient (h : ConnInv c) {x : Client} (hearly : x.early → c.connected = false)
    (hsend : x = .sending → c.connected = true) (hret : x = .returned 0 → c.connFd ∈ c.shielded) :
    ConnInv { c with client := x } :=
  { h with early := hearly, sending := hsend, sound := hret }

theorem ConnInv.withWorker (h : ConnInv c) {w : Worker} {r : Option Socket} (hcon : c.connected = true)
    (hr : r = none ∨ r = c.request) (hchk : ∀ fd, w = .checking (some fd) → fd = c.connFd)
    (hprot : ∀ fd, w = .protecting fd → fd = c.connFd)
    (hrepl : w = .replying true → c.connFd ∈ c.shielded) :
    ConnInv { c with worker := w, request := r } where
  early := h.early
  sending := h.sending
  unconnected hn := absurd hcon (by simp [show c.connected = false from hn])
  request := by
    rcases hr with rfl | rfl
    · exact fun fd hfd => absurd hfd (by simp)
    · exact h.request
  checking := hchk
  protecting := hprot
  replying := hrepl
  reply := h.reply
  sound := h.sound

theorem ConnInv.connected_of_worker (h : ConnInv c) (hw : c.worker ≠ .absent) : c.connected = true := by
  by_contra hc
  exact hw (h.unconnected (by simpa using hc)).2.1

/-! ### The steps of the client -/

theorem ConnInv.call_step {fd : Socket} (h : ConnInv c)
    (hs : connStep params listening c (.call fd) = some c') : ConnInv c' := by
  simp only [connStep, Option.ite_none_right_eq_some, Option.some.injEq] at hs
  obtain ⟨hc, rfl⟩ := hs
  have hcon : c.connected = false := h.early (by rw [hc]; rfl)
  obtain ⟨hreq, hw, hrep⟩ := h.unconnected hcon
  constructor <;> simp [hcon, hreq, hw, hrep, Sound]

theorem ConnInv.connect_step {ok : Bool} (h : ConnInv c)
    (hs : connStep params listening c (.connect ok) = some c') : ConnInv c' := by
  simp only [connStep, Option.ite_none_right_eq_some, Option.some.injEq] at hs
  obtain ⟨⟨hc, -⟩, rfl⟩ := hs
  have hcon : c.connected = false := h.early (by rw [hc]; rfl)
  obtain ⟨hreq, hw, hrep⟩ := h.unconnected hcon
  cases ok <;> constructor <;> simp [hreq, hw, hrep, Sound, Client.early]

theorem ConnInv.sendmsg_step {ok : Bool} (h : ConnInv c)
    (hs : connStep params listening c (.sendmsg ok) = some c') : ConnInv c' := by
  simp only [connStep, Option.ite_none_right_eq_some, Option.some.injEq] at hs
  obtain ⟨hc, rfl⟩ := hs
  have hcon := h.sending hc
  cases ok
  · exact h.withClient (by simp [Client.early]) (by simp) (by simp)
  · have h' : ConnInv { c with client := .receiving } :=
      h.withClient (by simp [Client.early]) (by simp) (by simp)
    exact { h' with
      unconnected := fun hn => absurd hcon (by simp [show c.connected = false from hn])
      request := fun fd hfd => (Option.some.inj hfd).symm }

/-- What the client reads was written for a protected socket, unless it is the failure octet. -/
theorem ConnInv.recv_step (hread : c.reply ≠ some 0) (h : ConnInv c)
    (hs : connStep params listening c .recv = some c') : ConnInv c' := by
  simp only [connStep, Option.ite_none_right_eq_some, Option.some.injEq] at hs
  obtain ⟨⟨hc, hb⟩, rfl⟩ := hs
  obtain ⟨b, hb⟩ := Option.isSome_iff_exists.mp hb
  have hin := h.reply b hb fun h0 => hread (h0 ▸ hb)
  have h' : ConnInv { c with client := .returned 0 } :=
    h.withClient (by simp [Client.early]) (by simp) fun _ => hin
  exact { h' with
    unconnected := fun hn => ⟨(h.unconnected hn).1, (h.unconnected hn).2.1, rfl⟩
    reply := fun b hb => absurd hb (by simp) }

/-! ### The steps of the worker -/

theorem ConnInv.read_step {arrived : Bool} (h : ConnInv c)
    (hs : connStep params listening c (.read arrived) = some c') : ConnInv c' := by
  simp only [connStep] at hs
  split at hs
  · rename_i fd hw hr
    cases hs
    have hfd := h.request fd hr
    have hcon := h.connected_of_worker (by simp [hw])
    cases arrived
    · exact h.withWorker hcon (.inl rfl) (by simp) (by simp) (by simp)
    · exact h.withWorker hcon (.inl rfl) (by simp [hfd]) (by simp) (by simp)
  · cases hs

theorem ConnInv.readEof_step (h : ConnInv c) (hs : connStep params listening c .readEof = some c') :
    ConnInv c' := by
  simp only [connStep] at hs
  split at hs
  · rename_i hw _ _
    cases hs
    exact h.withWorker (h.connected_of_worker (by simp [hw])) (.inr rfl) (by simp) (by simp) (by simp)
  · cases hs

theorem ConnInv.getInt_step {ok : Bool} (h : ConnInv c)
    (hs : connStep params listening c (.getInt ok) = some c') : ConnInv c' := by
  simp only [connStep] at hs
  split at hs
  · rename_i fd hw
    cases hs
    have hfd := h.checking fd hw
    have hcon := h.connected_of_worker (by simp [hw])
    cases ok
    · exact h.withWorker hcon (.inr rfl) (by simp) (by simp) (by simp)
    · exact h.withWorker hcon (.inr rfl) (by simp) (by simp [hfd]) (by simp)
  · cases hs

/-- `VpnService.protect` adds the descriptor of the request or nothing. -/
theorem ConnInv.protect_step {outcome : ProtectOutcome} (h : ConnInv c)
    (hs : connStep params listening c (.protect outcome) = some c') : ConnInv c' := by
  simp only [connStep] at hs
  split at hs
  · rename_i fd hw
    have hfd := h.protecting fd hw
    have hcon := h.connected_of_worker (by simp [hw])
    cases outcome <;> cases hs
    · have h' : ConnInv { c with shielded := fd :: c.shielded } :=
        { h with
          replying := fun hr => List.mem_cons_of_mem _ (h.replying hr)
          reply := fun b hb hne => List.mem_cons_of_mem _ (h.reply b hb hne)
          sound := fun hr => List.mem_cons_of_mem _ (h.sound hr) }
      exact h'.withWorker hcon (.inr rfl) (by simp) (by simp) (by simp [hfd])
    · exact h.withWorker hcon (.inr rfl) (by simp) (by simp) (by simp)
    · exact h.withWorker hcon (.inr rfl) (by simp) (by simp) (by simp)
  · cases hs

theorem ConnInv.write_step (h : ConnInv c) (hs : connStep params listening c .write = some c') :
    ConnInv c' := by
  simp only [connStep] at hs
  split at hs
  · rename_i ok hw
    cases hs
    have hcon := h.connected_of_worker (by simp [hw])
    have h' : ConnInv { c with worker := .replied } :=
      h.withWorker hcon (.inr rfl) (by simp) (by simp) (by simp)
    refine { h' with
      unconnected := fun hn => absurd hcon (by simp [show c.connected = false from hn])
      reply := fun b hb hne => h.replying ?_ }
    -- a reply other than `0` was written on `ok`
    cases ok
    · exact absurd (Option.some.inj hb).symm hne
    · exact hw
  · cases hs

/-- **One step of one request keeps the invariant**, unless the client reads the failure octet. -/
theorem connStep_inv (hpath : params.protectPath = true) (hread : l = .recv → c.reply ≠ some 0)
    (h : ConnInv c) (hs : connStep params listening c l = some c') : ConnInv c' := by
  cases l with
  | call fd => exact h.call_step hs
  | setttl ok =>
    simp only [connStep, Option.ite_none_right_eq_some, Option.some.injEq, hpath, if_true] at hs
    obtain ⟨hc, rfl⟩ := hs
    have hcon : c.connected = false := h.early (by rw [hc]; rfl)
    refine h.withClient (fun _ => hcon) ?_ ?_ <;> split_ifs <;> simp
  | socket ok =>
    simp only [connStep, Option.ite_none_right_eq_some, Option.some.injEq] at hs
    obtain ⟨hc, rfl⟩ := hs
    have hcon : c.connected = false := h.early (by rw [hc]; rfl)
    refine h.withClient (fun _ => hcon) ?_ ?_ <;> split_ifs <;> simp
  | connect ok => exact h.connect_step hs
  | sendmsg ok => exact h.sendmsg_step hs
  | recv => exact h.recv_step (hread rfl) hs
  | recvFails =>
    simp only [connStep, Option.ite_none_right_eq_some, Option.some.injEq] at hs
    obtain ⟨hc, rfl⟩ := hs
    exact h.withClient (by simp [Client.early]) (by simp) (by simp)
  | accept =>
    simp only [connStep, Option.ite_none_right_eq_some, Option.some.injEq] at hs
    obtain ⟨⟨-, hcon, -⟩, rfl⟩ := hs
    exact h.withWorker hcon (.inr rfl) (by simp) (by simp) (by simp)
  | read arrived => exact h.read_step hs
  | readEof => exact h.readEof_step hs
  | noFds =>
    simp only [connStep, Option.ite_none_right_eq_some, Option.some.injEq] at hs
    obtain ⟨hw, rfl⟩ := hs
    exact h.withWorker (h.connected_of_worker (by simp [hw])) (.inr rfl) (by simp) (by simp) (by simp)
  | getInt ok => exact h.getInt_step hs
  | protect outcome => exact h.protect_step hs
  | write => exact h.write_step hs
  | close =>
    simp only [connStep, Option.ite_none_right_eq_some, Option.some.injEq] at hs
    obtain ⟨hw, rfl⟩ := hs
    exact h.withWorker (h.connected_of_worker (by simp [hw])) (.inr rfl) (by simp) (by simp) (by simp)
  | fail =>
    simp only [connStep, Option.ite_none_right_eq_some, Option.some.injEq] at hs
    obtain ⟨⟨hw, -⟩, rfl⟩ := hs
    exact h.withWorker (h.connected_of_worker hw) (.inr rfl) (by simp) (by simp) (by simp)

/-! ### All requests -/

theorem step_inv (hpath : params.protectPath = true) {s s' : State} {l : Label} (h : ∀ k, ConnInv (s.conns k))
    (hguard : NoFailureRead s l) (hs : step params s l = some s') : ∀ k, ConnInv (s'.conns k) := by
  cases l with
  | start =>
    cases hs
    exact h
  | stop =>
    cases hs
    exact h
  | conn k l =>
    rw [step] at hs
    obtain ⟨c, hc, rfl⟩ := Option.map_eq_some_iff.mp hs
    intro j
    by_cases hj : j = k
    · subst hj
      simp only [Function.update_self]
      exact connStep_inv hpath (fun hl => hguard j (by rw [hl])) (h j) hc
    · simp only [Function.update_of_ne hj]
      exact h j

/-- **A socket accepted by `socket_mod` is protected** in every state of every run in which no client
reads the failure octet. -/
theorem handshake_sound (params : Params) (hpath : params.protectPath = true) (s : State)
    (h : Reachable (step params) {} NoFailureRead s) (k : ℕ) : Sound (s.conns k) :=
  (h.invariant (fun _ => connInv_init) (fun _ _ _ _ hinv hg hs => step_inv hpath hinv hg hs) k).sound

/-- One request up to the reply, with the outcome of `VpnService.protect`. -/
def exchange (outcome : ProtectOutcome) : List Label :=
  [.start, .conn 0 (.call 7), .conn 0 (.setttl true), .conn 0 (.socket true), .conn 0 (.connect true),
    .conn 0 .accept, .conn 0 (.sendmsg true), .conn 0 (.read true), .conn 0 (.getInt true),
    .conn 0 (.protect outcome), .conn 0 .write, .conn 0 .recv]

/-- The check of `NoFailureRead`. -/
def noFailureRead (s : State) : Label → Bool
  | .conn k .recv => (s.conns k).reply != some 0
  | _ => true

theorem handshake_sound_exchange :
    ∃ s, Reachable (step ⟨false, true⟩) {} NoFailureRead s ∧ (s.conns 0).client = .returned 0 ∧
      (s.conns 0).connFd = 7 ∧ Sound (s.conns 0) := by
  have hok : ∀ s l, Reachable (step ⟨false, true⟩) {} NoFailureRead s → noFailureRead s l = true →
      NoFailureRead s l := by
    rintro s l - h k rfl
    simpa [noFailureRead] using h
  obtain ⟨s, hs, hf⟩ := reachable_of_run (step ⟨false, true⟩) {} hok (exchange .returnsTrue)
    (fun s => ((s.conns 0).client, (s.conns 0).connFd)) (b := (.returned 0, 7)) (by decide)
  have hclient := congrArg Prod.fst hf
  have hfd := congrArg Prod.snd hf
  exact ⟨s, hs, hclient, hfd, handshake_sound ⟨false, true⟩ rfl s hs 0⟩

/-- When `VpnService.protect` returns `false`, the server still replies with an octet and `protect`
still returns `0`. -/
theorem handshake_unsound : ¬ ∀ params : Params, params.protectPath = true →
    ∀ s, Reachable (step params) {} anyStep s → ∀ k, Sound (s.conns k) := by
  intro h
  obtain ⟨s, hs, hf⟩ := reachable_of_run (step ⟨false, true⟩) {} anyStep_of_true (exchange .returnsFalse)
    (fun s => ((s.conns 0).client, (s.conns 0).shielded)) (b := (.returned 0, [])) (by decide)
  have hsound := h ⟨false, true⟩ rfl s hs 0 (congrArg Prod.fst hf)
  rw [show (s.conns 0).shielded = [] from congrArg Prod.snd hf] at hsound
  exact List.not_mem_nil hsound

end BypassVpn.Handshake
