import BypassVpn.Tun2socks.SocksSession

/-!
# What a SOCKS5 session leads to

* **`session_up`**: a client that is up is connected to where it asked for, and no byte is lost or added.
* **`session_accepted`**: a connection is made for no other address.
* **`session_cut`**: a message that is read in parts ends the session.
* **`session_completes`**: a session that neither side has given up can come up.
-/

namespace BypassVpn.SocksSession

open Ciadpi BSocksClient Request Conev Transition

variable (params : AddrParams) (udpOn : Bool) {authInfo : List AuthInfo} {dest : Option SockaddrU} {udp : Bool}
  {s : Session}

/-! ### What the client was set up with -/

/-- The client still has the methods, the command and the address it had. -/
def Same (c c' : Client) : Prop := c'.authInfo = c.authInfo ∧ c'.udp = c.udp ∧ c'.destAddr = c.destAddr

theorem same_authFinished {c c' : Client} (h : authFinished c = some c') : Same c c' := by
  obtain ⟨a, _, rfl⟩ := Option.map_eq_some_iff.mp h
  exact ⟨rfl, rfl, rfl⟩

theorem same_authenticate {c c' : Client} {ai : AuthInfo} (h : authenticate c ai = some c') : Same c c' := by
  rw [authenticate] at h
  split at h
  · exact same_authFinished h
  · split at h
    · split at h
      · exact absurd h (by simp)
      · obtain rfl := Option.some.inj h
        exact ⟨rfl, rfl, rfl⟩
    · exact absurd h (by simp)

theorem same_received {c c' : Client} {buffer : List UInt8} (h : received c buffer = some c') : Same c c' := by
  rw [received] at h
  split at h
  · split at h
    · exact absurd h (by simp)
    · obtain ⟨ai, _, ha⟩ := Option.bind_eq_some_iff.mp h
      exact same_authenticate ha
  · repeat' split at h
    all_goals first
      | (obtain rfl := Option.some.inj h; exact ⟨rfl, rfl, rfl⟩)
      | exact absurd h (by simp)
  · repeat' split at h
    all_goals first
      | exact same_authFinished h
      | exact absurd h (by simp)
  · obtain rfl := Option.some.inj h
    exact ⟨rfl, rfl, rfl⟩
  · exact absurd h (by simp)

theorem same_recvHandlerDone {c c' : Client} {data : List UInt8} (h : recvHandlerDone c data = some c') : Same c c' := by
  rw [recvHandlerDone] at h
  split at h
  · obtain rfl := Option.some.inj h
    exact ⟨rfl, rfl, rfl⟩
  · exact same_received h

theorem same_written {c c' : Client} {k : ℕ} (h : written c k = some c') : Same c c' := by
  rw [written] at h
  dsimp only at h
  split at h
  · rw [sendHandlerDone] at h
    split at h
    all_goals first
      | (obtain rfl := Option.some.inj h; exact ⟨rfl, rfl, rfl⟩)
      | exact absurd h (by simp)
  · obtain rfl := Option.some.inj h
    exact ⟨rfl, rfl, rfl⟩

theorem same_continueJobHandler {c c' : Client} (h : continueJobHandler c = some c') : Same c c' := by
  rw [continueJobHandler] at h
  split at h
  · exact absurd h (by simp)
  · obtain rfl := Option.some.inj h
    exact ⟨rfl, rfl, rfl⟩

theorem same_handle {ok : Session} {r : Option Client} (hr : ∀ c, r = some c → Same s.client c) :
    Same s.client (s.handle r ok).client := by
  cases r with
  | none => exact ⟨rfl, rfl, rfl⟩
  | some c => exact hr c rfl

/-- The client was set up with `authInfo`, `dest` and `udp`. -/
structure SetUp (authInfo : List AuthInfo) (dest : Option SockaddrU) (udp : Bool) (s : Session) : Prop where
  methods : s.client.authInfo = authInfo
  command : s.client.udp = udp
  address : udp = false → s.client.destAddr = dest

theorem SetUp.same {s' : Session} (h : SetUp authInfo dest udp s) (hs : Same s.client s'.client) :
    SetUp authInfo dest udp s' :=
  ⟨hs.1.trans h.methods, hs.2.1.trans h.command, fun hu => hs.2.2.trans (h.address hu)⟩

theorem setUp_step {s' : Session} {l : Label} (h : SetUp authInfo dest udp s)
    (hs : step params udpOn s l = some s') : SetUp authInfo dest udp s' := by
  cases l with
  | connector bound =>
    obtain ⟨_, hs⟩ := Option.ite_none_right_eq_some.mp hs
    obtain rfl := Option.some.inj hs
    refine ⟨h.methods, h.command, fun hu => ?_⟩
    rw [connectorHandler, h.command, hu]
    exact h.address hu
  | continueJob =>
    obtain ⟨_, hs⟩ := Option.ite_none_right_eq_some.mp hs
    obtain rfl := Option.some.inj hs
    exact h.same (same_handle fun _ hc => same_continueJobHandler hc)
  | write k =>
    obtain ⟨_, hs⟩ := Option.ite_none_right_eq_some.mp hs
    obtain rfl := Option.some.inj hs
    exact h.same (same_handle fun _ hc => same_written hc)
  | read k =>
    obtain ⟨_, hs⟩ := Option.ite_none_right_eq_some.mp hs
    obtain rfl := Option.some.inj hs
    exact h.same (same_handle fun _ hc => same_recvHandlerDone hc)
  | closeClient =>
    obtain rfl := Option.some.inj hs
    exact ⟨h.methods, h.command, h.address⟩
  | closeServer =>
    obtain rfl := Option.some.inj hs
    exact ⟨h.methods, h.command, h.address⟩
  | request | connect | userWrite | userRead | tunnelRead | tunnelWrite =>
    obtain ⟨_, hs⟩ := Option.ite_none_right_eq_some.mp hs
    obtain rfl := Option.some.inj hs
    exact ⟨h.methods, h.command, h.address⟩

theorem setUp_of_reachable (h : Reachable (step params udpOn) (.init authInfo dest udp) anyStep s) :
    SetUp authInfo dest udp s :=
  h.invariant ⟨rfl, rfl, fun _ => rfl⟩ fun _ _ _ _ hp _ hs => setUp_step params udpOn hp hs

/-! ### What a session leads to -/

/-- A host with an IPv4 address. -/
def sampleAddr : SockaddrU := ⟨.AF_INET, [203, 0, 113, 9], [31, 144], rfl, rfl⟩

/-- A server without IPv6 and without host names. -/
def sampleParams : AddrParams := ⟨false, false, fun _ => none⟩

/-- The one method that is offered. -/
def noAuth : AuthInfo := ⟨S_AUTH_NONE, [], []⟩

/-- The calls of a request that the server can serve. -/
def servingCalls : RequestCalls := ⟨true, some anyAddr, false⟩

/-- The hello in two parts, the request in one; the tunnel writes before the client has read the reply. -/
def sampleLabels : List Label :=
  [.connector none, .continueJob, .write 1, .write 2, .request 3 servingCalls, .read 1, .read 1, .write 10,
    .request 10 servingCalls, .connect none, .tunnelWrite [7, 8], .read 4, .read 6, .userWrite [1, 2, 3],
    .tunnelRead 2, .userRead 1]

theorem reachable_sample :
    ∃ s, Reachable (step sampleParams true) (.init [noAuth] (some sampleAddr) false) anyStep s ∧
      (s.client.state, s.conn.accepted) = (.UP, some (S_CMD_CONN, sampleAddr)) :=
  reachable_of_run (step sampleParams true) (.init [noAuth] (some sampleAddr) false) anyStep_of_true sampleLabels
    (fun s => (s.client.state, s.conn.accepted)) (by decide)

theorem Phase.accepted_of (h : Phase s) {x : UInt8 × SockaddrU} (hx : s.conn.accepted = some x) :
    ∃ a, s.client.destAddr = some a ∧ x = (cmd s.client.udp, a) := by
  cases h.server with
  | refused _ haccepted => exact haccepted x hx
  | waiting f h => exact absurd (h.accepted.symm.trans hx) (by simp)
  | accepted a h =>
    refine ⟨a, h.dest, ?_⟩
    rw [h.udp]
    exact Option.some.inj (hx.symm.trans h.accepted)
  | serving a b h => exact ⟨a, h.dest, Option.some.inj (hx.symm.trans h.accepted)⟩

/-- **No connection is made to another address than the one the client was given.** -/
theorem session_accepted (h : Reachable (step params udpOn) (.init authInfo dest udp) anyStep s)
    {x : UInt8 × SockaddrU} (hx : s.conn.accepted = some x) :
    ∃ a, s.client.destAddr = some a ∧ x = (cmd udp, a) ∧ (udp = false → dest = some a) := by
  obtain ⟨a, ha, rfl⟩ := (phase_of_reachable params udpOn h).accepted_of hx
  obtain ⟨-, hu, hd⟩ := setUp_of_reachable params udpOn h
  exact ⟨a, ha, by rw [hu], fun hf => (hd hf).symm.trans ha⟩

theorem session_accepted_sample :
    ∃ s : Session, s.conn.accepted = some (S_CMD_CONN, sampleAddr) ∧
      ∃ a, s.client.destAddr = some a ∧ (S_CMD_CONN, sampleAddr) = (cmd false, a) ∧ some sampleAddr = some a := by
  obtain ⟨s, hs, hb⟩ := reachable_sample
  obtain ⟨a, ha, hx, hd⟩ := session_accepted sampleParams true hs (congrArg Prod.snd hb)
  exact ⟨s, congrArg Prod.snd hb, a, ha, hx, hd rfl⟩

/-- **A client that is up is connected to where it asked for, has the address of the reply, and no byte is lost,
added or out of order**: what its user wrote has gone through the tunnel, but for what is on its way, and the same in
the other direction. -/
theorem session_up (h : Reachable (step params udpOn) (.init authInfo dest udp) anyStep s)
    (hs : s.client.state = .UP) :
    ∃ a b, s.client.destAddr = some a ∧ s.conn.accepted = some (cmd udp, a) ∧ s.client.bindAddr = some b ∧
      [S_VER5, S_AUTH_NONE] ++ replyWith b <+: s.answers ∧
      (udp = false → dest = some a ∧ b = anyAddr ∧ s.relayed ++ s.up = s.app ∧ s.got ++ s.down = s.data) := by
  obtain ⟨a, b, hup⟩ := (phase_of_reachable params udpOn h).of_up hs
  obtain ⟨-, hu, hd⟩ := setUp_of_reachable params udpOn h
  refine ⟨a, b, hup.serving.dest, by rw [← hu]; exact hup.serving.accepted, hup.bindAddr, hup.serving.reply,
    fun hf => ?_⟩
  have hf' := hu.trans hf
  exact ⟨(hd hf).symm.trans hup.serving.dest, (hup.serving.tcp hf').1, hup.relay hf'⟩

/-- The address that the system gives to the socket for the datagrams. -/
def boundAddr : SockaddrU := ⟨.AF_INET, [127, 0, 0, 1], [201, 5], rfl, rfl⟩

/-- A client for datagrams. -/
def udpLabels : List Label :=
  [.connector (some anyAddr), .continueJob, .write 3, .request 3 servingCalls, .read 2, .write 10,
    .request 10 ⟨true, some boundAddr, false⟩, .read 4, .read 6]

theorem session_up_sample :
    (∃ s : Session, s.client.state = .UP ∧
      ∃ a b, s.client.destAddr = some a ∧ s.conn.accepted = some (cmd false, a) ∧ s.client.bindAddr = some b ∧
        [S_VER5, S_AUTH_NONE] ++ replyWith b <+: s.answers ∧
        some sampleAddr = some a ∧ b = anyAddr ∧ s.relayed ++ s.up = s.app ∧ s.got ++ s.down = s.data) ∧
      ∃ s : Session, s.client.state = .UP ∧ s.conn.accepted = some (S_CMD_AUDP, anyAddr) ∧
        s.client.bindAddr = some boundAddr ∧ [S_VER5, S_AUTH_NONE] ++ replyWith boundAddr <+: s.answers := by
  refine ⟨?_, ?_⟩
  · obtain ⟨s, hs, hb⟩ := reachable_sample
    obtain ⟨a, b, ha, hacc, hbind, hreply, hrelay⟩ := session_up sampleParams true hs (congrArg Prod.fst hb)
    exact ⟨s, congrArg Prod.fst hb, a, b, ha, hacc, hbind, hreply, hrelay rfl⟩
  · obtain ⟨s, hs, hb⟩ := reachable_of_run (step sampleParams true) (.init [noAuth] none true) anyStep_of_true
      udpLabels (b := (.UP, some anyAddr, some boundAddr))
      (fun s => (s.client.state, s.client.destAddr, s.client.bindAddr)) (by decide)
    obtain ⟨hup, hb⟩ := Prod.mk.inj hb
    obtain ⟨hdest, hbound⟩ := Prod.mk.inj hb
    obtain ⟨a, b, ha, hacc, hbind, hreply, -⟩ := session_up sampleParams true hs hup
    obtain rfl := Option.some.inj (hdest.symm.trans ha)
    obtain rfl := Option.some.inj (hbound.symm.trans hbind)
    exact ⟨s, hup, hacc, hbound, hreply⟩

/-- The server has closed the connection before it accepted anything. -/
def Ended (s : Session) : Prop := s.conn.closed = true ∧ s.conn.accepted = none

theorem ended_step {s' : Session} {l : Label} (h : Ended s) (hs : step params udpOn s l = some s') : Ended s' := by
  have hopen : s.conn.closed ≠ false := by simp [h.1]
  have hhandle : ∀ r ok, ok.conn = s.conn → Ended (s.handle r ok) := by
    intro r ok hok
    cases r with
    | none => exact h
    | some c => exact ⟨hok ▸ h.1, hok ▸ h.2⟩
  cases l with
  | request | connect | tunnelRead | tunnelWrite =>
    obtain ⟨hg, _⟩ := Option.ite_none_right_eq_some.mp hs
    exact absurd hg.1 hopen
  | closeClient =>
    obtain rfl := Option.some.inj hs
    exact h
  | closeServer =>
    obtain rfl := Option.some.inj hs
    exact ⟨rfl, h.2⟩
  | connector | userWrite | userRead =>
    obtain ⟨_, hs⟩ := Option.ite_none_right_eq_some.mp hs
    obtain rfl := Option.some.inj hs
    exact h
  | continueJob | write | read =>
    obtain ⟨_, hs⟩ := Option.ite_none_right_eq_some.mp hs
    obtain rfl := Option.some.inj hs
    exact hhandle _ _ rfl

/-- **A message that is read in parts ends the session**: the server takes the part for the whole, closes the
connection, and the client never comes up. -/
theorem session_cut (h : Reachable (step params udpOn) (.init authInfo dest udp) anyStep s) {k : ℕ}
    {calls : RequestCalls} {s' : Session} (hs : step params udpOn s (.request k calls) = some s')
    (hcut : k < s.up.length ∨ s.client.unsent ≠ []) :
    s'.conn.closed = true ∧ s'.conn.accepted = none ∧
      ∀ t, Reachable (step params udpOn) s' anyStep t → t.client.state ≠ .UP := by
  have hreach := h.next (.request k calls) trivial hs
  obtain ⟨⟨hc, hcb, h0, hk⟩, hs⟩ := Option.ite_none_right_eq_some.mp hs
  obtain rfl := (Option.some.inj hs).symm
  have hend : Ended (s.requested params udpOn k calls) := by
    have hask := (phase_of_reachable params udpOn h).asking hc hcb (List.ne_nil_of_length_pos (by omega))
    obtain ⟨bs, hr, -, hacc⟩ := hask.cut params udpOn h0 hk hcut calls
    rw [hr]
    exact ⟨rfl, hacc⟩
  refine ⟨hend.1, hend.2, fun t ht hup => ?_⟩
  have hacc : Ended t := ht.invariant hend fun _ _ _ _ hp _ hs => ended_step params udpOn hp hs
  obtain ⟨a, b, hup⟩ := (phase_of_reachable params udpOn (hreach.trans ht)).of_up hup
  exact absurd (hacc.2.symm.trans hup.serving.accepted) (by simp)

/-- The server reads before the second part of the hello is written. -/
def cutLabels : List Label := [.connector none, .continueJob, .write 2]

theorem session_cut_sample :
    ∃ s : Session, Ended s ∧ ∀ t, Reachable (step sampleParams true) s anyStep t → t.client.state ≠ .UP := by
  obtain ⟨s, hs, hb⟩ := reachable_of_run (step sampleParams true) (.init [noAuth] (some sampleAddr) false)
    anyStep_of_true cutLabels
    (b := ([0], true)) (fun s => (s.client.unsent, (step sampleParams true s (.request 2 servingCalls)).isSome))
    (by decide)
  have hne : s.client.unsent ≠ [] := by
    rw [show s.client.unsent = [0] from congrArg Prod.fst hb]
    exact List.cons_ne_nil _ _
  obtain ⟨s', hs'⟩ := Option.isSome_iff_exists.mp (congrArg Prod.snd hb)
  obtain ⟨hc, ha, hup⟩ := session_cut sampleParams true hs hs' (.inr hne)
  exact ⟨s', ⟨hc, ha⟩, hup⟩

/-! ### Coming up -/

/-- Some run from here brings the client up, with neither side closed. -/
def ComesUp (s : Session) : Prop :=
  ∃ t, Reachable (step params udpOn) s anyStep t ∧ t.client.state = .UP ∧ t.gone = false ∧ t.conn.closed = false

variable {params udpOn}

theorem ComesUp.step {s' : Session} {l : Label} (h : ComesUp params udpOn s')
    (hs : SocksSession.step params udpOn s l = some s') : ComesUp params udpOn s := by
  obtain ⟨t, ht, h⟩ := h
  exact ⟨t, (Reachable.init.next l trivial hs).trans ht, h⟩

variable (params udpOn)

/-- Neither side has given up, and the client asks for what the server serves. -/
structure Able (s : Session) : Prop where
  phase : Phase s
  here : s.gone = false
  opened : s.conn.closed = false
  method : S_AUTH_NONE ∈ s.client.authInfo.map AuthInfo.authType
  few : s.client.authInfo.length ≤ 255
  dest : ∃ a, s.client.destAddr = some a ∧ (a.family = .AF_INET6 → params.ipv6 = true)
  udp : s.client.udp = true → udpOn = true

variable {params udpOn}

theorem Able.read (h : Able params udpOn s) (hr : receiving s.client = true) {message : List UInt8}
    (hmessage : s.client.recvd ++ s.down = message) (hlt : s.client.recvd.length < s.client.recvTotal)
    (hle : s.client.recvTotal ≤ message.length) {c : Client}
    (hc : received s.client (message.take s.client.recvTotal) = some c) :
    ∃ k, step params udpOn s (.read k) = some { s with client := c, down := s.down.drop k } ∧
      Able params udpOn { s with client := c, down := s.down.drop k } := by
  obtain ⟨k, hk⟩ := Nat.exists_eq_add_of_lt hlt
  have hlen := congrArg List.length hmessage
  rw [List.length_append] at hlen
  have hdown : k + 1 ≤ s.down.length := by omega
  obtain ⟨htake, -, hread⟩ := read_split hmessage hdown
  have hfit : s.client.recvd.length + (k + 1) = s.client.recvTotal := hk.symm
  rw [hfit] at htake hread
  have hs : step params udpOn s (.read (k + 1)) = some { s with client := c, down := s.down.drop (k + 1) } := by
    refine (if_pos ⟨h.here, hr, Nat.succ_pos k, hdown, hfit.le⟩).trans ?_
    rw [recvHandlerDone_all _ hread, htake, hc]
    rfl
  obtain ⟨ha, hu, hd⟩ := same_received hc
  exact ⟨k + 1, hs, phase_step params udpOn h.phase hs, h.here, h.opened, by rw [ha]; exact h.method,
    by rw [ha]; exact h.few, by rw [hd]; exact h.dest, by rw [hu]; exact h.udp⟩

/-- **An able session is in a phase of its client's state.** -/
theorem Able.client (h : Able params udpOn s) : ClientSide s s.client.state :=
  h.phase.client.resolve_right fun hc => absurd (hc.1.symm.trans h.opened) (by simp)

theorem Able.up_of_replyHeader (h : Able params udpOn s) (hs : s.client.state = .RECEIVED_REPLY_HEADER) :
    ComesUp params udpOn s := by
  have hp := h.client
  rw [hs] at hp
  obtain ⟨a, b, rest, hp⟩ := hp
  have hlen : s.client.recvTotal = (b.addr ++ b.port).length := by rw [hp.recvTotal, length_addrPort]
  have hle : s.client.recvTotal ≤ (b.addr ++ b.port ++ rest).length := by
    rw [hlen]
    exact (List.prefix_append _ _).length_le
  have htake : (b.addr ++ b.port ++ rest).take s.client.recvTotal = b.addr ++ b.port := by rw [hlen, List.take_left]
  have hc := received_rest hs b hp.bindType
  rw [← htake] at hc
  obtain ⟨k, hread, hable⟩ := h.read (by simp [receiving, hs]) hp.message (hp.recvTotal ▸ hp.recvd) hle hc
  exact ComesUp.step ⟨_, .init, rfl, hable.here, hable.opened⟩ hread

theorem Able.up_of_replied (h : Able params udpOn s) {a b : SockaddrU} {rest : List UInt8}
    (hp : Replied s a b rest) : ComesUp params udpOn s := by
  have hle : s.client.recvTotal ≤ (replyWith b ++ rest).length := by
    rw [hp.recvTotal]
    exact Nat.le_add_left 4 _
  have hc := received_reply hp.state b
  rw [← replyWith_take b rest, ← hp.recvTotal] at hc
  obtain ⟨k, hread, hable⟩ := h.read (by simp [receiving, hp.state]) hp.message (hp.recvTotal ▸ hp.recvd) hle hc
  exact (hable.up_of_replyHeader rfl).step hread

theorem Able.up_of_accepted (h : Able params udpOn s) {a : SockaddrU} (hp : Accepted s a) :
    ComesUp params udpOn s := by
  have hstep : step params udpOn s (.connect none) = some { s with
      conn := (onConnectReply s.conn none).1, down := s.down ++ (onConnectReply s.conn none).2
      answers := s.answers ++ (onConnectReply s.conn none).2 } :=
    if_pos ⟨h.opened, hp.cb, by rw [hp.accepted]; rfl⟩
  have hable : Able params udpOn { s with
      conn := (onConnectReply s.conn none).1, down := s.down ++ (onConnectReply s.conn none).2
      answers := s.answers ++ (onConnectReply s.conn none).2 } :=
    ⟨phase_step params udpOn h.phase hstep, h.here, h.opened, h.method, h.few, h.dest, h.udp⟩
  have hc := hable.client
  dsimp only at hc
  rw [hp.state] at hc
  rcases hc with ⟨a, hp'⟩ | ⟨a, hp'⟩ | ⟨a, b, rest, hp'⟩
  · exact absurd hp'.waiting.cb (by simp [onConnectReply])
  · exact absurd hp'.cb (by simp [onConnectReply])
  · exact (hable.up_of_replied hp').step hstep

theorem Able.requested (h : Able params udpOn s) (hcb : s.conn.cb = .onRequest) (hup : s.up ≠ [])
    (hopen : (s.requested params udpOn s.up.length servingCalls).conn.closed = false) :
    step params udpOn s (.request s.up.length servingCalls) =
        some (s.requested params udpOn s.up.length servingCalls) ∧
      Able params udpOn (s.requested params udpOn s.up.length servingCalls) := by
  have hs : step params udpOn s (.request s.up.length servingCalls) =
      some (s.requested params udpOn s.up.length servingCalls) :=
    if_pos ⟨h.opened, hcb, List.length_pos_iff.mpr hup, le_refl _⟩
  exact ⟨hs, phase_step params udpOn h.phase hs, h.here, hopen, h.method, h.few, h.dest, h.udp⟩

/-- The request is served, so that the client does not wait for the server to read it. -/
theorem SentRequest.served {a : SockaddrU} (hp : SentRequest s a) (h : Able params udpOn s) :
    (s.requested params udpOn s.up.length servingCalls).conn =
      { s.conn with cb := .onIgnore, accepted := some (cmd s.client.udp, a) } := by
  obtain ⟨a', ha', h6⟩ := h.dest
  obtain rfl := Option.some.inj (hp.dest.symm.trans ha')
  have hcmd : cmd s.client.udp = S_CMD_CONN ∨ cmd s.client.udp = S_CMD_AUDP ∧ udpOn = true := by
    cases hu : s.client.udp with
    | false => exact .inl rfl
    | true => exact .inr ⟨rfl, h.udp hu⟩
  have h6 : ¬(a.family = .AF_INET6 ∧ params.ipv6 = false) := by
    rintro ⟨hf, hp⟩
    exact absurd ((h6 hf).symm.trans hp) (by simp)
  rw [Session.requested, List.take_length, hp.message, request_eq, onRequest_request hp.waiting.flag]
  dsimp only
  rw [Request.served, if_pos hcmd, if_neg h6]
  cases s.client.udp with
  | false => rfl
  | true => rfl

theorem Able.up_of_sentRequest (h : Able params udpOn s) (hs : s.client.state = .SENT_REQUEST) :
    ComesUp params udpOn s := by
  have hp := h.client
  rw [hs] at hp
  rcases hp with ⟨a, hp⟩ | ⟨a, hp⟩ | ⟨a, b, rest, hp⟩
  · have hup : s.up ≠ [] := by
      rw [hp.message]
      exact List.cons_ne_nil _ _
    have hconn := hp.served h
    obtain ⟨hstep, hable⟩ := h.requested hp.waiting.cb hup (by rw [hconn]; exact h.opened)
    have hc := hable.client
    rw [show (s.requested params udpOn s.up.length servingCalls).client.state = .SENT_REQUEST from hs] at hc
    rcases hc with ⟨a, hp'⟩ | ⟨a, hp'⟩ | ⟨a, b, rest, hp'⟩
    · exact absurd (congrArg Conn.cb hconn ▸ hp'.waiting.cb) (by simp)
    · exact (hable.up_of_accepted hp').step hstep
    · exact (hable.up_of_replied hp').step hstep
  · exact h.up_of_accepted hp
  · exact h.up_of_replied hp

theorem Able.write (h : Able params udpOn s) (hne : s.client.unsent ≠ []) {c : Client}
    (hc : written s.client s.client.unsent.length = some c) :
    step params udpOn s (.write s.client.unsent.length) =
        some { s with client := c, up := s.up ++ s.client.unsent } ∧
      Able params udpOn { s with client := c, up := s.up ++ s.client.unsent } := by
  have hs : step params udpOn s (.write s.client.unsent.length) =
      some { s with client := c, up := s.up ++ s.client.unsent } := by
    refine (if_pos ⟨h.here, List.length_pos_iff.mpr hne, le_refl _⟩).trans ?_
    rw [hc, List.take_length]
    rfl
  obtain ⟨ha, hu, hd⟩ := same_written hc
  exact ⟨hs, phase_step params udpOn h.phase hs, h.here, h.opened, by rw [ha]; exact h.method, by rw [ha]; exact h.few,
    by rw [hd]; exact h.dest, by rw [hu]; exact h.udp⟩

theorem Able.up_of_request (h : Able params udpOn s) (hs : s.client.state = .SENDING_REQUEST) :
    ComesUp params udpOn s := by
  have hp := h.client
  rw [hs] at hp
  obtain ⟨a, hp⟩ := hp
  obtain ⟨hstep, hable⟩ := h.write hp.unsent (written_request hs)
  exact (hable.up_of_sentRequest rfl).step hstep

theorem Able.up_of_chosen (h : Able params udpOn s) (hp : Chosen s) : ComesUp params udpOn s := by
  have hall : [S_VER5, S_AUTH_NONE].take s.client.recvTotal = [S_VER5, S_AUTH_NONE] := by
    rw [hp.recvTotal]
    rfl
  obtain ⟨a, ha, -⟩ := h.dest
  have hc := received_method hp.state hp.method
  rw [authFinished, ha, Option.map_some, ← hall] at hc
  obtain ⟨k, hread, hable⟩ := h.read (by simp [receiving, hp.state]) hp.message (hp.recvTotal ▸ hp.recvd)
    hp.recvTotal.le hc
  exact (hable.up_of_request rfl).step hread

theorem Able.up_of_sentHello (h : Able params udpOn s) (hs : s.client.state = .SENT_HELLO) :
    ComesUp params udpOn s := by
  have hp := h.client
  rw [hs] at hp
  rcases hp with hp | hp
  · have hup : s.up ≠ [] := by
      rw [hp.message]
      exact List.cons_ne_nil _ _
    have hconn : (s.requested params udpOn s.up.length servingCalls).conn = { s.conn with flagS5 := true } := by
      rw [Session.requested, List.take_length, hp.message, hello_eq,
        onRequest_hello hp.waiting.flag (by simpa using hp.methods) (by simpa using hp.few), if_pos h.method]
    obtain ⟨hstep, hable⟩ := h.requested hp.waiting.cb hup (by rw [hconn]; exact h.opened)
    have hc := hable.client
    rw [show (s.requested params udpOn s.up.length servingCalls).client.state = .SENT_HELLO from hs] at hc
    rcases hc with hp' | hp'
    · exact absurd (congrArg Conn.flagS5 hconn ▸ hp'.waiting.flag) (by simp)
    · exact (hable.up_of_chosen hp').step hstep
  · exact h.up_of_chosen hp

theorem Able.up_of_hello (h : Able params udpOn s) (hs : s.client.state = .SENDING_HELLO) :
    ComesUp params udpOn s := by
  have hp := h.client
  rw [hs] at hp
  obtain ⟨hstep, hable⟩ := h.write (SendingHello.unsent hp) (written_hello hs)
  exact (hable.up_of_sentHello rfl).step hstep

theorem Able.up_of_connected (h : Able params udpOn s) (hs : s.client.state = .CONNECTED_HANDLER) :
    ComesUp params udpOn s := by
  have hne : 0 < s.client.authInfo.length := by
    obtain ⟨ai, hai, _⟩ := List.mem_map.mp h.method
    exact List.length_pos_of_mem hai
  have hc : continueJobHandler s.client =
      some { s.client with state := .SENDING_HELLO, unsent := BSocksClient.hello s.client.authInfo } :=
    if_neg (by have := h.few; omega)
  have hstep : step params udpOn s .continueJob = some { s with client :=
      { s.client with state := .SENDING_HELLO, unsent := BSocksClient.hello s.client.authInfo } } := by
    refine (if_pos ⟨h.here, hs⟩).trans ?_
    rw [hc]
    rfl
  have hphase := phase_step params udpOn h.phase hstep
  exact (up_of_hello ⟨hphase, h.here, h.opened, h.method, h.few, h.dest, h.udp⟩ rfl).step hstep

theorem Able.comesUp (h : Able params udpOn s) (hs : s.client.state ≠ .CONNECTING) : ComesUp params udpOn s := by
  have hp := h.client
  cases hst : s.client.state with
  | CONNECTING => exact absurd hst hs
  | CONNECTED_HANDLER => exact h.up_of_connected hst
  | SENDING_HELLO => exact h.up_of_hello hst
  | SENT_HELLO => exact h.up_of_sentHello hst
  | SENDING_PASSWORD | SENT_PASSWORD =>
    rw [hst] at hp
    exact hp.elim
  | SENDING_REQUEST => exact h.up_of_request hst
  | SENT_REQUEST => exact h.up_of_sentRequest hst
  | RECEIVED_REPLY_HEADER => exact h.up_of_replyHeader hst
  | UP => exact ⟨s, .init, hst, h.here, h.opened⟩

/-- **A session that neither side has given up can come up**, wherever it is: what has been sent, what is on its way
and what has been read fits together. -/
theorem session_completes (h : Reachable (step params udpOn) (.init authInfo dest udp) anyStep s)
    (hhere : s.gone = false) (hopen : s.conn.closed = false)
    (hmethod : S_AUTH_NONE ∈ authInfo.map AuthInfo.authType) (hfew : authInfo.length ≤ 255)
    (hdest : s.client.state = .CONNECTING ∧ udp = true ∨
      ∃ a, s.client.destAddr = some a ∧ (a.family = .AF_INET6 → params.ipv6 = true))
    (hudp : udp = true → udpOn = true) :
    ∃ t, Reachable (step params udpOn) s anyStep t ∧ t.client.state = .UP ∧ t.gone = false ∧
      t.conn.closed = false := by
  have hphase := phase_of_reachable params udpOn h
  obtain ⟨rfl, hu, -⟩ := setUp_of_reachable params udpOn h
  by_cases hs : s.client.state = .CONNECTING
  · -- the socket is connected, and a client for datagrams takes the address it is bound to
    obtain ⟨bound, hbound⟩ : ∃ bound, ∃ a, (connectorHandler s.client bound).destAddr = some a ∧
        (a.family = .AF_INET6 → params.ipv6 = true) := by
      cases hf : s.client.udp with
      | true => exact ⟨some anyAddr, anyAddr, by simp [connectorHandler, hf], fun h => absurd h (by decide)⟩
      | false =>
        obtain ⟨a, ha⟩ := hdest.resolve_left fun hd => absurd ((hu.symm.trans hf).symm.trans hd.2) (by simp)
        exact ⟨none, a, by simpa [connectorHandler, hf] using ha.1, ha.2⟩
    have hstep : step params udpOn s (.connector bound) =
        some { s with client := connectorHandler s.client bound } := if_pos ⟨hhere, hs⟩
    have hable : Able params udpOn { s with client := connectorHandler s.client bound } :=
      ⟨phase_step params udpOn hphase hstep, hhere, hopen, hmethod, hfew, hbound, fun hf => hudp (hu.symm.trans hf)⟩
    exact (hable.up_of_connected rfl).step hstep
  · have hdest := hdest.resolve_left fun hd => hs hd.1
    exact Able.comesUp ⟨hphase, hhere, hopen, hmethod, hfew, hdest, fun hf => hudp (hu.symm.trans hf)⟩ hs

theorem session_completes_sample :
    ∃ s : Session, s.client.state = .SENDING_HELLO ∧
      ∃ t, Reachable (step sampleParams true) s anyStep t ∧ t.client.state = .UP ∧ t.gone = false ∧
        t.conn.closed = false := by
  obtain ⟨s, hs, hb⟩ := reachable_of_run (step sampleParams true) (.init [noAuth] (some sampleAddr) false)
    anyStep_of_true cutLabels
    (b := (.SENDING_HELLO, false, false, some sampleAddr))
    (fun s => (s.client.state, s.gone, s.conn.closed, s.client.destAddr)) (by decide)
  obtain ⟨hst, hb⟩ := Prod.mk.inj hb
  obtain ⟨hg, hb⟩ := Prod.mk.inj hb
  obtain ⟨hc, hd⟩ := Prod.mk.inj hb
  exact ⟨s, hst, session_completes hs hg hc (by decide) (by decide)
    (.inr ⟨sampleAddr, hd, fun h => absurd h (by decide)⟩) (fun _ => rfl)⟩

end BypassVpn.SocksSession
