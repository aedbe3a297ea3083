import BypassVpn.Tun2socks.TcpRelay

/-!
# Runs of the relay of a TCP client

* `Passed`, `Ops`, `Live`: what has passed, what is under way, what goes on; `Good`: the invariant.
* `clientHandleFreedClient_good`, `clientFreeSocks_good`, `clientSocksRecvSendOut_good`: the functions that callbacks
  share.
* **`step_good`**: every callback passes its assertions and keeps the invariant.
-/

namespace BypassVpn.TcpRelay

open Region Transition

/-! ### The invariant -/

/-- What has passed in either direction, and what is held back. -/
structure Passed (r : Relay) : Prop where
  up : r.toSocks ++ r.buf = r.fromClient
  credit : r.clientClosed = false → r.recved = r.toSocks.length
  window : r.buf.length ≤ bufSize
  down : r.clientClosed = false → r.toClient ++ r.held = r.fromSocks
  written : r.toClient <+: r.fromSocks
  pending : r.acked + r.socksRecvTcpPending = r.toClient.length
  idle : r.socksUp = false → r.fromSocks = [] ∧ r.socksRecvBuf = none
  socksDone : r.socksClosed = true → r.socksGone = true ∨ r.buf = []
  clientDone : r.clientClosed = true →
    r.clientGone = true ∨ r.toClient = r.fromSocks ∧ r.socksRecvTcpPending = 0

/-- What is under way with the SOCKS client. -/
structure Ops (r : Relay) : Prop where
  sends : r.socksUp = true → r.socksClosed = false → 0 < r.buf.length → ∃ m, r.sending = some m
  sending : ∀ m, r.sending = some m → r.socksUp = true ∧ r.socksClosed = false ∧ 0 < m ∧ m ≤ r.buf.length
  receiving : r.receiving = true → r.socksUp = true ∧ r.socksClosed = false ∧ r.socksRecvBuf = none

/-- A client that is not freed has something to do for the side that is left. -/
structure Core (r : Relay) : Prop extends Ops r where
  keepsSocks : r.clientClosed = true → r.socksClosed = false ∧ 0 < r.buf.length ∧ r.clientGone = true
  keepsClient : r.socksClosed = true → r.keepsClient = true
  errFunc : r.errFunc = !r.clientClosed
  recvFunc : r.recvFunc = (!r.clientClosed && !r.socksClosed)
  sentFunc : r.sentFunc = (!r.clientClosed && r.socksUp)
  aborted : r.clientClosed = false → r.aborted = false

/-- Between the callbacks, something is under way for whatever it holds. -/
structure Live (r : Relay) : Prop extends Core r where
  receives : r.socksUp = true → r.socksClosed = false → r.clientClosed = false → r.socksRecvBuf = none →
    r.receiving = true
  waiting : r.clientClosed = false → ∀ d, r.socksRecvBuf = some d →
    r.socksRecvBufSent < d.length ∧ r.socksRecvWaiting = true ∧ 0 < r.socksRecvTcpPending

/-- What holds in every state. -/
structure Good (r : Relay) : Prop where
  passed : Passed r
  live : r.freed = false → Live r

variable {r r' : Relay} {close : Bool} {depth : ℕ}

/-! ### Closing -/

/-- What closing leaves as it is. -/
def Relay.data (r : Relay) : Relay :=
  { r with
    clientClosed := false
    aborted := false
    socksClosed := false
    freed := false
    errFunc := false
    recvFunc := false
    sentFunc := false
    sending := none
    receiving := false }

/-- The reasons for which either side may be closed. -/
def SocksMayClose (r : Relay) : Prop := r.socksGone = true ∨ r.buf = []

/-- The client is closed: it has gone, or it has got everything. -/
def ClientMayClose (r : Relay) : Prop :=
  r.clientGone = true ∨ r.toClient = r.fromSocks ∧ r.socksRecvTcpPending = 0

theorem Passed.same (h : Passed r) (hs : r'.data = r.data) (hopen : r'.clientClosed = false → r.clientClosed = false)
    (hsocks : r'.socksClosed = true → SocksMayClose r) (hclient : r'.clientClosed = true → ClientMayClose r) :
    Passed r' := by
  have hfield {β : Type} (f : Relay → β) : f r'.data = f r.data := congrArg f hs
  have hbuf : r'.buf = r.buf := hfield Relay.buf
  have htoSocks : r'.toSocks = r.toSocks := hfield Relay.toSocks
  have htoClient : r'.toClient = r.toClient := hfield Relay.toClient
  have hfromSocks : r'.fromSocks = r.fromSocks := hfield Relay.fromSocks
  have hpending : r'.socksRecvTcpPending = r.socksRecvTcpPending := hfield Relay.socksRecvTcpPending
  have hheld : r'.held = r.held := hfield Relay.held
  constructor
  · rw [htoSocks, hbuf]
    exact h.up.trans (hfield Relay.fromClient).symm
  · rw [htoSocks]
    exact fun hc => (hfield Relay.recved).trans (h.credit (hopen hc))
  · rw [hbuf]
    exact h.window
  · rw [htoClient, hheld, hfromSocks]
    exact fun hc => h.down (hopen hc)
  · rw [htoClient, hfromSocks]
    exact h.written
  · rw [htoClient, hpending, show r'.acked = r.acked from hfield Relay.acked]
    exact h.pending
  · rw [hfromSocks, show r'.socksRecvBuf = r.socksRecvBuf from hfield Relay.socksRecvBuf,
      show r'.socksUp = r.socksUp from hfield Relay.socksUp]
    exact h.idle
  · rw [hbuf, show r'.socksGone = r.socksGone from hfield Relay.socksGone]
    exact hsocks
  · rw [htoClient, hfromSocks, hpending, show r'.clientGone = r.clientGone from hfield Relay.clientGone]
    exact hclient

theorem clientDealloc_eq (hc : r.clientClosed = true) (hs : r.socksClosed = true) :
    clientDealloc r = some { r with freed := true } := by
  rw [clientDealloc, assert_bind hc, assert_bind hs]

/-- The second side to be closed takes the client with it. -/
theorem clientFreeSocks_closed (hc : r.clientClosed = true) (hs : r.socksClosed = false) :
    clientFreeSocks close (depth + 1) r = some { bSocksClientFree r with socksClosed := true, freed := true } := by
  have hrecv : (if r.socksUp = true ∧ r.clientClosed = false then false else r.recvFunc) = r.recvFunc :=
    if_neg (by simp [hc])
  have hkeeps : ({ bSocksClientFree r with socksClosed := true } : Relay).keepsClient = false := by
    simp [Relay.keepsClient, bSocksClientFree, hc]
  rw [clientFreeSocks, assert_bind hs, hrecv]
  show (if ({ bSocksClientFree r with socksClosed := true } : Relay).keepsClient = true then _
    else if r.clientClosed = false then _ else clientDealloc { bSocksClientFree r with socksClosed := true }) = _
  rw [hkeeps, if_neg Bool.false_ne_true, if_neg (by simp [hc])]
  exact clientDealloc_eq hc rfl

theorem clientHandleFreedClient_eq (hc : r.clientClosed = false) :
    clientHandleFreedClient close (depth + 2) r =
      if r.socksClosed = true then some { r with clientClosed := true, freed := true }
      else if r.buf ≠ [] then some { r with clientClosed := true }
      else some { bSocksClientFree { r with clientClosed := true } with socksClosed := true, freed := true } := by
  rw [clientHandleFreedClient, assert_bind hc]
  dsimp only
  by_cases hs : r.socksClosed = true
  · rw [if_neg (by simp [hs]), if_neg (by simp [hs]), if_pos hs]
    exact clientDealloc_eq rfl hs
  · have hs' : r.socksClosed = false := by simpa using hs
    rw [if_neg hs]
    by_cases hb : r.buf = []
    · rw [if_neg (fun h => h.1 hb), if_pos hs', if_neg (fun h => h hb)]
      exact clientFreeSocks_closed rfl hs'
    · rw [if_pos ⟨hb, hs'⟩, if_pos hb]

/-- The client is closed; what it has left for the SOCKS server goes on. -/
theorem clientHandleFreedClient_good (hp : Passed r) (ho : r.socksClosed = false → Ops r) (hc : r.clientClosed = false)
    (hf : r.errFunc = false ∧ r.recvFunc = false ∧ r.sentFunc = false) (hcause : ClientMayClose r)
    (hgone : r.socksClosed = false → r.clientGone = true) :
    ∃ r', clientHandleFreedClient close (depth + 2) r = some r' ∧ Good r' ∧ r'.clientClosed = true := by
  rw [clientHandleFreedClient_eq hc]
  split_ifs with hs hb
  · exact ⟨_, rfl, ⟨hp.same rfl (fun h => absurd h (by simp))
      hp.socksDone fun _ => hcause, fun h => absurd h (by simp)⟩, rfl⟩
  · have hs : r.socksClosed = false := by simpa using hs
    have ho := ho hs
    refine ⟨_, rfl, ⟨hp.same rfl
      (fun h => absurd h (by simp)) hp.socksDone fun _ => hcause, fun _ => ?_⟩, rfl⟩
    exact {
      sends := ho.sends
      sending := ho.sending
      receiving := ho.receiving
      receives := fun _ _ h => absurd h (by simp)
      waiting := fun h => absurd h (by simp)
      keepsSocks := fun _ => ⟨hs, List.length_pos_of_ne_nil hb, hgone hs⟩
      keepsClient := fun h => absurd (hs.symm.trans h) (by simp)
      errFunc := hf.1
      recvFunc := hf.2.1
      sentFunc := hf.2.2
      aborted := fun h => absurd h (by simp) }
  · have hb : r.buf = [] := by simpa using hb
    exact ⟨_, rfl, ⟨hp.same rfl (fun h => absurd h (by simp [bSocksClientFree]))
      (fun _ => .inr hb) fun _ => hcause, fun h => absurd h (by simp)⟩, rfl⟩

theorem clientFreeClient_good (hp : Passed r) (ho : r.socksClosed = false → Ops r) (hc : r.clientClosed = false)
    (ha : r.aborted = false) (hcause : ClientMayClose r) (hgone : r.socksClosed = false → r.clientGone = true) :
    ∃ r', clientFreeClient close (depth + 3) r = some r' ∧ Good r' ∧ r'.clientClosed = true := by
  rw [clientFreeClient, assert_bind hc]
  have hsame {b : Bool} : ({ removeCallbacks r with aborted := b } : Relay).data = r.data :=
    rfl
  have hpassed {b : Bool} : Passed { removeCallbacks r with aborted := b } :=
    hp.same hsame (fun h => h) hp.socksDone hp.clientDone
  have hops {b : Bool} (hs : r.socksClosed = false) : Ops { removeCallbacks r with aborted := b } :=
    ⟨(ho hs).sends, (ho hs).sending, (ho hs).receiving⟩
  cases close with
  | true => exact clientHandleFreedClient_good (@hpassed r.aborted) hops hc ⟨rfl, rfl, rfl⟩ hcause hgone
  | false =>
    have : clientAbortPcb (removeCallbacks r) = some { removeCallbacks r with aborted := true } := by
      rw [clientAbortPcb]
      exact assert_bind ha _
    dsimp only
    rw [if_neg Bool.false_ne_true, this]
    exact clientHandleFreedClient_good (@hpassed true) hops hc ⟨rfl, rfl, rfl⟩ hcause hgone

theorem clientAbortClient_good (hp : Passed r) (ho : r.socksClosed = false → Ops r) (hc : r.clientClosed = false)
    (ha : r.aborted = false) : ∃ r', clientAbortClient r = some r' ∧ Good r' ∧ r'.clientClosed = true := by
  have : clientAbortPcb (removeCallbacks r) = some { removeCallbacks r with aborted := true } := by
    rw [clientAbortPcb]
    exact assert_bind ha _
  rw [clientAbortClient, assert_bind hc, this]
  refine clientHandleFreedClient_good (r := { removeCallbacks r with aborted := true, clientGone := true }) ?_
    (fun hs => ⟨(ho hs).sends, (ho hs).sending, (ho hs).receiving⟩) hc ⟨rfl, rfl, rfl⟩ (.inl rfl) fun _ => rfl
  exact ⟨hp.up, hp.credit, hp.window, hp.down, hp.written, hp.pending, hp.idle, hp.socksDone, fun _ => .inl rfl⟩

/-- The SOCKS client is freed; what is kept for the client goes on. -/
theorem clientFreeSocks_good (hp : Passed r) (hl : r.clientClosed = false → Live r) (hs : r.socksClosed = false)
    (hcause : SocksMayClose r) : ∃ r', clientFreeSocks close (depth + 4) r = some r' ∧ Good r' := by
  by_cases hc : r.clientClosed = true
  · rw [clientFreeSocks_closed hc hs]
    exact ⟨_, rfl, hp.same rfl (fun h => h) (fun _ => hcause) hp.clientDone, fun h => absurd h (by simp)⟩
  have hc : r.clientClosed = false := by simpa using hc
  have hl := hl hc
  let q : Relay := { bSocksClientFree { r with
    recvFunc := if r.socksUp ∧ r.clientClosed = false then false else r.recvFunc } with socksClosed := true }
  have hq : Passed q := hp.same rfl (fun h => h) (fun _ => hcause) hp.clientDone
  have heq : clientFreeSocks close (depth + 4) r =
      if q.keepsClient then some q else clientFreeClient close (depth + 3) q := by
    rw [clientFreeSocks, assert_bind hs]
    show (if q.keepsClient = true then some q
      else if r.clientClosed = false then clientFreeClient close (depth + 3) q else clientDealloc q) = _
    rw [if_pos hc]
  rw [heq]
  by_cases hk : q.keepsClient = true
  · have hup : r.socksUp = true := by
      simp only [Relay.keepsClient, Bool.and_eq_true] at hk
      exact hk.1.1
    rw [if_pos hk]
    refine ⟨q, rfl, hq, fun _ => ?_⟩
    exact {
      sends := fun _ h => absurd h (by simp [q])
      sending := fun m h => absurd h (by simp [q, bSocksClientFree])
      receiving := fun h => absurd h (by simp [q, bSocksClientFree])
      receives := fun _ h => absurd h (by simp [q])
      waiting := hl.waiting
      keepsSocks := fun h => absurd (hc.symm.trans h) (by simp)
      keepsClient := fun _ => hk
      errFunc := hl.errFunc
      recvFunc := by
        show (if r.socksUp = true ∧ r.clientClosed = false then false else r.recvFunc) = (!r.clientClosed && !true)
        rw [if_pos ⟨hup, hc⟩, Bool.not_true, Bool.and_false]
      sentFunc := hl.sentFunc
      aborted := hl.aborted }
  · rw [if_neg hk]
    replace hk : ¬r.keepsClient = true := hk
    have hdone : ClientMayClose q := by
      refine .inr ⟨?_, ?_⟩
      · show r.toClient = r.fromSocks
        cases hup : r.socksUp with
        | false =>
          have hw := hp.written
          rw [(hp.idle hup).1, List.prefix_nil] at hw
          rw [hw, (hp.idle hup).1]
        | true =>
          have hnone : r.socksRecvBuf = none := by
            by_contra hne
            exact hk (by simp [Relay.keepsClient, hup, hc, Option.isSome_iff_ne_none.mpr hne])
          have hd := hp.down hc
          rwa [Relay.held, hnone, Option.getD_none, List.drop_nil, List.append_nil] at hd
      · show r.socksRecvTcpPending = 0
        cases hup : r.socksUp with
        | false =>
          have hw := hp.written
          rw [(hp.idle hup).1, List.prefix_nil] at hw
          have := hp.pending
          rw [hw, List.length_nil] at this
          omega
        | true =>
          by_contra hne
          exact hk (by simp [Relay.keepsClient, hup, hc, Nat.pos_of_ne_zero hne])
    obtain ⟨r', hr', hg, -⟩ := @clientFreeClient_good q close depth hq
      (fun h => absurd h (by simp [q])) hc (hl.aborted hc) hdone fun h => absurd h (by simp [q])
    exact ⟨r', hr', hg⟩

/-! ### To the SOCKS server -/

theorem senderSend_eq (hb : 0 < r.buf.length) (hs : r.sending = none) :
    senderSend r = some { r with sending := some r.buf.length } := by
  rw [senderSend, assert_bind hb, assert_bind hs]

theorem clientSendToSocks_eq (hs : r.socksClosed = false) (hup : r.socksUp = true) (hb : 0 < r.buf.length)
    (hn : r.sending = none) : clientSendToSocks r = some { r with sending := some r.buf.length } := by
  rw [clientSendToSocks, assert_bind hs, assert_bind hup, assert_bind hb]
  exact senderSend_eq hb hn

/-- What lwIP passes on fits into the buffer: it keeps to the window, and the window is what is free. -/
theorem Passed.room (hp : Passed r) (hc : r.clientClosed = false) {n : ℕ}
    (hn : r.fromClient.length + n ≤ r.recved + bufSize) : r.buf.length + n ≤ bufSize := by
  have hlen := congrArg List.length hp.up
  rw [List.length_append] at hlen
  have := hp.credit hc
  omega

theorem clientRecvFunc_good (hg : Good r) {p : Bytes} (he : Enabled r (.recv p)) :
    ∃ r', clientRecvFunc p r = some r' ∧ Good r' := by
  obtain ⟨hf, hrecv, hpos, hwindow⟩ := he
  have hp := hg.passed
  have hl := hg.live hf
  have hopen := hl.recvFunc
  rw [hrecv, eq_comm, Bool.and_eq_true, Bool.not_eq_true', Bool.not_eq_true'] at hopen
  obtain ⟨hc, hs⟩ := hopen
  have hroom := hp.room hc hwindow
  have hlen : (r.buf ++ p).length = r.buf.length + p.length := List.length_append
  let q : Relay := { r with buf := r.buf ++ p, fromClient := r.fromClient ++ p }
  have hpassed {m : Option ℕ} : Passed { q with sending := m } := by
    refine ⟨?_, hp.credit, hlen ▸ hroom, hp.down, hp.written, hp.pending, hp.idle, fun h => ?_, hp.clientDone⟩
    · show r.toSocks ++ (r.buf ++ p) = r.fromClient ++ p
      rw [← hp.up, List.append_assoc]
    · exact absurd (hs.symm.trans h) (by simp)
  have hlive {m : Option ℕ} (hm : ∀ k, m = some k → r.socksUp = true ∧ 0 < k ∧ k ≤ r.buf.length + p.length)
      (hsends : r.socksUp = true → ∃ k, m = some k) : Live { q with sending := m } :=
    { sends := fun hup _ _ => hsends hup
      sending := fun k hk => ⟨(hm k hk).1, hs, (hm k hk).2.1, (hm k hk).2.2.trans hlen.ge⟩
      receiving := hl.receiving
      keepsSocks := fun h => absurd (hc.symm.trans h) (by simp)
      keepsClient := fun h => absurd (hs.symm.trans h) (by simp)
      errFunc := hl.errFunc
      recvFunc := hl.recvFunc
      sentFunc := hl.sentFunc
      aborted := hl.aborted
      receives := hl.receives
      waiting := hl.waiting }
  rw [clientRecvFunc, assert_bind hc, assert_bind hpos, if_neg (by omega)]
  dsimp only
  rw [hlen]
  show ∃ r', (if r.buf.length + p.length = p.length ∧ r.socksUp = true then
    ASSERT (r.socksClosed = false) >>= fun _ => clientSendToSocks q else some q) = some r' ∧ Good r'
  by_cases hfirst : r.buf.length + p.length = p.length ∧ r.socksUp = true
  · obtain ⟨hempty, hup⟩ := hfirst
    have hb0 : r.buf.length = 0 := by omega
    have hnone : r.sending = none := by
      cases hm : r.sending with
      | none => rfl
      | some m =>
        have := hl.sending m hm
        omega
    have hsend : clientSendToSocks q = some { q with sending := some (r.buf ++ p).length } :=
      clientSendToSocks_eq (r := q) hs hup (show 0 < (r.buf ++ p).length by omega) hnone
    rw [if_pos ⟨hempty, hup⟩, assert_bind hs, hsend]
    refine ⟨_, rfl, hpassed, fun _ => hlive (fun k hk => ?_) fun _ => ⟨_, rfl⟩⟩
    obtain rfl := Option.some.inj hk
    exact ⟨hup, by omega, by omega⟩
  · rw [if_neg hfirst]
    refine ⟨_, rfl, hpassed (m := r.sending), fun _ => hlive (m := r.sending) (fun k hk => ?_) fun hup => ?_⟩
    · obtain ⟨hup, -, h0, hle⟩ := hl.sending k hk
      exact ⟨hup, h0, by omega⟩
    · exact hl.sends hup hs (by
        by_contra hb
        exact hfirst ⟨by omega, hup⟩)

theorem clientSocksSendHandlerDone_good (hg : Good r) {n : ℕ} (he : Enabled r (.sendDone n)) :
    ∃ r', clientSocksSendHandlerDone n r = some r' ∧ Good r' := by
  obtain ⟨hf, h0, hle⟩ := he
  have hp := hg.passed
  have hl := hg.live hf
  obtain ⟨m, hm⟩ : ∃ m, r.sending = some m := by
    cases hm : r.sending with
    | none => exact absurd (h0.trans_le (hm ▸ hle)) (by simp)
    | some m => exact ⟨m, rfl⟩
  replace hle : n ≤ m := by rwa [hm] at hle
  obtain ⟨hup, hs, hm0, hmle⟩ := hl.sending m hm
  have hb : 0 < r.buf.length := by omega
  have hn : n ≤ r.buf.length := by omega
  rw [clientSocksSendHandlerDone, assert_bind hs, assert_bind hup, assert_bind hb, assert_bind h0, assert_bind hn]
  dsimp only
  -- what is confirmed to lwIP while the client is open
  let recved := if r.clientClosed then r.recved else r.recved + n
  let q : Relay := { r with
    toSocks := r.toSocks ++ r.buf.take n
    buf := r.buf.drop n
    sending := none
    recved := recved }
  have hpassed {k : Option ℕ} : Passed { q with sending := k } := by
    refine ⟨?_, fun hc => ?_, ?_, hp.down, hp.written, hp.pending, hp.idle,
      fun h => absurd (hs.symm.trans h) (by simp), hp.clientDone⟩
    · show r.toSocks ++ r.buf.take n ++ r.buf.drop n = r.fromClient
      rw [List.append_assoc, List.take_append_drop, hp.up]
    · show recved = (r.toSocks ++ r.buf.take n).length
      have hc : r.clientClosed = false := hc
      rw [List.length_append, List.length_take, min_eq_left hn, ← hp.credit hc]
      exact if_neg (by simp [hc])
    · show (r.buf.drop n).length ≤ bufSize
      rw [List.length_drop]
      exact (Nat.sub_le _ _).trans hp.window
  have hcore {k : Option ℕ} (hk : ∀ x, k = some x → 0 < x ∧ x ≤ (r.buf.drop n).length)
      (hsends : 0 < (r.buf.drop n).length → ∃ x, k = some x)
      (hkeeps : r.clientClosed = true → 0 < (r.buf.drop n).length) : Live { q with sending := k } :=
    { sends := fun _ _ hb => hsends hb
      sending := fun x hx => ⟨hup, hs, hk x hx⟩
      receiving := hl.receiving
      keepsSocks := fun h => ⟨hs, hkeeps h, (hl.keepsSocks h).2.2⟩
      keepsClient := fun h => absurd (hs.symm.trans h) (by simp)
      errFunc := hl.errFunc
      recvFunc := hl.recvFunc
      sentFunc := hl.sentFunc
      aborted := hl.aborted
      receives := hl.receives
      waiting := hl.waiting }
  show ∃ r', (if 0 < (r.buf.drop n).length then senderSend q
    else if r.clientClosed = true then clientFreeSocks true 4 q else some q) = some r' ∧ Good r'
  by_cases hrest : 0 < (r.buf.drop n).length
  · rw [if_pos hrest, senderSend_eq (r := q) hrest rfl]
    refine ⟨_, rfl, hpassed, fun _ => hcore (fun x hx => ?_) (fun _ => ⟨_, rfl⟩) fun _ => hrest⟩
    obtain rfl := Option.some.inj hx
    exact ⟨hrest, le_rfl⟩
  · have hnil : r.buf.drop n = [] := List.eq_nil_of_length_eq_zero (by omega)
    rw [if_neg hrest]
    by_cases hc : r.clientClosed = true
    · rw [if_pos hc]
      exact clientFreeSocks_good hpassed (fun h => absurd (hc.symm.trans h) (by simp)) hs (.inr hnil)
    · rw [if_neg hc]
      exact ⟨_, rfl, hpassed, fun _ => hcore (fun x hx => absurd hx (by simp)) (fun h => absurd h hrest)
        fun h => absurd h hc⟩

/-! ### To the client -/

/-- `n` more bytes of `socks_recv_buf` are with lwIP. -/
def wrote (data : Bytes) (n : ℕ) (r : Relay) : Relay :=
  { r with
    toClient := r.toClient ++ slice data r.socksRecvBufSent n
    socksRecvBufSent := r.socksRecvBufSent + n
    socksRecvTcpPending := r.socksRecvTcpPending + n }

theorem wrote_zero (data : Bytes) (r : Relay) : wrote data 0 r = r := by
  rw [wrote, slice, List.take_zero, List.append_nil]
  rfl

theorem wrote_wrote (data : Bytes) (m n : ℕ) (r : Relay) : wrote data n (wrote data m r) = wrote data (m + n) r := by
  simp only [wrote, List.append_assoc, slice_append_slice, Nat.add_assoc]

theorem writeLoop_spec {data : Bytes} {writes : List (ℕ × Err)} (hle : r.socksRecvBufSent ≤ data.length) :
    ∃ n ok, writeLoop data writes r = (wrote data n r, ok) ∧ r.socksRecvBufSent + n ≤ data.length := by
  induction writes generalizing r with
  | nil => exact ⟨0, true, by rw [writeLoop, wrote_zero], hle⟩
  | cons w writes ih =>
    obtain ⟨sndbuf, err⟩ := w
    have hstop (ok : Bool) : ∃ n ok', (r, ok) = (wrote data n r, ok') ∧ r.socksRecvBufSent + n ≤ data.length :=
      ⟨0, ok, by rw [wrote_zero], hle⟩
    unfold writeLoop
    dsimp only
    by_cases h0 : min (data.length - r.socksRecvBufSent) sndbuf = 0
    · rw [if_pos h0]
      exact hstop true
    · rw [if_neg h0]
      have hw : r.socksRecvBufSent + min (data.length - r.socksRecvBufSent) sndbuf ≤ data.length := by omega
      cases err with
      | ERR_MEM => exact hstop true
      | ERR_FAIL => exact hstop false
      | ERR_OK =>
        dsimp only
        split_ifs with hlt
        · obtain ⟨n, ok, hloop, hn⟩ := ih (r := wrote data _ r) hw
          exact ⟨_ + n, ok, by rw [← wrote_wrote]; exact hloop, by rw [← Nat.add_assoc]; exact hn⟩
        · exact ⟨_, true, rfl, hw⟩

theorem Passed.wrote {data : Bytes} {n : ℕ} (hp : Passed r) (hc : r.clientClosed = false)
    (hd : r.socksRecvBuf = some data) (hn : r.socksRecvBufSent + n ≤ data.length) : Passed (wrote data n r) := by
  have hlen : (slice data r.socksRecvBufSent n).length = n := length_slice hn
  have hdown : r.toClient ++ slice data r.socksRecvBufSent n ++ data.drop (r.socksRecvBufSent + n) = r.fromSocks := by
    have hdown := hp.down hc
    rw [Relay.held, hd, Option.getD_some] at hdown
    rw [List.append_assoc, slice, ← List.drop_drop, List.take_append_drop, hdown]
  refine ⟨hp.up, hp.credit, hp.window, fun _ => ?_, ⟨_, hdown⟩, ?_, fun h => ?_, hp.socksDone,
    fun h => absurd (hc.symm.trans h) (by simp)⟩
  · show r.toClient ++ slice data r.socksRecvBufSent n ++
      (r.socksRecvBuf.getD []).drop (r.socksRecvBufSent + n) = r.fromSocks
    rw [hd, Option.getD_some, hdown]
  · show r.acked + (r.socksRecvTcpPending + n) = (r.toClient ++ slice data r.socksRecvBufSent n).length
    rw [List.length_append, hlen, ← hp.pending, Nat.add_assoc]
  · exact absurd ((hp.idle h).2.symm.trans hd) (by simp)

/-- What `client_socks_recv_send_out` leaves when the client is still up. -/
structure SentOut (r r' : Relay) : Prop where
  passed : Passed r'
  core : Core r'
  clientClosed : r'.clientClosed = false
  socksUp : r'.socksUp = true
  socksClosed : r'.socksClosed = r.socksClosed
  receiving : r'.receiving = false
  pending : 0 < r'.socksRecvTcpPending
  waiting : ∀ d, r'.socksRecvBuf = some d → r'.socksRecvBufSent < d.length ∧ r'.socksRecvWaiting = true

theorem clientSocksRecvSendOut_good {data : Bytes} (out : SendOut) (hp : Passed r) (hk : Core r)
    (hc : r.clientClosed = false) (hup : r.socksUp = true) (hd : r.socksRecvBuf = some data)
    (hlt : r.socksRecvBufSent < data.length) (hw : r.socksRecvWaiting = false) :
    ∃ r' up, clientSocksRecvSendOut out r = some (r', up) ∧ (up = false → Good r' ∧ r'.clientClosed = true) ∧
      (up = true → SentOut r r') := by
  have hreceiving : r.receiving = false := by
    by_contra h
    exact absurd ((hk.receiving (by simpa using h)).2.2.symm.trans hd) (by simp)
  have habort {q : Relay} (hq : Passed q) (hkq : Core q) (hcq : q.clientClosed = false) :
      ∃ r' up, (clientAbortClient q).map (·, false) = some (r', up) ∧
        (up = false → Good r' ∧ r'.clientClosed = true) ∧ (up = true → SentOut r r') := by
    obtain ⟨q', hq', hg⟩ := clientAbortClient_good hq (fun _ => hkq.toOps) hcq (hkq.aborted hcq)
    exact ⟨q', false, by rw [hq']; rfl, fun _ => hg, fun h => absurd h (by simp)⟩
  rw [clientSocksRecvSendOut, assert_bind hc, assert_bind hup, hd, Option.getD_some,
    assert_bind (show 0 < data.length by omega), assert_bind hlt, assert_bind hw]
  obtain ⟨n, ok, hloop, hn⟩ := @writeLoop_spec r data out.writes hlt.le
  have hpq : Passed (wrote data n r) := hp.wrote hc hd hn
  have hkq : Core (wrote data n r) :=
    ⟨⟨hk.sends, hk.sending, hk.receiving⟩, hk.keepsSocks, fun h => by
      simp [Relay.keepsClient, wrote, hup, hd, hc], hk.errFunc, hk.recvFunc, hk.sentFunc, hk.aborted⟩
  rw [hloop]
  cases ok with
  | false => exact habort hpq hkq hc
  | true =>
    dsimp only
    split_ifs with hout hrest hpending
    · exact habort hpq hkq hc
    · exact habort hpq hkq hc
    · -- the rest waits for an acknowledgement
      refine ⟨_, true, rfl, fun h => absurd h (by simp), fun _ => ?_⟩
      exact ⟨⟨hpq.up, hpq.credit, hpq.window, hpq.down, hpq.written, hpq.pending, hpq.idle, hpq.socksDone,
          hpq.clientDone⟩,
        ⟨⟨hkq.sends, hkq.sending, hkq.receiving⟩, hkq.keepsSocks, hkq.keepsClient, hkq.errFunc, hkq.recvFunc,
          hkq.sentFunc, hkq.aborted⟩, hc, hup, rfl, hreceiving, Nat.pos_of_ne_zero hpending,
        fun d h => by
          obtain rfl := Option.some.inj (hd.symm.trans h)
          exact ⟨hrest, rfl⟩⟩
    · have hall : r.socksRecvBufSent + n = data.length := by
        have : ¬r.socksRecvBufSent + n < data.length := hrest
        omega
      have hpos : 0 < r.socksRecvTcpPending + n := by omega
      refine ⟨_, true, rfl, fun h => absurd h (by simp), fun _ => ?_⟩
      refine ⟨⟨hpq.up, hpq.credit, hpq.window, fun h => ?_, hpq.written, hpq.pending, fun h => ?_, hpq.socksDone,
          hpq.clientDone⟩,
        ⟨⟨hkq.sends, hkq.sending, fun h => absurd (hreceiving.symm.trans h) (by simp)⟩, hkq.keepsSocks, fun h => ?_,
          hkq.errFunc, hkq.recvFunc, hkq.sentFunc, hkq.aborted⟩, hc, hup, rfl, hreceiving, hpos,
        fun d h => absurd h (by simp)⟩
      · have hdown := hpq.down h
        show (wrote data n r).toClient ++ ([] : Bytes).drop _ = r.fromSocks
        rw [List.drop_nil]
        rwa [Relay.held, show (wrote data n r).socksRecvBuf = some data from hd, Option.getD_some,
          show (wrote data n r).socksRecvBufSent = data.length from hall, List.drop_length] at hdown
      · exact absurd (hup.symm.trans h) (by simp)
      · simp [Relay.keepsClient, wrote, hup, hc, hpos]

theorem clientSocksRecvInitiate_good (hp : Passed r) (hk : Core r) (hc : r.clientClosed = false)
    (hs : r.socksClosed = false) (hup : r.socksUp = true) (hn : r.socksRecvBuf = none) (hr : r.receiving = false) :
    ∃ r', clientSocksRecvInitiate r = some r' ∧ Good r' := by
  rw [clientSocksRecvInitiate, assert_bind hc, assert_bind hs, assert_bind hup, assert_bind hn, assert_bind hr]
  refine ⟨_, rfl, ⟨hp.up, hp.credit, hp.window, hp.down, hp.written, hp.pending, hp.idle, hp.socksDone,
    hp.clientDone⟩, fun _ => ?_⟩
  exact {
    sends := hk.sends
    sending := hk.sending
    receiving := fun _ => ⟨hup, hs, hn⟩
    keepsSocks := hk.keepsSocks
    keepsClient := hk.keepsClient
    errFunc := hk.errFunc
    recvFunc := hk.recvFunc
    sentFunc := hk.sentFunc
    aborted := hk.aborted
    receives := fun _ _ _ _ => rfl
    waiting := fun _ d h => absurd (hn.symm.trans h) (by simp) }

/-- Nothing is to be asked for: data are held back, or the SOCKS client is gone. -/
theorem SentOut.good (h : SentOut r r') (hb : ¬(r'.socksRecvBuf = none ∧ r'.socksClosed = false)) : Good r' :=
  ⟨h.passed, fun _ => {
    toCore := h.core
    receives := fun _ hs _ hn => absurd ⟨hn, hs⟩ hb
    waiting := fun _ d hd => ⟨(h.waiting d hd).1, (h.waiting d hd).2, h.pending⟩ }⟩

theorem clientSocksRecvHandlerDone_good (hg : Good r) {data : Bytes} {out : SendOut}
    (he : Enabled r (.recvDone data out)) : ∃ r', clientSocksRecvHandlerDone data out r = some r' ∧ Good r' := by
  obtain ⟨hf, hrec, hpos, hsize⟩ := he
  have hp := hg.passed
  have hl := hg.live hf
  obtain ⟨hup, hs, hnone⟩ := hl.receiving hrec
  have hwritten : r.toClient <+: r.fromSocks ++ data := hp.written.trans (List.prefix_append _ _)
  have hnotIdle : ¬r.socksUp = false := by simp [hup]
  have hopen : ¬r.socksClosed = true := by simp [hs]
  rw [clientSocksRecvHandlerDone, assert_bind hpos, assert_bind hsize, assert_bind hs, assert_bind hup,
    assert_bind hnone]
  dsimp only
  by_cases hc : r.clientClosed = true
  · obtain ⟨-, hbuf, hgone⟩ := hl.keepsSocks hc
    rw [if_pos hc]
    refine ⟨_, rfl, ⟨hp.up, hp.credit, hp.window, fun h => absurd (hc.symm.trans h) (by simp), hwritten, hp.pending,
      fun h => absurd h hnotIdle, hp.socksDone, fun _ => .inl hgone⟩, fun _ => ?_⟩
    exact {
      sends := hl.sends
      sending := hl.sending
      receiving := fun h => absurd h (by simp)
      keepsSocks := hl.keepsSocks
      keepsClient := fun h => absurd h hopen
      errFunc := hl.errFunc
      recvFunc := hl.recvFunc
      sentFunc := hl.sentFunc
      aborted := hl.aborted
      receives := fun _ _ h => absurd (hc.symm.trans h) (by simp)
      waiting := hl.waiting }
  have hc : r.clientClosed = false := by simpa using hc
  let q : Relay := { r with
    receiving := false
    fromSocks := r.fromSocks ++ data
    socksRecvBuf := some data
    socksRecvBufSent := 0
    socksRecvWaiting := false }
  have hpq : Passed q := by
    refine ⟨hp.up, hp.credit, hp.window, fun _ => ?_, hwritten, hp.pending, fun h => absurd h hnotIdle, hp.socksDone,
      fun h => absurd (hc.symm.trans h) (by simp)⟩
    have hdown := hp.down hc
    rw [Relay.held, hnone, Option.getD_none, List.drop_nil, List.append_nil] at hdown
    show r.toClient ++ data.drop 0 = r.fromSocks ++ data
    rw [List.drop_zero, hdown]
  have hkq : Core q :=
    ⟨⟨hl.sends, hl.sending, fun h => absurd h (by simp [q])⟩, hl.keepsSocks, fun h => absurd h hopen, hl.errFunc,
      hl.recvFunc, hl.sentFunc, hl.aborted⟩
  obtain ⟨r', up, hsend, hdead, hsent⟩ := clientSocksRecvSendOut_good out hpq hkq hc hup rfl hpos rfl
  rw [if_neg (by simp [hc])]
  show ∃ r'', (clientSocksRecvSendOut out q >>= fun x =>
    if x.2 = true ∧ x.1.socksRecvBuf = none then clientSocksRecvInitiate x.1 else some x.1) = some r'' ∧ Good r''
  rw [hsend]
  show ∃ r'', (if up = true ∧ r'.socksRecvBuf = none then clientSocksRecvInitiate r' else some r') = some r'' ∧ Good r''
  cases up with
  | false =>
    rw [if_neg (by simp)]
    exact ⟨r', rfl, (hdead rfl).1⟩
  | true =>
    have hso := hsent rfl
    have hs' : r'.socksClosed = false := hso.socksClosed.trans hs
    by_cases hn : r'.socksRecvBuf = none
    · rw [if_pos ⟨rfl, hn⟩]
      exact clientSocksRecvInitiate_good hso.passed hso.core hso.clientClosed hs' hso.socksUp hn hso.receiving
    · rw [if_neg (fun h => hn h.2)]
      exact ⟨r', rfl, hso.good fun h => hn h.1⟩

theorem clientSentFunc_good (hg : Good r) {n : ℕ} {out : SendOut} (he : Enabled r (.sent n out close)) :
    ∃ r', clientSentFunc n out close r = some r' ∧ Good r' := by
  obtain ⟨hf, hsent, hpos, hack⟩ := he
  have hp := hg.passed
  have hl := hg.live hf
  have hopen := hl.sentFunc
  rw [hsent, eq_comm, Bool.and_eq_true, Bool.not_eq_true'] at hopen
  obtain ⟨hc, hup⟩ := hopen
  have hle : n ≤ r.socksRecvTcpPending := by
    have := hp.pending
    omega
  rw [clientSentFunc, assert_bind hc, assert_bind hup, assert_bind hpos, assert_bind hle]
  dsimp only
  have hnotIdle : ¬r.socksUp = false := by simp [hup]
  have hnotClosed : ¬r.clientClosed = true := by simp [hc]
  let q : Relay := { r with acked := r.acked + n, socksRecvTcpPending := r.socksRecvTcpPending - n }
  have hpq {b : Bool} : Passed { q with socksRecvWaiting := b } := by
    refine ⟨hp.up, hp.credit, hp.window, hp.down, hp.written, ?_, hp.idle, hp.socksDone, fun h => absurd h hnotClosed⟩
    have := hp.pending
    show r.acked + n + (r.socksRecvTcpPending - n) = r.toClient.length
    omega
  rcases Option.eq_none_or_eq_some r.socksRecvBuf with hd | ⟨data, hd⟩
  · rw [show r.socksRecvBuf.getD [] = [] by rw [hd, Option.getD_none], if_neg (by simp)]
    show ∃ r'', (if r.socksClosed = true ∧ q.socksRecvTcpPending = 0 then clientFreeClient close 4 q else some q) =
      some r'' ∧ Good r''
    by_cases hlast : r.socksClosed = true ∧ q.socksRecvTcpPending = 0
    · have hdown := hp.down hc
      rw [Relay.held, hd, Option.getD_none, List.drop_nil, List.append_nil] at hdown
      rw [if_pos hlast]
      obtain ⟨r', hr', hgood, -⟩ := @clientFreeClient_good q close 1 (@hpq r.socksRecvWaiting)
        (fun h => absurd (hlast.1.symm.trans h) (by simp)) hc (hl.aborted hc) (.inr ⟨hdown, hlast.2⟩)
        fun h => absurd (hlast.1.symm.trans h) (by simp)
      exact ⟨r', hr', hgood⟩
    · rw [if_neg hlast]
      refine ⟨q, rfl, @hpq r.socksRecvWaiting, fun _ => ?_⟩
      exact {
        sends := hl.sends
        sending := hl.sending
        receiving := hl.receiving
        keepsSocks := hl.keepsSocks
        keepsClient := fun h => by
          have : 0 < q.socksRecvTcpPending := Nat.pos_of_ne_zero fun h0 => hlast ⟨h, h0⟩
          simp [Relay.keepsClient, show q.socksUp = true from hup, show q.clientClosed = false from hc, this]
        errFunc := hl.errFunc
        recvFunc := hl.recvFunc
        sentFunc := hl.sentFunc
        aborted := hl.aborted
        receives := hl.receives
        waiting := fun _ d h => absurd (hd.symm.trans h) (by simp) }
  · obtain ⟨hlt, hw, -⟩ := hl.waiting hc data hd
    have hkq : Core { q with socksRecvWaiting := false } :=
      ⟨⟨hl.sends, hl.sending, hl.receiving⟩, hl.keepsSocks, fun _ => by simp [Relay.keepsClient, q, hup, hd, hc],
        hl.errFunc, hl.recvFunc, hl.sentFunc, hl.aborted⟩
    obtain ⟨r', up, hsend, hdead, hso⟩ := clientSocksRecvSendOut_good out (@hpq false) hkq hc hup hd hlt rfl
    rw [show r.socksRecvBuf.getD [] = data by rw [hd, Option.getD_some], if_pos (show 0 < data.length by omega),
      assert_bind hw, assert_bind hlt]
    show ∃ r'', (clientSocksRecvSendOut out { q with socksRecvWaiting := false } >>= fun x =>
      if x.2 = false then some x.1
      else ASSERT (0 < x.1.socksRecvTcpPending) >>= fun _ =>
        if x.1.socksRecvBuf = none ∧ x.1.socksClosed = false then clientSocksRecvInitiate x.1 else some x.1) =
      some r'' ∧ Good r''
    rw [hsend]
    show ∃ r'', (if up = false then some r'
      else ASSERT (0 < r'.socksRecvTcpPending) >>= fun _ =>
        if r'.socksRecvBuf = none ∧ r'.socksClosed = false then clientSocksRecvInitiate r' else some r') =
      some r'' ∧ Good r''
    cases up with
    | false =>
      rw [if_pos rfl]
      exact ⟨r', rfl, (hdead rfl).1⟩
    | true =>
      have hso := hso rfl
      rw [if_neg (by simp), assert_bind hso.pending]
      by_cases hn : r'.socksRecvBuf = none ∧ r'.socksClosed = false
      · rw [if_pos hn]
        exact clientSocksRecvInitiate_good hso.passed hso.core hso.clientClosed hn.2 hso.socksUp hn.1 hso.receiving
      · rw [if_neg hn]
        exact ⟨r', rfl, hso.good hn⟩

/-! ### The other callbacks -/

theorem clientSocksUp_good (hg : Good r) (he : Enabled r .up) : ∃ r', clientSocksUp r = some r' ∧ Good r' := by
  obtain ⟨hf, hs, hup⟩ := he
  have hp := hg.passed
  have hl := hg.live hf
  obtain ⟨hfrom, hnone⟩ := hp.idle hup
  have hto : r.toClient = [] := List.prefix_nil.mp (hfrom ▸ hp.written)
  have hpending := hp.pending
  rw [hto, List.length_nil] at hpending
  have hzero : r.socksRecvTcpPending = 0 := by omega
  have hsending : r.sending = none := by
    cases hm : r.sending with
    | none => rfl
    | some m => exact absurd (hup.symm.trans (hl.sending m hm).1) (by simp)
  have hreceiving : r.receiving = false := by
    by_contra h
    exact absurd (hup.symm.trans (hl.receiving (by simpa using h)).1) (by simp)
  let q : Relay := { r with
    socksRecvBuf := none
    socksRecvTcpPending := 0
    sentFunc := if r.clientClosed then r.sentFunc else true
    socksUp := true }
  have hpq {m : Option ℕ} : Passed { q with sending := m } := by
    refine ⟨hp.up, hp.credit, hp.window, fun _ => ?_, hp.written, ?_, fun h => absurd h (by simp [q]),
      hp.socksDone, fun h => ?_⟩
    · show r.toClient ++ ([] : Bytes).drop _ = r.fromSocks
      rw [hto, hfrom, List.drop_nil]
      rfl
    · show r.acked + 0 = r.toClient.length
      rw [hto, List.length_nil]
      omega
    · exact (hp.clientDone h).imp_right fun h => ⟨h.1, rfl⟩
  have hkq {m : Option ℕ} (hm : ∀ k, m = some k → 0 < k ∧ k ≤ r.buf.length)
      (hsends : 0 < r.buf.length → ∃ k, m = some k) : Core { q with sending := m } :=
    { sends := fun _ _ => hsends
      sending := fun k hk => ⟨rfl, hs, hm k hk⟩
      receiving := fun h => absurd (hreceiving.symm.trans h) (by simp)
      keepsSocks := hl.keepsSocks
      keepsClient := fun h => absurd (hs.symm.trans h) (by simp)
      errFunc := hl.errFunc
      recvFunc := hl.recvFunc
      sentFunc := by
        show (if r.clientClosed = true then r.sentFunc else true) = (!r.clientClosed && true)
        have := hl.sentFunc
        cases hc : r.clientClosed <;> simp_all
      aborted := hl.aborted }
  -- what was received so far is sent, then the first `Recv`
  have hnext {m : Option ℕ} (hk : Core { q with sending := m }) :
      ∃ r', (if r.clientClosed = true then some { q with sending := m }
        else clientSocksRecvInitiate { q with sending := m }) = some r' ∧ Good r' := by
    by_cases hc : r.clientClosed = true
    · rw [if_pos hc]
      exact ⟨_, rfl, hpq, fun _ => {
        toCore := hk
        receives := fun _ _ h => absurd (hc.symm.trans h) (by simp)
        waiting := fun _ d h => absurd h (by simp [q]) }⟩
    · rw [if_neg hc]
      exact clientSocksRecvInitiate_good hpq hk (by simpa using hc) hs rfl rfl hreceiving
  rw [clientSocksUp, assert_bind hs, assert_bind hup]
  show ∃ r', (if 0 < r.buf.length then clientSendToSocks q >>= fun r' =>
      if r'.clientClosed = true then some r' else clientSocksRecvInitiate r'
    else if r.clientClosed = true then some q else clientSocksRecvInitiate q) = some r' ∧ Good r'
  by_cases hb : 0 < r.buf.length
  · rw [if_pos hb, clientSendToSocks_eq (r := q) hs rfl hb hsending]
    exact hnext (hkq (fun k hk => by
      obtain rfl := Option.some.inj hk
      exact ⟨hb, le_rfl⟩) fun _ => ⟨_, rfl⟩)
  · rw [if_neg hb]
    exact hnext (m := r.sending) (hkq (fun k hk => absurd (hsending.symm.trans hk) (by simp)) fun h => absurd h hb)

theorem Passed.clientGone (hp : Passed r) : Passed { r with clientGone := true } :=
  ⟨hp.up, hp.credit, hp.window, hp.down, hp.written, hp.pending, hp.idle, hp.socksDone, fun _ => .inl rfl⟩

theorem clientRecvFin_good (hg : Good r) (he : Enabled r (.fin close)) :
    ∃ r', clientRecvFin close r = some r' ∧ Good r' := by
  obtain ⟨hf, hrecv⟩ := he
  have hl := hg.live hf
  have hopen := hl.recvFunc
  rw [show r.recvFunc = true from hrecv, eq_comm, Bool.and_eq_true, Bool.not_eq_true', Bool.not_eq_true'] at hopen
  rw [clientRecvFin, assert_bind hopen.1]
  obtain ⟨r', hr', hgood, -⟩ := @clientFreeClient_good { r with clientGone := true } close 1 hg.passed.clientGone
    (fun _ => ⟨hl.sends, hl.sending, hl.receiving⟩) hopen.1 (hl.aborted hopen.1) (.inl rfl) fun _ => rfl
  exact ⟨r', hr', hgood⟩

theorem clientErrFunc_good (hg : Good r) (he : Enabled r .err) : ∃ r', clientErrFunc r = some r' ∧ Good r' := by
  obtain ⟨hf, herr⟩ := he
  have hl := hg.live hf
  have hc := hl.errFunc
  rw [show r.errFunc = true from herr, eq_comm, Bool.not_eq_true'] at hc
  have hp := hg.passed
  rw [clientErrFunc, assert_bind hc]
  obtain ⟨r', hr', hgood, -⟩ := @clientHandleFreedClient_good { removeCallbacks r with clientGone := true } true 2
    ⟨hp.up, hp.credit, hp.window, hp.down, hp.written, hp.pending, hp.idle, hp.socksDone, fun _ => .inl rfl⟩
    (fun _ => ⟨hl.sends, hl.sending, hl.receiving⟩) hc ⟨rfl, rfl, rfl⟩ (.inl rfl) fun _ => rfl
  exact ⟨r', hr', hgood⟩

theorem clientSocksError_good (hg : Good r) {closed : Bool} (he : Enabled r (.socksError closed close)) :
    ∃ r', clientSocksError closed close r = some r' ∧ Good r' := by
  obtain ⟨hf, hs, hup⟩ := he
  have hl := hg.live hf
  have hp := hg.passed
  rw [clientSocksError, assert_bind hs, assert_bind hup]
  exact @clientFreeSocks_good { r with socksGone := true } close 0
    ⟨hp.up, hp.credit, hp.window, hp.down, hp.written, hp.pending, hp.idle, fun _ => .inl rfl, hp.clientDone⟩
    (fun _ => ⟨⟨⟨hl.sends, hl.sending, hl.receiving⟩, hl.keepsSocks, hl.keepsClient, hl.errFunc, hl.recvFunc,
      hl.sentFunc, hl.aborted⟩, hl.receives, hl.waiting⟩) hs (.inl rfl)

theorem clientMurder_good (hg : Good r) (hf : r.freed = false) : ∃ r', clientMurder r = some r' ∧ Good r' := by
  have hl := hg.live hf
  have hp := hg.passed
  let q : Relay := { r with clientGone := true, socksGone := true }
  have hq : Passed q :=
    ⟨hp.up, hp.credit, hp.window, hp.down, hp.written, hp.pending, hp.idle, fun _ => .inl rfl, fun _ => .inl rfl⟩
  -- with both sides gone, any of them may be closed
  have hdealloc (q' : Relay) (hd : q'.data = q.data) (hc : q'.clientClosed = true) (hs : q'.socksClosed = true) :
      ∃ r', clientDealloc q' = some r' ∧ Good r' :=
    ⟨_, clientDealloc_eq hc hs,
      hq.same hd (fun h => absurd (hc.symm.trans h) (by simp)) (fun _ => .inl rfl) fun _ => .inl rfl,
      fun h => absurd h (by simp)⟩
  have hlast (q' : Relay) (hd : q'.data = q.data) (hc : q'.clientClosed = true) :
      ∃ r', clientDealloc (if q'.socksClosed = true then q' else { bSocksClientFree q' with socksClosed := true }) =
        some r' ∧ Good r' := by
    by_cases hs : q'.socksClosed = true
    · rw [if_pos hs]
      exact hdealloc q' hd hc hs
    · rw [if_neg hs]
      exact hdealloc _ hd hc rfl
  rw [clientMurder]
  dsimp only
  by_cases hc : r.clientClosed = true
  · rw [if_pos hc]
    exact hlast q rfl hc
  · have habort : clientAbortPcb (removeCallbacks q) = some { removeCallbacks q with aborted := true } := by
      rw [clientAbortPcb]
      exact assert_bind (hl.aborted (by simpa using hc)) _
    rw [if_neg hc, habort]
    exact hlast { removeCallbacks q with aborted := true, clientClosed := true } rfl rfl

/-- **Every callback passes its assertions and keeps the invariant**, in whichever order they come. -/
theorem step_good (hg : Good r) {e : Event} (he : Enabled r e) : ∃ r', step r e = some r' ∧ Good r' := by
  cases e with
  | recv p => exact clientRecvFunc_good hg he
  | fin close => exact clientRecvFin_good hg he
  | err => exact clientErrFunc_good hg he
  | up => exact clientSocksUp_good hg he
  | socksError closed close => exact clientSocksError_good hg he
  | sendDone n => exact clientSocksSendHandlerDone_good hg he
  | recvDone data out => exact clientSocksRecvHandlerDone_good hg he
  | sent n out close => exact clientSentFunc_good hg he
  | murder => exact clientMurder_good hg he.1

/-! ### Runs -/

theorem good_init : Good {} := by
  refine ⟨⟨rfl, fun _ => rfl, Nat.zero_le _, fun _ => rfl, List.prefix_rfl, rfl, fun _ => ⟨rfl, rfl⟩,
    fun h => absurd h (by simp), fun h => absurd h (by simp)⟩, fun _ => ?_⟩
  exact {
    sends := fun h => absurd h (by simp)
    sending := fun _ h => absurd h (by simp)
    receiving := fun h => absurd h (by simp)
    keepsSocks := fun h => absurd h (by simp)
    keepsClient := fun h => absurd h (by simp)
    errFunc := rfl
    recvFunc := rfl
    sentFunc := rfl
    aborted := fun _ => rfl
    receives := fun h => absurd h (by simp)
    waiting := fun _ _ h => absurd h (by simp) }

theorem good_of_reachable (h : Reachable step {} Enabled r) : Good r := by
  refine h.invariant good_init fun s e s' _ hg he hs => ?_
  obtain ⟨r', hr', hgood⟩ := step_good hg he
  rw [hr', Option.some.injEq] at hs
  exact hs ▸ hgood

/-- **From the client to the SOCKS server nothing is lost.** What the server was sent and what is buffered is what
lwIP has passed on; it always fits into the buffer; and tun2socks drops a server that has not gone itself only when
everything has been sent. -/
theorem relay_up (h : Reachable step {} Enabled r) :
    r.toSocks ++ r.buf = r.fromClient ∧ r.buf.length ≤ bufSize ∧
      (r.clientClosed = false → r.recved = r.toSocks.length) ∧
      (r.socksClosed = true → r.socksGone = true ∨ r.toSocks = r.fromClient) := by
  have hp := (good_of_reachable h).passed
  refine ⟨hp.up, hp.window, hp.credit, fun hs => (hp.socksDone hs).imp_right fun hb => ?_⟩
  rw [← hp.up, hb, List.append_nil]

/-- **From the SOCKS server to the client nothing is lost** while the client is open; and tun2socks closes a client that
has not gone itself, and was not aborted, only when the peer has acknowledged everything. -/
theorem relay_down (h : Reachable step {} Enabled r) :
    r.toClient <+: r.fromSocks ∧ (r.clientClosed = false → r.toClient ++ r.held = r.fromSocks) ∧
      (r.clientClosed = true → r.clientGone = true ∨ r.toClient = r.fromSocks ∧ r.acked = r.toClient.length) := by
  have hp := (good_of_reachable h).passed
  refine ⟨hp.written, hp.down, fun hc => (hp.clientDone hc).imp_right fun hd => ⟨hd.1, ?_⟩⟩
  rw [← hp.pending, hd.2, Nat.add_zero]

/-- **No assertion fails** in any order of the callbacks. -/
theorem relay_asserts (h : Reachable step {} Enabled r) {e : Event} (he : Enabled r e) :
    ∃ r', step r e = some r' ∧ Reachable step {} Enabled r' := by
  obtain ⟨r', hr', -⟩ := step_good (good_of_reachable h) he
  exact ⟨r', hr', h.next e he hr'⟩

/-- **Nothing is left lying.** A client that is not freed has a side that is open; what is buffered for the SOCKS
server is being sent as soon as there is a connection; while data are held for the client, an acknowledgement is to
come that goes on with them; and if none are held, the next are asked for. -/
theorem relay_moves (h : Reachable step {} Enabled r) (hf : r.freed = false) :
    (r.clientClosed = false ∨ r.socksClosed = false) ∧
      (r.buf ≠ [] → r.socksUp = true → r.socksClosed = false → ∃ m, r.sending = some m ∧ 0 < m ∧ m ≤ r.buf.length) ∧
      (r.clientClosed = false → r.held ≠ [] → r.acked < r.toClient.length) ∧
      (r.clientClosed = false → r.socksUp = true → r.socksClosed = false → r.held = [] → r.receiving = true) := by
  have hg := good_of_reachable h
  have hl := hg.live hf
  have hheld (hc : r.clientClosed = false) : r.held ≠ [] ↔ r.socksRecvBuf ≠ none := by
    rw [Relay.held]
    cases hd : r.socksRecvBuf with
    | none => simp
    | some d =>
      have := (hl.waiting hc d hd).1
      simp only [Option.getD_some, ne_eq, List.drop_eq_nil_iff, reduceCtorEq, not_false_eq_true, iff_true]
      omega
  refine ⟨?_, fun hb hup hs => ?_, fun hc hne => ?_, fun hc hup hs hnil => ?_⟩
  · cases hc : r.clientClosed with
    | false => exact .inl rfl
    | true => exact .inr (hl.keepsSocks hc).1
  · obtain ⟨m, hm⟩ := hl.sends hup hs (List.length_pos_of_ne_nil hb)
    exact ⟨m, hm, (hl.sending m hm).2.2⟩
  · obtain ⟨d, hd⟩ := Option.ne_none_iff_exists'.mp ((hheld hc).mp hne)
    have := (hl.waiting hc d hd).2.2
    have := hg.passed.pending
    omega
  · refine hl.receives hup hs hc ?_
    by_contra hn
    exact (hheld hc).mpr hn hnil

/-- Data in either direction; lwIP has room for two bytes at first, and the client closes before all is sent. -/
def sampleEvents : List Event :=
  [.recv [1, 2, 3], .up, .recvDone [7, 8, 9] ⟨[(2, .ERR_OK), (0, .ERR_OK)], true⟩, .sendDone 1,
    .sent 1 ⟨[(9, .ERR_OK)], true⟩ true, .fin true]

theorem reachable_sample : ∃ r, Reachable step {} Enabled r ∧
    (r.freed, [r.buf, r.toSocks, r.toClient], r.sending) = (false, [[2, 3], [1], [7, 8, 9]], some 2) :=
  reachable_of_run (c := fun r e => decide (Enabled r e)) step {} (fun _ _ _ h => of_decide_eq_true h) sampleEvents
    (fun r => (r.freed, [r.buf, r.toSocks, r.toClient], r.sending)) (by decide +kernel)

theorem relay_up_sample : ∃ r : Relay, r.toSocks = [1] ∧ r.toSocks ++ r.buf = r.fromClient := by
  obtain ⟨r, hr, hf⟩ := reachable_sample
  simp only [Prod.mk.injEq, List.cons.injEq] at hf
  exact ⟨r, hf.2.1.2.1, (relay_up hr).1⟩

theorem relay_down_sample : ∃ r : Relay, r.toClient = [7, 8, 9] ∧ r.toClient <+: r.fromSocks := by
  obtain ⟨r, hr, hf⟩ := reachable_sample
  simp only [Prod.mk.injEq, List.cons.injEq] at hf
  exact ⟨r, hf.2.1.2.2.1, (relay_down hr).1⟩

theorem relay_asserts_sample : ∃ r r' : Relay, r.sending = some 2 ∧ step r (.sendDone 2) = some r' := by
  obtain ⟨r, hr, hf⟩ := reachable_sample
  simp only [Prod.mk.injEq] at hf
  have he : Enabled r (.sendDone 2) := ⟨hf.1, by decide, by rw [hf.2.2]; decide⟩
  obtain ⟨r', hr', -⟩ := relay_asserts hr he
  exact ⟨r, r', hf.2.2, hr'⟩

theorem relay_moves_sample : ∃ r : Relay, r.buf = [2, 3] ∧ (r.clientClosed = false ∨ r.socksClosed = false) := by
  obtain ⟨r, hr, hf⟩ := reachable_sample
  simp only [Prod.mk.injEq, List.cons.injEq] at hf
  exact ⟨r, hf.2.1.1, (relay_moves hr hf.1).1⟩

end BypassVpn.TcpRelay
