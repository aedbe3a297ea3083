import BypassVpn.Tun2socks.Teardown
import BypassVpn.Tun2socks.TcpRelayRuns

/-!
# The relay and the clients of the bridge

Of a client the bridge keeps what decides when it is freed: the flags and the numbers of bytes. The relay has the bytes
themselves. Whatever the relay does, the client of the bridge can do as well.

* `Counted`, `Queued`: a client of the bridge has the numbers of a relay.
* `Follows`: the bridge lists such a client, until the relay is freed.
* **`step_follows`**, **`relay_bridge`**: one callback, and a whole run.
-/

namespace BypassVpn.TcpRelay

open Transition

/-! ### The numbers -/

/-- The flags and numbers of a relay. -/
def Relay.counts (r : Relay) : Tun2socks.Client where
  clientClosed := r.clientClosed
  socksClosed := r.socksClosed
  socksUp := r.socksUp
  bufUsed := r.buf.length
  socksRecvBufUsed := r.socksRecvBuf.map List.length
  socksRecvBufSent := r.socksRecvBufSent
  socksRecvTcpPending := r.socksRecvTcpPending

/-- A client of the bridge has the flags and numbers of the relay. -/
structure Counted (r : Relay) (c : Tun2socks.Client) : Prop where
  clientClosed : c.clientClosed = r.clientClosed
  socksClosed : c.socksClosed = r.socksClosed
  socksUp : c.socksUp = r.socksUp
  bufUsed : c.bufUsed = r.buf.length
  socksRecvBufUsed : c.socksRecvBufUsed = r.socksRecvBuf.map List.length

/-- What has gone to lwIP; the bridge does not go on with it after an abort. -/
structure Queued (r : Relay) (c : Tun2socks.Client) : Prop where
  socksRecvBufSent : c.socksRecvBufSent = r.socksRecvBufSent
  socksRecvTcpPending : c.socksRecvTcpPending = r.socksRecvTcpPending

/-- The bridge lists the client `k` with the numbers of the relay, until it is freed. -/
def Follows (s : Tun2socks.State) (k : ℕ) (r : Relay) : Prop :=
  if r.freed then s.getClient k = none
  else ∃ c, s.getClient k = some c ∧ Counted r c ∧ (r.clientClosed = false → Queued r c)

variable {r r' : Relay} {close : Bool} {depth k : ℕ} {s : Tun2socks.State} {c c₀ : Tun2socks.Client}

theorem Counted.same (hc : Counted r c) (h : r'.counts = r.counts) : Counted r' c := by
  have hfield {β : Type} (f : Tun2socks.Client → β) : f r.counts = f r'.counts := congrArg f h.symm
  constructor
  · exact hc.clientClosed.trans (hfield (·.clientClosed))
  · exact hc.socksClosed.trans (hfield (·.socksClosed))
  · exact hc.socksUp.trans (hfield (·.socksUp))
  · exact hc.bufUsed.trans (hfield (·.bufUsed))
  · exact hc.socksRecvBufUsed.trans (hfield (·.socksRecvBufUsed))

theorem Queued.same (hq : Queued r c) (h : r'.counts = r.counts) : Queued r' c := by
  constructor
  · exact hq.socksRecvBufSent.trans (congrArg (·.socksRecvBufSent) h.symm)
  · exact hq.socksRecvTcpPending.trans (congrArg (·.socksRecvTcpPending) h.symm)

theorem Follows.same (h : Follows s k r) (hc : r'.counts = r.counts) (hf : r'.freed = r.freed) : Follows s k r' := by
  rw [Follows] at h ⊢
  rw [hf]
  split_ifs at h ⊢
  · exact h
  · obtain ⟨c, hk, hcount, hqueue⟩ := h
    have hclosed : r'.clientClosed = r.clientClosed := congrArg (·.clientClosed) hc
    exact ⟨c, hk, hcount.same hc, fun hopen => (hqueue (hclosed.symm.trans hopen)).same hc⟩

theorem follows_setClient (h : s.getClient k = some c₀) (hf : r.freed = false) (hc : Counted r c)
    (hq : r.clientClosed = false → Queued r c) : Follows (s.setClient k c) k r := by
  rw [Follows, if_neg (by simp [hf])]
  refine ⟨c, ?_, hc, hq⟩
  have hset := Tun2socks.lookup_set s.clients k k c
  rw [if_pos rfl, show s.clients.lookup k = some c₀ from h] at hset
  exact hset

theorem follows_clientDealloc (hf : r.freed = true) : Follows (s.clientDealloc k) k r := by
  rw [Follows, if_pos hf]
  exact (Tun2socks.lookup_filter_ne s.clients k k).trans (if_pos rfl)

theorem of_assert_bind {α : Type} {p : Prop} [Decidable p] {f : Unit → Option α} {b : α}
    (h : (ASSERT p >>= f) = some b) : p ∧ f () = some b := by
  by_cases hp : p
  · exact ⟨hp, by rwa [assert_bind hp] at h⟩
  · rw [ASSERT, if_neg hp] at h
    exact absurd h (by simp)

/-! ### Closing -/

theorem follows_clientHandleFreedClient (h : s.getClient k = some c₀) (hc : Counted r c) (hf : r.freed = false)
    (hopen : r.clientClosed = false) (hr : clientHandleFreedClient close (depth + 2) r = some r') :
    Follows (Tun2socks.clientHandleFreedClient s k c) k r' := by
  rw [clientHandleFreedClient_eq hopen] at hr
  rw [Tun2socks.clientHandleFreedClient_eq]
  by_cases hs : r.socksClosed = true
  · rw [if_pos hs] at hr
    rw [if_pos (hc.socksClosed.trans hs)]
    exact follows_clientDealloc (Option.some.inj hr ▸ rfl)
  · rw [if_neg hs] at hr
    rw [if_neg (fun h => hs (hc.socksClosed.symm.trans h))]
    by_cases hb : r.buf = []
    · rw [if_neg (not_not.mpr hb)] at hr
      rw [if_neg (by simp [hc.bufUsed, hb])]
      exact follows_clientDealloc (Option.some.inj hr ▸ rfl)
    · rw [if_pos hb] at hr
      rw [if_pos (hc.bufUsed ▸ List.length_pos_of_ne_nil hb)]
      obtain rfl := Option.some.inj hr
      exact follows_setClient h hf ⟨rfl, hc.socksClosed, hc.socksUp, hc.bufUsed, hc.socksRecvBufUsed⟩
        fun h => absurd h (by simp)

theorem freed_of_socksClosed (hopen : r.clientClosed = false) (hs : r.socksClosed = true)
    (hr : clientHandleFreedClient close (depth + 2) r = some r') : r'.freed = true := by
  rw [clientHandleFreedClient_eq hopen, if_pos hs] at hr
  exact Option.some.inj hr ▸ rfl

/-- How `tcp_close` turns out makes a difference to the pcb only. -/
theorem clientFreeClient_some (hr : clientFreeClient close (depth + 1) r = some r') :
    ∃ b, clientHandleFreedClient close depth { removeCallbacks r with aborted := b } = some r' := by
  rw [clientFreeClient] at hr
  obtain ⟨-, hr⟩ := of_assert_bind hr
  cases close with
  | true => exact ⟨r.aborted, hr⟩
  | false =>
    obtain ⟨q, hq, hr⟩ := Option.bind_eq_some_iff.mp hr
    obtain ⟨-, hq⟩ := of_assert_bind hq
    exact ⟨true, Option.some.inj hq ▸ hr⟩

theorem follows_clientFreeClient (h : s.getClient k = some c₀) (hc : Counted r c) (hf : r.freed = false)
    (hopen : r.clientClosed = false) (hr : clientFreeClient close (depth + 3) r = some r') :
    Follows (Tun2socks.clientFreeClient s k c) k r' := by
  rw [Tun2socks.clientFreeClient_eq]
  obtain ⟨b, hr⟩ := clientFreeClient_some hr
  exact @follows_clientHandleFreedClient { removeCallbacks r with aborted := b } r' close depth k s c c₀ h
    (hc.same rfl) hf hopen hr

theorem follows_clientAbortClient (h : s.getClient k = some c₀) (hc : Counted r c) (hf : r.freed = false)
    (hr : clientAbortClient r = some r') : Follows (Tun2socks.clientAbortClient s k c) k r' := by
  rw [clientAbortClient] at hr
  obtain ⟨hopen, hr⟩ := of_assert_bind hr
  obtain ⟨q, hq, hr⟩ := Option.bind_eq_some_iff.mp hr
  obtain ⟨-, hq⟩ := of_assert_bind hq
  obtain rfl := Option.some.inj hq
  exact @follows_clientHandleFreedClient { removeCallbacks r with aborted := true, clientGone := true } r' true 2 k s c
    c₀ h (hc.same rfl) hf hopen hr

theorem follows_clientFreeSocks (h : s.getClient k = some c₀) (hc : Counted r c) (hf : r.freed = false)
    (hq : r.clientClosed = false → Queued r c) (hr : clientFreeSocks close (depth + 4) r = some r') :
    Follows (Tun2socks.clientFreeSocks s k c) k r' := by
  rw [clientFreeSocks] at hr
  obtain ⟨-, hr⟩ := of_assert_bind hr
  let q : Relay := { bSocksClientFree { r with
    recvFunc := if r.socksUp ∧ r.clientClosed = false then false else r.recvFunc } with socksClosed := true }
  replace hr : (if q.keepsClient = true then some q
    else if r.clientClosed = false then clientFreeClient close (depth + 3) q else clientDealloc q) = some r' := hr
  have hk : ({ c with socksClosed := true } : Tun2socks.Client).toClient = q.keepsClient := by
    show (c.socksUp && (c.socksRecvBufUsed.isSome || decide (0 < c.socksRecvTcpPending)) && !c.clientClosed) =
      (r.socksUp && (r.socksRecvBuf.isSome || decide (0 < r.socksRecvTcpPending)) && !r.clientClosed)
    rw [hc.clientClosed, hc.socksUp, hc.socksRecvBufUsed, Option.isSome_map]
    cases hcl : r.clientClosed with
    | true => rw [Bool.not_true, Bool.and_false, Bool.and_false]
    | false => rw [(hq hcl).socksRecvTcpPending]
  rw [Tun2socks.clientFreeSocks_eq, hk]
  by_cases hkeeps : q.keepsClient = true
  · rw [if_pos hkeeps] at hr ⊢
    obtain rfl := Option.some.inj hr
    exact follows_setClient h hf ⟨hc.clientClosed, rfl, hc.socksUp, hc.bufUsed, hc.socksRecvBufUsed⟩
      fun h => ⟨(hq h).socksRecvBufSent, (hq h).socksRecvTcpPending⟩
  · rw [if_neg hkeeps] at hr ⊢
    refine follows_clientDealloc ?_
    by_cases hcl : r.clientClosed = false
    · rw [if_pos hcl] at hr
      obtain ⟨b, hr⟩ := clientFreeClient_some hr
      exact @freed_of_socksClosed { removeCallbacks q with aborted := b } r' close depth hcl rfl hr
    · rw [if_neg hcl] at hr
      obtain ⟨-, hr⟩ := of_assert_bind hr
      obtain ⟨-, hr⟩ := of_assert_bind hr
      exact Option.some.inj hr ▸ rfl

/-! ### Passing on -/

theorem same_senderSend (h : senderSend r = some r') : r'.counts = r.counts ∧ r'.freed = r.freed := by
  rw [senderSend] at h
  obtain ⟨-, h⟩ := of_assert_bind h
  obtain ⟨-, h⟩ := of_assert_bind h
  obtain rfl := Option.some.inj h
  exact ⟨rfl, rfl⟩

theorem same_clientSendToSocks (h : clientSendToSocks r = some r') : r'.counts = r.counts ∧ r'.freed = r.freed := by
  rw [clientSendToSocks] at h
  obtain ⟨-, h⟩ := of_assert_bind h
  obtain ⟨-, h⟩ := of_assert_bind h
  obtain ⟨-, h⟩ := of_assert_bind h
  exact same_senderSend h

theorem same_clientSocksRecvInitiate (h : clientSocksRecvInitiate r = some r') :
    r'.counts = r.counts ∧ r'.freed = r.freed := by
  rw [clientSocksRecvInitiate] at h
  obtain ⟨-, h⟩ := of_assert_bind h
  obtain ⟨-, h⟩ := of_assert_bind h
  obtain ⟨-, h⟩ := of_assert_bind h
  obtain ⟨-, h⟩ := of_assert_bind h
  obtain ⟨-, h⟩ := of_assert_bind h
  obtain rfl := Option.some.inj h
  exact ⟨rfl, rfl⟩

/-- However the rounds of the loop turn out, it is their number of bytes that the bridge is told. -/
theorem follows_clientSocksRecvSendOut {data : Bytes} {out : SendOut} {up : Bool} (h : s.getClient k = some c₀)
    (hc : Counted r c) (hq : Queued r c) (hf : r.freed = false) (hd : r.socksRecvBuf = some data)
    (hr : clientSocksRecvSendOut out r = some (r', up)) :
    ∃ o, Follows (Tun2socks.clientSocksRecvSendOut s k c o).1 k r' := by
  rw [clientSocksRecvSendOut, hd, Option.getD_some] at hr
  obtain ⟨hopen, hr⟩ := of_assert_bind hr
  obtain ⟨-, hr⟩ := of_assert_bind hr
  obtain ⟨-, hr⟩ := of_assert_bind hr
  obtain ⟨hlt, hr⟩ := of_assert_bind hr
  obtain ⟨-, hr⟩ := of_assert_bind hr
  obtain ⟨n, ok, hloop, -⟩ := @writeLoop_spec r data out.writes hlt.le
  have hcw : Counted (wrote data n r) c :=
    ⟨hc.clientClosed, hc.socksClosed, hc.socksUp, hc.bufUsed, hc.socksRecvBufUsed⟩
  have habort (ha : (clientAbortClient (wrote data n r)).map (·, false) = some (r', up)) :
      ∃ o, Follows (Tun2socks.clientSocksRecvSendOut s k c o).1 k r' := by
    obtain ⟨q, hq, heq⟩ := Option.map_eq_some_iff.mp ha
    obtain ⟨rfl, -⟩ := Prod.mk.inj heq
    exact ⟨.fails, follows_clientAbortClient h hcw hf hq⟩
  have hused : c.socksRecvBufUsed.getD 0 = data.length := by
    rw [hc.socksRecvBufUsed, hd, Option.map_some, Option.getD_some]
  rw [hloop] at hr
  cases ok with
  | false => exact habort hr
  | true =>
    dsimp only at hr
    split_ifs at hr with hout hrest hpending
    · exact habort hr
    · exact habort hr
    · refine ⟨.queues n, ?_⟩
      obtain ⟨rfl, -⟩ := Prod.mk.inj (Option.some.inj hr)
      have hrest : c.socksRecvBufSent + n < c.socksRecvBufUsed.getD 0 := by
        rw [hused, hq.socksRecvBufSent]
        exact hrest
      have hpending : ¬c.socksRecvTcpPending + n = 0 := by
        rw [hq.socksRecvTcpPending]
        exact hpending
      rw [Tun2socks.clientSocksRecvSendOut]
      dsimp only
      rw [if_pos hrest, if_neg hpending]
      exact follows_setClient h hf ⟨hc.clientClosed, hc.socksClosed, hc.socksUp, hc.bufUsed, hc.socksRecvBufUsed⟩
        fun _ => ⟨congrArg (· + n) hq.socksRecvBufSent, congrArg (· + n) hq.socksRecvTcpPending⟩
    · refine ⟨.queues n, ?_⟩
      obtain ⟨rfl, -⟩ := Prod.mk.inj (Option.some.inj hr)
      have hrest : ¬c.socksRecvBufSent + n < c.socksRecvBufUsed.getD 0 := by
        rw [hused, hq.socksRecvBufSent]
        exact hrest
      rw [Tun2socks.clientSocksRecvSendOut]
      dsimp only
      rw [if_neg hrest]
      exact follows_setClient h hf ⟨hc.clientClosed, hc.socksClosed, hc.socksUp, hc.bufUsed, rfl⟩
        fun _ => ⟨congrArg (· + n) hq.socksRecvBufSent, congrArg (· + n) hq.socksRecvTcpPending⟩

/-! ### The callbacks -/

/-- A turn of the bridge's event loop leads to the numbers of the relay. -/
def CanFollow (s : Tun2socks.State) (k : ℕ) (r : Relay) : Prop :=
  ∃ e s', Tun2socks.handle s e = some s' ∧ Follows s' k r

theorem Follows.client (h : Follows s k r) (hf : r.freed = false) :
    ∃ c, s.getClient k = some c ∧ Counted r c ∧ (r.clientClosed = false → Queued r c) := by
  rwa [Follows, if_neg (by simp [hf])] at h

theorem clientRecvFunc_follows (hs : Follows s k r) (hf : r.freed = false) {p : Bytes}
    (hr : clientRecvFunc p r = some r') : CanFollow s k r' := by
  obtain ⟨c, h, hc, hq⟩ := hs.client hf
  rw [clientRecvFunc] at hr
  obtain ⟨hopen, hr⟩ := of_assert_bind hr
  obtain ⟨hpos, hr⟩ := of_assert_bind hr
  have hstart : ¬(c.clientClosed || decide (p.length = 0)) = true := by
    rw [hc.clientClosed, hopen, Bool.false_or, decide_eq_true_eq]
    omega
  have hroom : (Tun2socks.clientBufSize - c.bufUsed < p.length) = (p.length > bufSize - r.buf.length) := by
    rw [hc.bufUsed]
  by_cases hlong : p.length > bufSize - r.buf.length
  · rw [if_pos hlong] at hr
    obtain rfl := Option.some.inj hr
    refine ⟨.clientRecv k (some p.length), s, ?_, hs⟩
    rw [Tun2socks.handle, h, Option.bind_some, if_neg hstart, if_pos (hroom ▸ hlong)]
  · rw [if_neg hlong] at hr
    let q : Relay := { r with buf := r.buf ++ p, fromClient := r.fromClient ++ p }
    have hsame : r'.counts = q.counts ∧ r'.freed = q.freed := by
      dsimp only at hr
      split_ifs at hr with hfirst
      · obtain ⟨-, hr⟩ := of_assert_bind hr
        exact same_clientSendToSocks hr
      · obtain rfl := Option.some.inj hr
        exact ⟨rfl, rfl⟩
    have hlen : c.bufUsed + p.length = (r.buf ++ p).length := by rw [hc.bufUsed, List.length_append]
    refine ⟨.clientRecv k (some p.length), s.setClient k { c with bufUsed := c.bufUsed + p.length }, ?_,
      Follows.same (r := q) (follows_setClient h hf
        ⟨hc.clientClosed, hc.socksClosed, hc.socksUp, hlen, hc.socksRecvBufUsed⟩
        fun ho => ⟨(hq ho).socksRecvBufSent, (hq ho).socksRecvTcpPending⟩) hsame.1 hsame.2⟩
    rw [Tun2socks.handle, h, Option.bind_some, if_neg hstart, if_neg (hroom ▸ hlong)]

theorem clientRecvFin_follows (hs : Follows s k r) (hf : r.freed = false) (hr : clientRecvFin close r = some r') :
    CanFollow s k r' := by
  obtain ⟨c, h, hc, -⟩ := hs.client hf
  rw [clientRecvFin] at hr
  obtain ⟨hopen, hr⟩ := of_assert_bind hr
  refine ⟨.clientRecv k none, Tun2socks.clientFreeClient s k c, ?_, ?_⟩
  · rw [Tun2socks.handle, h, Option.bind_some, if_neg (by simp [hc.clientClosed, hopen])]
  · exact @follows_clientFreeClient { r with clientGone := true } r' close 1 k s c c h
      (hc.same rfl) hf hopen hr

theorem clientErrFunc_follows (hs : Follows s k r) (hf : r.freed = false) (hr : clientErrFunc r = some r') :
    CanFollow s k r' := by
  obtain ⟨c, h, hc, -⟩ := hs.client hf
  rw [clientErrFunc] at hr
  obtain ⟨hopen, hr⟩ := of_assert_bind hr
  refine ⟨.clientErr k, Tun2socks.clientHandleFreedClient s k c, ?_, ?_⟩
  · rw [Tun2socks.handle, h, Option.bind_some, if_neg (by simp [hc.clientClosed, hopen])]
  · exact @follows_clientHandleFreedClient { removeCallbacks r with clientGone := true } r' true 2 k s c c h
      (hc.same rfl) hf hopen hr

theorem clientSocksError_follows (hs : Follows s k r) (hf : r.freed = false) {closed : Bool}
    (hr : clientSocksError closed close r = some r') : CanFollow s k r' := by
  obtain ⟨c, h, hc, hq⟩ := hs.client hf
  rw [clientSocksError] at hr
  obtain ⟨hopen, hr⟩ := of_assert_bind hr
  obtain ⟨-, hr⟩ := of_assert_bind hr
  refine ⟨.socksError k, Tun2socks.clientFreeSocks s k c, ?_, ?_⟩
  · rw [Tun2socks.handle, h, Option.bind_some, if_neg (by simp [hc.socksClosed, hopen])]
  · exact @follows_clientFreeSocks { r with socksGone := true } r' close 0 k s c c h
      (hc.same rfl) hf (fun ho => (hq ho).same rfl) hr

theorem clientSocksUp_follows (hs : Follows s k r) (hf : r.freed = false) (hr : clientSocksUp r = some r') :
    CanFollow s k r' := by
  obtain ⟨c, h, hc, hq⟩ := hs.client hf
  rw [clientSocksUp] at hr
  obtain ⟨hopen, hr⟩ := of_assert_bind hr
  obtain ⟨hdown, hr⟩ := of_assert_bind hr
  let q : Relay := { r with
    socksRecvBuf := none
    socksRecvTcpPending := 0
    sentFunc := if r.clientClosed then r.sentFunc else true
    socksUp := true }
  replace hr : (if 0 < r.buf.length then clientSendToSocks q >>= fun r' =>
      if r'.clientClosed = true then some r' else clientSocksRecvInitiate r'
    else if r.clientClosed = true then some q else clientSocksRecvInitiate q) = some r' := hr
  have hnext {q' : Relay} (h : (if q'.clientClosed = true then some q' else clientSocksRecvInitiate q') = some r') :
      r'.counts = q'.counts ∧ r'.freed = q'.freed := by
    split_ifs at h
    · obtain rfl := Option.some.inj h
      exact ⟨rfl, rfl⟩
    · exact same_clientSocksRecvInitiate h
  have hsame : r'.counts = q.counts ∧ r'.freed = q.freed := by
    by_cases hb : 0 < r.buf.length
    · rw [if_pos hb] at hr
      obtain ⟨q', hq', hr⟩ := Option.bind_eq_some_iff.mp hr
      obtain ⟨hcounts, hfreed⟩ := same_clientSendToSocks hq'
      exact ⟨(hnext hr).1.trans hcounts, (hnext hr).2.trans hfreed⟩
    · rw [if_neg hb] at hr
      exact @hnext q hr
  refine ⟨.socksUp k, s.setClient k { c with socksUp := true, socksRecvBufUsed := none, socksRecvTcpPending := 0 }, ?_,
    Follows.same (r := q) (follows_setClient h hf ⟨hc.clientClosed, hc.socksClosed, rfl, hc.bufUsed, rfl⟩
      fun ho => ⟨(hq ho).socksRecvBufSent, rfl⟩) hsame.1 hsame.2⟩
  rw [Tun2socks.handle, h, Option.bind_some, if_neg (by simp [hc.socksClosed, hc.socksUp, hopen, hdown])]

theorem clientSocksSendHandlerDone_follows (hs : Follows s k r) (hf : r.freed = false) {n : ℕ}
    (hr : clientSocksSendHandlerDone n r = some r') : CanFollow s k r' := by
  obtain ⟨c, h, hc, hq⟩ := hs.client hf
  rw [clientSocksSendHandlerDone] at hr
  obtain ⟨hopen, hr⟩ := of_assert_bind hr
  obtain ⟨hup, hr⟩ := of_assert_bind hr
  obtain ⟨-, hr⟩ := of_assert_bind hr
  obtain ⟨hpos, hr⟩ := of_assert_bind hr
  obtain ⟨hle, hr⟩ := of_assert_bind hr
  let q : Relay := { r with
    toSocks := r.toSocks ++ r.buf.take n
    buf := r.buf.drop n
    sending := none
    recved := if r.clientClosed then r.recved else r.recved + n }
  replace hr : (if 0 < (r.buf.drop n).length then senderSend q
    else if r.clientClosed = true then clientFreeSocks true 4 q else some q) = some r' := hr
  let d : Tun2socks.Client := { c with bufUsed := c.bufUsed - n }
  have hlen : d.bufUsed = (r.buf.drop n).length := by
    rw [List.length_drop, ← hc.bufUsed]
  have hd : Counted q d := ⟨hc.clientClosed, hc.socksClosed, hc.socksUp, hlen, hc.socksRecvBufUsed⟩
  have hqd (ho : q.clientClosed = false) : Queued q d := ⟨(hq ho).socksRecvBufSent, (hq ho).socksRecvTcpPending⟩
  have hstart : ¬(c.socksClosed || !c.socksUp || decide (n = 0) || decide (c.bufUsed < n)) = true := by
    simp only [hc.socksClosed, hc.socksUp, hc.bufUsed, hopen, hup, Bool.not_true, Bool.or_false, Bool.false_or,
      Bool.or_eq_true, decide_eq_true_eq]
    omega
  have hhandle : Tun2socks.handle s (.socksSendDone k n) =
      if d.bufUsed = 0 ∧ d.clientClosed = true then some (Tun2socks.clientFreeSocks s k d)
      else some (s.setClient k d) := by
    rw [Tun2socks.handle, h, Option.bind_some, if_neg hstart]
  -- the last bytes of a client that is closed free the SOCKS client
  by_cases hlast : d.bufUsed = 0 ∧ d.clientClosed = true
  · refine ⟨.socksSendDone k n, _, hhandle.trans (if_pos hlast), ?_⟩
    rw [if_neg (by omega), if_pos (hc.clientClosed.symm.trans hlast.2)] at hr
    exact follows_clientFreeSocks h hd hf hqd hr
  · refine ⟨.socksSendDone k n, _, hhandle.trans (if_neg hlast), ?_⟩
    have hsame : r'.counts = q.counts ∧ r'.freed = q.freed := by
      split_ifs at hr with hrest hclosed
      · exact same_senderSend hr
      · exact absurd ⟨by omega, hc.clientClosed.trans hclosed⟩ hlast
      · obtain rfl := Option.some.inj hr
        exact ⟨rfl, rfl⟩
    exact Follows.same (r := q) (follows_setClient h hf hd hqd) hsame.1 hsame.2

theorem clientSocksRecvHandlerDone_follows (hs : Follows s k r) (hf : r.freed = false) {data : Bytes} {out : SendOut}
    (hr : clientSocksRecvHandlerDone data out r = some r') : CanFollow s k r' := by
  obtain ⟨c, h, hc, hq⟩ := hs.client hf
  rw [clientSocksRecvHandlerDone] at hr
  obtain ⟨hpos, hr⟩ := of_assert_bind hr
  obtain ⟨-, hr⟩ := of_assert_bind hr
  obtain ⟨hopen, hr⟩ := of_assert_bind hr
  obtain ⟨hup, hr⟩ := of_assert_bind hr
  obtain ⟨hnone, hr⟩ := of_assert_bind hr
  have hstart : ¬(c.socksClosed || !c.socksUp || decide (data.length = 0) || c.socksRecvBufUsed.isSome) = true := by
    simp only [hc.socksClosed, hc.socksUp, hc.socksRecvBufUsed, hopen, hup, hnone, Option.map_none, Option.isSome_none,
      Bool.not_true, Bool.or_false, Bool.false_or, decide_eq_true_eq]
    omega
  dsimp only at hr
  by_cases hclosed : r.clientClosed = true
  · rw [if_pos hclosed] at hr
    obtain rfl := Option.some.inj hr
    refine ⟨.socksRecvDone k data.length .fails, s, ?_, hs.same rfl rfl⟩
    rw [Tun2socks.handle, h, Option.bind_some, if_neg hstart, if_pos (hc.clientClosed.trans hclosed)]
  · rw [if_neg hclosed] at hr
    obtain ⟨⟨q', up⟩, hsend, hr⟩ := Option.bind_eq_some_iff.mp hr
    have hsame : r'.counts = q'.counts ∧ r'.freed = q'.freed := by
      dsimp only at hr
      split_ifs at hr
      · exact same_clientSocksRecvInitiate hr
      · obtain rfl := Option.some.inj hr
        exact ⟨rfl, rfl⟩
    let q : Relay := { r with
      receiving := false
      fromSocks := r.fromSocks ++ data
      socksRecvBuf := some data
      socksRecvBufSent := 0
      socksRecvWaiting := false }
    let d : Tun2socks.Client := { c with socksRecvBufUsed := some data.length, socksRecvBufSent := 0 }
    obtain ⟨o, hfollows⟩ := @follows_clientSocksRecvSendOut q q' k s d c data out up h
      ⟨hc.clientClosed, hc.socksClosed, hc.socksUp, hc.bufUsed, rfl⟩
      ⟨rfl, (hq (by simpa using hclosed)).socksRecvTcpPending⟩ hf rfl hsend
    refine ⟨.socksRecvDone k data.length o, _, ?_, hfollows.same hsame.1 hsame.2⟩
    rw [Tun2socks.handle, h, Option.bind_some, if_neg hstart,
      if_neg (fun hc' => hclosed (hc.clientClosed.symm.trans hc'))]

theorem clientSentFunc_follows (hg : Good r) (hs : Follows s k r) (hf : r.freed = false) {n : ℕ} {out : SendOut}
    (hr : clientSentFunc n out close r = some r') : CanFollow s k r' := by
  obtain ⟨c, h, hc, hq⟩ := hs.client hf
  rw [clientSentFunc] at hr
  obtain ⟨hopen, hr⟩ := of_assert_bind hr
  obtain ⟨hup, hr⟩ := of_assert_bind hr
  obtain ⟨hpos, hr⟩ := of_assert_bind hr
  obtain ⟨hle, hr⟩ := of_assert_bind hr
  have hq := hq hopen
  have hstart : ¬(c.clientClosed || !c.socksUp || decide (n = 0) || decide (c.socksRecvTcpPending < n)) = true := by
    simp only [hc.clientClosed, hc.socksUp, hq.socksRecvTcpPending, hopen, hup, Bool.not_true, Bool.or_false,
      Bool.false_or, Bool.or_eq_true, decide_eq_true_eq]
    omega
  let q : Relay := { r with acked := r.acked + n, socksRecvTcpPending := r.socksRecvTcpPending - n }
  let d : Tun2socks.Client := { c with socksRecvTcpPending := c.socksRecvTcpPending - n }
  have hd : Counted q d := ⟨hc.clientClosed, hc.socksClosed, hc.socksUp, hc.bufUsed, hc.socksRecvBufUsed⟩
  have hqd : Queued q d := ⟨hq.socksRecvBufSent, congrArg (· - n) hq.socksRecvTcpPending⟩
  have hhandle (o : Tun2socks.SendOut) : Tun2socks.handle s (.clientSent k n o) =
      if d.socksRecvBufUsed.isSome = true then some (Tun2socks.clientSocksRecvSendOut s k d o).1
      else if d.socksClosed = true ∧ d.socksRecvTcpPending = 0 then some (Tun2socks.clientFreeClient s k d)
      else some (s.setClient k d) := by
    rw [Tun2socks.handle, h, Option.bind_some, if_neg hstart]
  dsimp only at hr
  rcases Option.eq_none_or_eq_some r.socksRecvBuf with hnone | ⟨data, hdata⟩
  · have hempty : ¬d.socksRecvBufUsed.isSome = true := by
      simp [d, hc.socksRecvBufUsed, hnone]
    rw [show r.socksRecvBuf.getD [] = [] by rw [hnone, Option.getD_none], if_neg (by simp)] at hr
    replace hr : (if r.socksClosed = true ∧ q.socksRecvTcpPending = 0 then clientFreeClient close 4 q
      else some q) = some r' := hr
    have hcond : (d.socksClosed = true ∧ d.socksRecvTcpPending = 0) =
        (r.socksClosed = true ∧ q.socksRecvTcpPending = 0) := by
      rw [hqd.socksRecvTcpPending, show d.socksClosed = r.socksClosed from hc.socksClosed]
    by_cases hlast : r.socksClosed = true ∧ q.socksRecvTcpPending = 0
    · rw [if_pos hlast] at hr
      refine ⟨.clientSent k n .fails, _, (hhandle _).trans ((if_neg hempty).trans (if_pos (hcond ▸ hlast))), ?_⟩
      exact follows_clientFreeClient h hd hf hopen hr
    · rw [if_neg hlast] at hr
      obtain rfl := Option.some.inj hr
      refine ⟨.clientSent k n .fails, _, (hhandle _).trans ((if_neg hempty).trans (if_neg (hcond ▸ hlast))), ?_⟩
      exact follows_setClient h hf hd fun _ => hqd
  · have hsome : d.socksRecvBufUsed.isSome = true := by
      simp [d, hc.socksRecvBufUsed, hdata]
    have hb : 0 < data.length := Nat.zero_lt_of_lt ((hg.live hf).waiting hopen data hdata).1
    rw [show r.socksRecvBuf.getD [] = data by rw [hdata, Option.getD_some], if_pos hb] at hr
    obtain ⟨-, hr⟩ := of_assert_bind hr
    obtain ⟨-, hr⟩ := of_assert_bind hr
    obtain ⟨⟨q', up⟩, hsend, hr⟩ := Option.bind_eq_some_iff.mp hr
    have hsame : r'.counts = q'.counts ∧ r'.freed = q'.freed := by
      dsimp only at hr
      by_cases hdead : up = false
      · rw [if_pos hdead] at hr
        obtain rfl := Option.some.inj hr
        exact ⟨rfl, rfl⟩
      · rw [if_neg hdead] at hr
        obtain ⟨-, hr⟩ := of_assert_bind hr
        split_ifs at hr
        · exact same_clientSocksRecvInitiate hr
        · obtain rfl := Option.some.inj hr
          exact ⟨rfl, rfl⟩
    obtain ⟨o, hfollows⟩ := @follows_clientSocksRecvSendOut { q with socksRecvWaiting := false } q' k s d c data out up
      h (hd.same rfl) (hqd.same rfl) hf hdata hsend
    exact ⟨.clientSent k n o, _, (hhandle o).trans (if_pos hsome), hfollows.same hsame.1 hsame.2⟩

/-- **One callback.** What it does to the numbers of the relay, a turn of the bridge's event loop does as well. -/
theorem step_follows (hg : Good r) (hs : Follows s k r) {e : Event} (he : Enabled r e) (hm : e ≠ .murder)
    (hr : step r e = some r') : CanFollow s k r' := by
  cases e with
  | recv p => exact clientRecvFunc_follows hs he.1 hr
  | fin close => exact clientRecvFin_follows hs he.1 hr
  | err => exact clientErrFunc_follows hs he.1 hr
  | up => exact clientSocksUp_follows hs he.1 hr
  | socksError closed close => exact clientSocksError_follows hs he.1 hr
  | sendDone n => exact clientSocksSendHandlerDone_follows hs he.1 hr
  | recvDone data out => exact clientSocksRecvHandlerDone_follows hs he.1 hr
  | sent n out close => exact clientSentFunc_follows hg hs he.1 hr
  | murder => exact absurd rfl hm

theorem freed_of_clientMurder (hr : clientMurder r = some r') : r'.freed = true := by
  have hdealloc {q : Relay} (h : clientDealloc q = some r') : r'.freed = true := by
    rw [clientDealloc] at h
    obtain ⟨-, h⟩ := of_assert_bind h
    obtain ⟨-, h⟩ := of_assert_bind h
    exact Option.some.inj h ▸ rfl
  rw [clientMurder] at hr
  dsimp only at hr
  by_cases hc : r.clientClosed = true
  · rw [if_pos hc] at hr
    exact hdealloc hr
  · rw [if_neg hc] at hr
    obtain ⟨q, -, hr⟩ := Option.bind_eq_some_iff.mp hr
    exact hdealloc hr

theorem clientMurder_follows (hr : clientMurder r = some r') : Follows (Tun2socks.clientMurder s k c) k r' := by
  rw [Tun2socks.clientMurder]
  exact follows_clientDealloc (freed_of_clientMurder hr)

/-! ### Runs -/

/-- The relay before the end of the bridge. -/
def EnabledTurn (r : Relay) (e : Event) : Prop := Enabled r e ∧ e ≠ .murder

instance (r : Relay) (e : Event) : Decidable (EnabledTurn r e) := inferInstanceAs (Decidable (_ ∧ _))

/-- **A run of the relay is a run of the bridge.** From any state in which the bridge has just accepted the client `k`,
turns of its event loop lead to a state that lists it with the numbers of the relay or, once the relay is freed, does
not list it. At the end of the bridge a relay that is left is freed, and its client goes with it. -/
theorem relay_bridge (hk : s.getClient k = some {}) (h : Reachable step {} EnabledTurn r) :
    ∃ s', Reachable Tun2socks.handle s anyStep s' ∧ Follows s' k r ∧
      (r.freed = false → ∃ c r', s'.getClient k = some c ∧ step r .murder = some r' ∧ r'.freed = true ∧
        Follows (Tun2socks.clientMurder s' k c) k r') := by
  have hgood {r : Relay} (h : Reachable step {} EnabledTurn r) : Good r := by
    refine h.invariant good_init fun r e r' _ hg he hr => ?_
    obtain ⟨q, hq, hgood⟩ := step_good hg he.1
    exact Option.some.inj (hr.symm.trans hq) ▸ hgood
  have hrun : ∃ s', Reachable Tun2socks.handle s anyStep s' ∧ Follows s' k r := by
    refine h.simulate (fun r s => Follows s k r) ?_ fun r e r' t hreach hfollows he hr => ?_
    · rw [Follows, if_neg (by simp)]
      exact ⟨{}, hk, ⟨rfl, rfl, rfl, rfl, rfl⟩, fun _ => ⟨rfl, rfl⟩⟩
    · obtain ⟨l, t', hturn, hfollows⟩ := step_follows (hgood hreach) hfollows he.1 he.2 hr
      exact ⟨l, t', trivial, hturn, hfollows⟩
  obtain ⟨s', hreach, hfollows⟩ := hrun
  refine ⟨s', hreach, hfollows, fun hf => ?_⟩
  obtain ⟨c, hc, -⟩ := hfollows.client hf
  obtain ⟨r', hr, -⟩ := clientMurder_good (hgood h) hf
  exact ⟨c, r', hc, hr, freed_of_clientMurder hr, clientMurder_follows hr⟩

theorem relay_bridge_sample : ∃ s : Tun2socks.State,
    Reachable Tun2socks.handle { clients := [(0, {})] } anyStep s ∧ ∃ c, s.getClient 0 = some c ∧ c.bufUsed = 2 := by
  obtain ⟨r, hr, hf⟩ := reachable_of_run (c := fun r e => decide (EnabledTurn r e)) step {}
    (fun _ _ _ h => of_decide_eq_true h) sampleEvents (fun r => (r.freed, r.buf)) (b := (false, [2, 3]))
    (by decide +kernel)
  obtain ⟨hf, hb⟩ := Prod.mk.inj hf
  obtain ⟨s, hreach, hs, -⟩ := @relay_bridge r 0 { clients := [(0, {})] } rfl hr
  obtain ⟨c, hc, hcount, -⟩ := hs.client hf
  exact ⟨s, hreach, c, hc, by rw [hcount.bufUsed, hb]; rfl⟩

end BypassVpn.TcpRelay
