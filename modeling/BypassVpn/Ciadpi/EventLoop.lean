import BypassVpn.Ciadpi.Connections
import BypassVpn.Lib.Transition

/-!
# `conev.c`: the event loop

`loop_event` takes the next event or the next timer and runs the callback of its slot. A `Turn` is one turn of it:
the time, what `epoll_wait` returns, and what the callback does, in any order, with slots in use.

* `nextEvent`, `nextEventTv`, `callback`, `turn`.
* `turn_inv`: what one turn keeps; `Inv`.
* **`loop_fds`**, **`loop_pairs`**, **`loop_events`**, **`loop_timers`**, **`loop_buffers`**: what holds in every
  state that the loop reaches.
-/

namespace BypassVpn.Ciadpi.Proxy

open Conev Transition DoublyLinked

/-! ### The loop -/

/-- The event type of a timer that has run out. -/
def POLLTIMEOUT : ℤ := 0

/-- An event of `pevents`; `use` is what its slot's `uses` was when `epoll_wait` returned it. -/
structure Due where
  slot : ℕ
  type : ℤ
  use : ℕ
  deriving DecidableEq

/-- How `epoll_wait` returns. -/
inductive Wait
  | events (evs : List (ℕ × ℤ))
  | timeout
  | error

/-- The event loop between two events. -/
structure State where
  pool : Pool
  /-- `pevents[*offs]` and below, in the order in which they are looked at. -/
  pending : List Due
  type : ℤ
  clock : ℤ

/-- `start_event_loop`, up to the loop. -/
def startEventLoop (maxOpen : ℕ) (srvfd clock : ℤ) : State where
  pool := (addEvent (openFd (initPool (maxOpen * 2 + 1)) srvfd) .onAccept srvfd true).1
  pending := []
  type := -1
  clock := clock

/-- `val->mod_iter == pool->iters`. -/
def stale (p : Pool) (d : Due) : Bool := (p.items d.slot).modIter == p.iters

/-- The events that are left, up to the first that is not stale. -/
def look (s : State) : Option (State × Option Due) :=
  match s.pending.dropWhile (stale s.pool) with
  | d :: rest => some ({ s with pending := rest, type := d.type }, some d)
  | [] => none

/-- `epoll_wait` has filled `pevents`, which is read from its end. -/
def batch (s : State) (evs : List (ℕ × ℤ)) : State :=
  { s with
    pool := { s.pool with iters := s.pool.iters + 1 }
    pending := (evs.map fun e => ⟨e.1, e.2, s.pool.uses e.1⟩).reverse }

/-- `next_event`, with what `epoll_wait` returns each time it is called. -/
def nextEvent (s : State) : List Wait → Option (State × Option Due)
  | [] => look s
  | w :: ws =>
    match look s with
    | some r => some r
    | none =>
      match w with
      | .timeout => some ({ s with pending := [], type := POLLTIMEOUT }, none)
      | .error => some ({ s with pending := [] }, none)
      | .events evs => nextEvent (batch s evs) ws

/-- `(int)(pool->tv_start->tv_ms - time_ms())` -/
def timeLeft (p : Pool) (v : ℕ) (now : ℤ) : ℤ := (p.tvMs v - now).bmod (2 ^ 32)

/-- `next_event_tv` -/
def nextEventTv (s : State) (now : ℤ) (ws : List Wait) : Option (State × Option ℕ) :=
  match s.pool.tv.first with
  | none => (nextEvent s ws).map fun r => (r.1, r.2.map Due.slot)
  | some v =>
    let r := if 0 < timeLeft s.pool v now then nextEvent s ws else some ({ s with type := POLLTIMEOUT }, none)
    r.map fun (s, d) =>
      match d, s.pool.tv.first with
      | none, some v => if s.type = POLLTIMEOUT then ({ s with pool := removeTimer s.pool v }, some v) else (s, none)
      | d, _ => (s, d.map Due.slot)

/-- What happens in one turn of `loop_event`: the time at its start and its end, what `epoll_wait` returns, what
the callback does, at last the reconnection of a slot, and whether it fails. -/
structure Turn where
  start : ℤ
  stop : ℤ
  waits : List Wait
  ops : List Op
  reconn : Option (ℕ × ConnCalls)
  fails : Bool

/-- The reconnection with which a callback ends. -/
def lastly (p : Pool) (t : Turn) : Option Pool :=
  match t.reconn with
  | none => some p
  | some (u, c) => (reconnect p u c).map Prod.fst

/-- The callback of the slot `v`, and `del_event` if it fails. -/
def callback (size : ℕ) (p : Pool) (v : ℕ) (t : Turn) : Option Pool := do
  let p ← acts size p t.ops
  let p ← lastly p t
  some (if t.fails then delEvent p v else p)

/-- One turn of `loop_event`. -/
def turn (size : ℕ) (s : State) (t : Turn) : Option State := do
  let (s, v) ← nextEventTv s t.start t.waits
  let s := { s with clock := t.stop }
  match v with
  | none => some s
  | some v => (callback size s.pool v t).map fun p => { s with pool := p }

/-- `destroy_pool` -/
def destroyPool (p : Pool) : Pool := destroyFrom p.count p
where
  destroyFrom : ℕ → Pool → Pool
    | 0, p => p
    | n + 1, p => if p.count = 0 then p else destroyFrom n (delEvent p (p.links 0))

/-! ### One turn -/

section Turn

variable {strict : Prop} {p p' : Pool} {size : ℕ} {D start stop : ℤ} {v : ℕ}

/-- The last step of a turn meets a slot that has a server to lose. -/
def ReconnOk (p : Pool) (r : ℕ × ConnCalls) : Prop :=
  r.1 ∈ liveSlots p ∧ ((p.items r.1).cb = .onConnect ∨ (p.items r.1).cb = .onTunnel) ∧ r.2.Fresh p

/-- What a callback comes to do in its turn. -/
def Turn.CallbackOk (size : ℕ) (p : Pool) (t : Turn) : Prop :=
  ActsOk size t.start t.stop p t.ops ∧
    match acts size p t.ops with
    | some q => ∀ r ∈ t.reconn, ReconnOk q r
    | none => True

instance (p : Pool) (r : ℕ × ConnCalls) : Decidable (ReconnOk p r) := inferInstanceAs (Decidable (_ ∧ _ ∧ _))

instance (size : ℕ) (p : Pool) (t : Turn) : Decidable (t.CallbackOk size p) :=
  have : Decidable (match acts size p t.ops with | some q => ∀ r ∈ t.reconn, ReconnOk q r | none => True) :=
    match acts size p t.ops with
    | some q => inferInstanceAs (Decidable (∀ r ∈ t.reconn, ReconnOk q r))
    | none => inferInstanceAs (Decidable True)
  inferInstanceAs (Decidable (_ ∧ _))

/-- No call fails that would leave a slot without its pair. -/
def Turn.Steady (t : Turn) : Prop := (∀ op ∈ t.ops, op.Steady) ∧ ∀ r ∈ t.reconn, r.2.mod = true

theorem callback_spec (hg : Good size p) (hp : Pairs strict p) (hv : v ∈ liveSlots p) {t : Turn} (h0 : 0 ≤ t.start)
    (hle : t.start ≤ t.stop) (hok : t.CallbackOk size p) (hs : strict → t.Steady) (h : callback size p v t = some p') :
    Keeps size (t.stop + 2 ^ 31) [] [] p p' ∧ Pairs strict p' := by
  have hD : 0 < t.stop + 2 ^ 31 := by omega
  obtain ⟨q, hq, h⟩ := Option.bind_eq_some_iff.mp h
  obtain ⟨hacts, hrecs⟩ := hok
  rw [hq] at hrecs
  obtain ⟨haq, hpq⟩ := acts_spec h0 (Int.le_refl _) hle hg hp hacts (fun hst => (hs hst).1) hq
  obtain ⟨r, hr, h⟩ := Option.bind_eq_some_iff.mp h
  obtain rfl := Option.some.inj h
  have hvq := haq.mono v hv
  have hreconn : Keeps size (t.stop + 2 ^ 31) [] [] q r ∧ Pairs strict r ∧
      (v ∈ liveSlots r ∨ (r.items v).fd = -1) := by
    rw [lastly] at hr
    rcases hrec : t.reconn with _ | ⟨u, c⟩
    · rw [hrec] at hr
      obtain rfl := Option.some.inj hr
      exact ⟨.refl haq.good, hpq, .inl hvq⟩
    · rw [hrec] at hr
      obtain ⟨⟨r', b⟩, hr', rfl⟩ := Option.map_eq_some_iff.mp hr
      obtain ⟨hu, hcb, hf⟩ := hrecs (u, c) hrec
      obtain ⟨hk, hpr, hlive⟩ := reconnect_spec hD haq.good hpq hu hcb hf (fun hst => (hs hst).2 (u, c) hrec) hr'
      refine ⟨hk, hpr, ?_⟩
      rcases hlive v hvq with hvr | ⟨-, hfd⟩
      · exact .inl hvr
      · exact .inr hfd
  obtain ⟨hkr, hpr, hvr⟩ := hreconn
  have hk := haq.toKeeps.trans hkr
  by_cases hf : t.fails = true
  · rw [if_pos hf]
    rcases hvr with hvr | hfd
    · obtain ⟨g, hgr, hgl⟩ := (hpr v hvr).group hvr
      exact ⟨hk.trans (delEvent_keeps hD hkr.good hgr hgl), (hpr.delEvent hkr.good hvr).1⟩
    · rw [delEvent, delFrom_closed hfd]
      exact ⟨hk, hpr⟩
  · rw [if_neg hf]
    exact ⟨hk, hpr⟩

end Turn

/-! ### The next event -/

/-- The slot of the event is still held by the connection that the event was reported for. -/
def Held (p : Pool) (d : Due) : Prop := d.slot ∈ liveSlots p ∧ p.uses d.slot = d.use

/-- What is known of an event that waits: it is passed over if and only if its slot was given up. -/
inductive DueOk (p : Pool) (d : Due) : Prop
  | fresh : Held p d → (p.items d.slot).modIter < p.iters → DueOk p d
  | gone : (p.items d.slot).modIter = p.iters → d.use ≤ p.uses d.slot →
      (d.slot ∈ liveSlots p → d.use < p.uses d.slot) → DueOk p d

section Events

variable {p p' : Pool} {size : ℕ} {D : ℤ} {k k' : List ℤ} {d : Due} {s s' : State}

theorem DueOk.stale_iff (h : DueOk p d) : stale p d = true ↔ ¬Held p d := by
  rw [stale, beq_iff_eq]
  cases h with
  | fresh hh hlt => simp [hh, Nat.ne_of_lt hlt]
  | gone heq _ hlt =>
    refine iff_of_true heq fun hh => ?_
    have := hlt hh.1
    rw [hh.2] at this
    exact Nat.lt_irrefl _ this

theorem DueOk.keeps (h : DueOk p d) (hk : Keeps size D k k' p p') : DueOk p' d := by
  have hiters := hk.iters
  cases hk.fate d.slot with
  | kept hw hw' huses hmod =>
    cases h with
    | fresh hh hlt => exact .fresh ⟨hw', huses.trans hh.2⟩ (by rw [hmod, hiters]; exact hlt)
    | gone heq hle hlt => exact .gone (by rw [hmod, hiters, heq]) (by rwa [huses]) fun _ => huses.symm ▸ hlt hw
  | moved hmod hle hlt =>
    have hdle : d.use ≤ p.uses d.slot := by
      cases h with
      | fresh hh _ => exact Nat.le_of_eq hh.2.symm
      | gone _ hle' _ => exact hle'
    exact .gone (hmod.trans hiters.symm) (Nat.le_trans hdle hle) fun hw => Nat.lt_of_le_of_lt hdle (hlt hw)
  | idle hn hn' huses hmod =>
    cases h with
    | fresh hh _ => exact absurd hh.1 hn
    | gone heq hle _ => exact .gone (by rw [hmod, hiters, heq]) (by rwa [huses]) fun hw => absurd hw hn'

/-- The events that are passed over were for slots that were given up since. -/
theorem look_some (hd : ∀ d ∈ s.pending, DueOk s.pool d) {r : Option Due} (h : look s = some (s', r)) :
    ∃ d skipped, r = some d ∧ s.pending = skipped ++ d :: s'.pending ∧ (∀ x ∈ skipped, ¬Held s.pool x) ∧
      Held s.pool d ∧ s' = { s with pending := s'.pending, type := d.type } := by
  rw [look] at h
  have happ := List.takeWhile_append_dropWhile (p := stale s.pool) (l := s.pending)
  have hskip : ∀ x ∈ s.pending.takeWhile (stale s.pool), stale s.pool x = true := fun x hx => List.mem_takeWhile_imp hx
  rcases hdw : s.pending.dropWhile (stale s.pool) with _ | ⟨d, rest⟩
  · rw [hdw] at h
    exact absurd h (by simp)
  · rw [hdw] at h happ
    obtain ⟨rfl, rfl⟩ := Prod.mk.inj (Option.some.inj h)
    have hns : ¬stale s.pool d = true := by
      have hhead := List.head_dropWhile_not (p := stale s.pool) (l := s.pending) (by rw [hdw]; simp)
      simpa [hdw] using hhead
    have hmem : d ∈ s.pending := by
      rw [← happ]
      exact List.mem_append_right _ List.mem_cons_self
    refine ⟨d, _, rfl, happ.symm, fun x hx => ?_, ?_, rfl⟩
    · have hx' : x ∈ s.pending := by
        rw [← happ]
        exact List.mem_append_left _ hx
      exact (hd x hx').stale_iff.mp (hskip x hx)
    · by_contra hnh
      exact hns ((hd d hmem).stale_iff.mpr hnh)

theorem look_none (hd : ∀ d ∈ s.pending, DueOk s.pool d) (h : look s = none) : ∀ x ∈ s.pending, ¬Held s.pool x := by
  rw [look] at h
  rcases hdw : s.pending.dropWhile (stale s.pool) with _ | ⟨d, rest⟩
  · rw [List.dropWhile_eq_nil_iff] at hdw
    exact fun x hx => (hd x hx).stale_iff.mp (hdw x hx)
  · rw [hdw] at h
    exact absurd h (by simp)

/-- What `epoll_wait` reports is about slots in use. -/
def WaitsOk (p : Pool) (ws : List Wait) : Prop := ∀ w ∈ ws,
  match w with
  | .events evs => ∀ e ∈ evs, e.1 ∈ liveSlots p ∧ e.2 ≠ POLLTIMEOUT
  | _ => True

instance (p : Pool) (ws : List Wait) : Decidable (WaitsOk p ws) :=
  have : DecidablePred fun w : Wait => match w with
      | .events evs => ∀ e ∈ evs, e.1 ∈ liveSlots p ∧ e.2 ≠ POLLTIMEOUT
      | _ => True
    | .events evs => inferInstanceAs (Decidable (∀ e ∈ evs, e.1 ∈ liveSlots p ∧ e.2 ≠ POLLTIMEOUT))
    | .timeout => inferInstanceAs (Decidable True)
    | .error => inferInstanceAs (Decidable True)
  inferInstanceAs (Decidable (∀ w ∈ ws, _))

/-- What `next_event` leaves: it waits only, and what is delivered is for a slot that is still held. -/
structure Looked (s s' : State) (r : Option Due) : Prop where
  pool : s'.pool = { s.pool with iters := s'.pool.iters }
  iters : s.pool.iters ≤ s'.pool.iters
  clock : s'.clock = s.clock
  due : ∀ d ∈ s'.pending, DueOk s'.pool d ∧ d.type ≠ POLLTIMEOUT
  held : ∀ d, r = some d → Held s'.pool d ∧ s'.type ≠ POLLTIMEOUT
  lost : ∀ x ∈ s.pending, Held s.pool x → r = some x ∨ x ∈ s'.pending

theorem looked_of_look (hd : ∀ d ∈ s.pending, DueOk s.pool d ∧ d.type ≠ POLLTIMEOUT) {r : Option Due}
    (h : look s = some (s', r)) : Looked s s' r := by
  obtain ⟨d, skipped, rfl, hsplit, hskip, hh, hs'⟩ := look_some (fun x hx => (hd x hx).1) h
  have hpool : s'.pool = s.pool := by rw [hs']
  refine ⟨by rw [hpool], by rw [hpool], by rw [hs'], fun x hx => ?_, fun x hx => ?_, fun x hx hxh => ?_⟩
  · rw [hpool]
    refine hd x ?_
    rw [hsplit]
    exact List.mem_append_right _ (List.mem_cons_of_mem _ hx)
  · obtain rfl := Option.some.inj hx
    rw [hpool, hs']
    refine ⟨hh, (hd d ?_).2⟩
    rw [hsplit]
    exact List.mem_append_right _ List.mem_cons_self
  · rw [hsplit] at hx
    rcases List.mem_append.mp hx with hx | hx
    · exact absurd hxh (hskip x hx)
    · rcases List.mem_cons.mp hx with rfl | hx
      · exact .inl rfl
      · exact .inr hx

theorem nextEvent_looked {ws : List Wait} : ∀ {s : State} {r : Option Due}, Good size s.pool →
    (∀ d ∈ s.pending, DueOk s.pool d ∧ d.type ≠ POLLTIMEOUT) → WaitsOk s.pool ws →
      nextEvent s ws = some (s', r) → Looked s s' r := by
  induction ws with
  | nil => exact fun _ hd _ h => looked_of_look hd h
  | cons w ws ih =>
    intro s r hg hd hw h
    unfold nextEvent at h
    rcases hl : look s with _ | ⟨t, r'⟩
    · rw [hl] at h
      have hnone := look_none (fun x hx => (hd x hx).1) hl
      cases w with
      | timeout =>
        obtain ⟨rfl, rfl⟩ := Prod.mk.inj (Option.some.inj h)
        exact ⟨rfl, Nat.le_refl _, rfl, by simp, by simp, fun x hx hxh => absurd hxh (hnone x hx)⟩
      | error =>
        obtain ⟨rfl, rfl⟩ := Prod.mk.inj (Option.some.inj h)
        exact ⟨rfl, Nat.le_refl _, rfl, by simp, by simp, fun x hx hxh => absurd hxh (hnone x hx)⟩
      | events evs =>
        -- the new batch is about slots that were last changed before it
        have hs := hg.slots
        have hg' : Good size (batch s evs).pool := by
          obtain ⟨l, hl⟩ := hg.timers
          have hb := hg.buffers
          exact ⟨⟨hs.count_le, hs.links_lt, hs.links_inj, hs.index, hs.fd_pos,
            fun v hv => Nat.le_succ_of_le (hs.modIter_le v hv)⟩,
            ⟨l, hl.tv_eq, hl.nodup, hl.live, hl.mem_iff, hl.sorted⟩, ⟨hb.count_eq, hb.count_le, hb.perm⟩⟩
        have hdue : ∀ d ∈ (batch s evs).pending, DueOk (batch s evs).pool d ∧ d.type ≠ POLLTIMEOUT := fun d hdm => by
          obtain ⟨e, he, rfl⟩ := List.mem_map.mp (List.mem_reverse.mp hdm)
          obtain ⟨hlive, htype⟩ := hw (.events evs) List.mem_cons_self e he
          exact ⟨.fresh ⟨hlive, rfl⟩ (Nat.lt_succ_of_le (hs.modIter_le _ hlive)), htype⟩
        obtain ⟨hpool, hiters, hclock, hdue, hheld, -⟩ :=
          ih hg' hdue (fun w hwm => hw w (List.mem_cons_of_mem _ hwm)) h
        exact ⟨hpool, Nat.le_of_succ_le hiters, hclock, hdue, hheld, fun x hx hxh => absurd hxh (hnone x hx)⟩
    · rw [hl] at h
      obtain ⟨rfl, rfl⟩ := Prod.mk.inj (Option.some.inj h)
      exact looked_of_look hd hl

end Events

/-! ### Every state the loop reaches -/

/-- What holds between two turns. -/
structure Inv (size : ℕ) (strict : Prop) (s : State) : Prop where
  good : Good size s.pool
  books : Books [] s.pool
  pairs : Pairs strict s.pool
  due : ∀ d ∈ s.pending, DueOk s.pool d ∧ d.type ≠ POLLTIMEOUT
  clock : 0 ≤ s.clock
  deadline : ∀ v, s.pool.tvMs v < s.clock + 2 ^ 31

/-- What the system does, and what callbacks come to do. -/
def Turn.Ok (size : ℕ) (s : State) (t : Turn) : Prop :=
  s.clock ≤ t.start ∧ t.start ≤ t.stop ∧ WaitsOk s.pool t.waits ∧
    match nextEventTv s t.start t.waits with
    | some (s', some _) => t.CallbackOk size s'.pool
    | _ => True

instance (size : ℕ) (s : State) (t : Turn) : Decidable (t.Ok size s) :=
  have : Decidable (match nextEventTv s t.start t.waits with
      | some (s', some _) => t.CallbackOk size s'.pool
      | _ => True) :=
    match nextEventTv s t.start t.waits with
    | some (s', some _) => inferInstanceAs (Decidable (t.CallbackOk size s'.pool))
    | some (_, none) => inferInstanceAs (Decidable True)
    | none => inferInstanceAs (Decidable True)
  inferInstanceAs (Decidable (_ ∧ _ ∧ _ ∧ _))

/-- The runs in which moreover no call fails that leaves a slot without its pair. -/
def Turn.SteadyOk (size : ℕ) (s : State) (t : Turn) : Prop := t.Ok size s ∧ t.Steady

instance : (op : Op) → Decidable op.Steady
  | .connect _ c => inferInstanceAs (Decidable (c.mod = true))
  | .associate _ c => inferInstanceAs (Decidable (c.name = true))
  | .accept .. | .established .. | .useBuff | .takeBuff .. | .putBuff .. | .takeSqBuff .. | .putSqBuff ..
  | .startTimer .. | .stopTimer .. => inferInstanceAs (Decidable True)

instance (t : Turn) : Decidable t.Steady := inferInstanceAs (Decidable (_ ∧ _))

instance (size : ℕ) (s : State) (t : Turn) : Decidable (t.SteadyOk size s) := inferInstanceAs (Decidable (_ ∧ _))

section Loop

variable {size maxOpen : ℕ} {strict : Prop} {s s' : State} {srvfd clock : ℤ}

theorem Inv.start (hfd : 0 < srvfd) (hc : 0 ≤ clock) : Inv size strict (startEventLoop maxOpen srvfd clock) := by
  have hg : Good size (initPool (maxOpen * 2 + 1)) := .init _ _
  have hD : (0 : ℤ) < clock + 2 ^ 31 := by omega
  have hfresh : Fresh (initPool (maxOpen * 2 + 1)) srvfd := ⟨hfd, by simp [liveFds, liveSlots, initPool]⟩
  have ho := openFd_keeps (D := clock + 2 ^ 31) hg hfresh
  have hp : Pairs strict (openFd (initPool (maxOpen * 2 + 1)) srvfd) := fun v hv => by
    simp [liveSlots, openFd, initPool] at hv
  rcases hadd : addEvent (openFd (initPool (maxOpen * 2 + 1)) srvfd) .onAccept srvfd true with ⟨p, _ | v⟩
  · rw [addEvent_eq, if_neg (by show ¬maxOpen * 2 + 1 ≤ 0; omega), if_pos rfl] at hadd
    exact absurd (Prod.mk.inj hadd).2 (by simp)
  · obtain ⟨hk, hv, hlive, hpair, hcb, hitems⟩ := addEvent_some hD ho.good hfd hadd
    have hpool : (startEventLoop maxOpen srvfd clock).pool = p := by
      show (addEvent _ _ _ _).1 = p
      rw [hadd]
    have hall := ho.trans hk
    refine ⟨hpool ▸ hk.good, hpool ▸ hall.books ⟨.nil, ?_⟩, hpool ▸ hp.add hv hlive hitems hpair fun _ => .inl hcb,
      by simp [startEventLoop], hc, fun w => ?_⟩
    · simp [liveFds, liveSlots, initPool]
    · rw [hpool]
      rcases hall.deadline w with heq | hlt
      · rw [heq]
        exact hD
      · exact hlt

theorem Inv.keeps (h : Inv size strict s) {p : Pool} {stop : ℤ} (hle : s.clock ≤ stop)
    (hk : Keeps size (stop + 2 ^ 31) [] [] s.pool p) (hp : Pairs strict p) :
    Inv size strict { s with pool := p, clock := stop } := by
  refine ⟨hk.good, hk.books h.books, hp, fun d hd => ⟨(h.due d hd).1.keeps hk, (h.due d hd).2⟩,
    Int.le_trans h.clock hle, fun v => ?_⟩
  rcases hk.deadline v with heq | hlt
  · have := h.deadline v
    show p.tvMs v < stop + 2 ^ 31
    omega
  · exact hlt

theorem Inv.looked (h : Inv size strict s) {r : Option Due} (hl : Looked s s' r) : Inv size strict s' := by
  obtain ⟨hpool, hiters, hclock, hdue, hheld, -⟩ := hl
  obtain ⟨hs, ⟨l, htl⟩, hb⟩ := h.good
  have hlive : liveSlots s'.pool = liveSlots s.pool := by
    rw [hpool]
    rfl
  have hitems : s'.pool.items = s.pool.items := by rw [hpool]
  have hfds : liveFds s'.pool = liveFds s.pool := by
    rw [hpool]
    rfl
  refine ⟨⟨⟨?_, ?_, ?_, ?_, ?_, fun v hv => ?_⟩, ⟨l, ?_, htl.nodup, ?_, ?_, ?_⟩, ⟨?_, ?_, ?_⟩⟩, ⟨?_, ?_⟩,
    h.pairs.of_eq hlive fun w _ => by rw [hitems]; exact ⟨rfl, rfl⟩, hdue, hclock ▸ h.clock, ?_⟩
  · rw [hpool]
    exact hs.count_le
  · rw [hpool]
    exact hs.links_lt
  · rw [hpool]
    exact hs.links_inj
  · rw [hpool]
    exact hs.index
  · rw [hlive, hitems]
    exact hs.fd_pos
  · rw [hitems]
    exact Nat.le_trans (hs.modIter_le v (hlive ▸ hv)) hiters
  · rw [hpool]
    exact htl.tv_eq
  · rw [hlive]
    exact htl.live
  · rw [hpool]
    exact htl.mem_iff
  · rw [hpool]
    exact htl.sorted
  · rw [hpool]
    exact hb.count_eq
  · rw [hpool]
    exact hb.count_le
  · rw [hpool]
    exact hb.perm
  · rw [hfds, hpool]
    exact h.books.perm
  · rw [hfds]
    exact h.books.nodup
  · rw [hclock, hpool]
    exact h.deadline

/-- `next_event_tv`: what it waited for, and the timer it takes out if it gives one. -/
theorem nextEventTv_cases (h : Inv size strict s) {now : ℤ} {ws : List Wait} (hw : WaitsOk s.pool ws) {v : Option ℕ}
    (hn : nextEventTv s now ws = some (s', v)) :
    (∃ r, Looked s s' r ∧ v = r.map Due.slot ∧ nextEvent s ws = some (s', r)) ∨
    ∃ t u, v = some u ∧ s.pool.tv.first = some u ∧ s' = { t with pool := removeTimer t.pool u } ∧
      t.type = POLLTIMEOUT ∧ Looked s t none ∧
      (timeLeft s.pool u now ≤ 0 ∨ nextEvent s ws = some (t, none)) := by
  have hlook : ∀ {t : State} {r : Option Due}, nextEvent s ws = some (t, r) → Looked s t r :=
    fun ht => nextEvent_looked h.good h.due hw ht
  rw [nextEventTv] at hn
  rcases hf : s.pool.tv.first with _ | u
  · rw [hf] at hn
    obtain ⟨⟨t, r⟩, ht, heq⟩ := Option.map_eq_some_iff.mp hn
    obtain ⟨rfl, rfl⟩ := Prod.mk.inj heq
    exact .inl ⟨r, hlook ht, rfl, ht⟩
  rw [hf] at hn
  obtain ⟨⟨t, r⟩, ht, heq⟩ := Option.map_eq_some_iff.mp hn
  have hlt : Looked s t r ∧ (timeLeft s.pool u now ≤ 0 ∧ r = none ∨ nextEvent s ws = some (t, r)) := by
    by_cases hpos : 0 < timeLeft s.pool u now
    · rw [if_pos hpos] at ht
      exact ⟨hlook ht, .inr ht⟩
    · rw [if_neg hpos] at ht
      obtain ⟨rfl, rfl⟩ := Prod.mk.inj (Option.some.inj ht)
      exact ⟨⟨rfl, Nat.le_refl _, rfl, h.due, by simp, fun x hx _ => .inr hx⟩, .inl ⟨by omega, rfl⟩⟩
  have hft : t.pool.tv.first = some u := by
    rw [hlt.1.pool]
    exact hf
  dsimp only at heq
  rw [hft] at heq
  cases r with
  | none =>
    dsimp only at heq
    by_cases htype : t.type = POLLTIMEOUT
    · rw [if_pos htype] at heq
      obtain ⟨rfl, rfl⟩ := Prod.mk.inj heq
      exact .inr ⟨t, u, rfl, rfl, rfl, htype, hlt.1, hlt.2.imp And.left id⟩
    · rw [if_neg htype] at heq
      obtain ⟨rfl, rfl⟩ := Prod.mk.inj heq
      rcases hlt.2 with ⟨hle, -⟩ | hne
      · have hneg : ¬0 < timeLeft s.pool u now := by omega
        rw [if_neg hneg] at ht
        exact absurd (Prod.mk.inj (Option.some.inj ht)).1 fun heq => htype (by rw [← heq])
      · exact .inl ⟨none, hlt.1, rfl, hne⟩
  | some d =>
    obtain ⟨rfl, rfl⟩ := Prod.mk.inj heq
    rcases hlt.2 with ⟨-, hd⟩ | hne
    · exact absurd hd (by simp)
    · exact .inl ⟨some d, hlt.1, rfl, hne⟩

theorem nextEventTv_inv (h : Inv size strict s) {now : ℤ} {ws : List Wait} (hw : WaitsOk s.pool ws) {v : Option ℕ}
    (hn : nextEventTv s now ws = some (s', v)) :
    Inv size strict s' ∧ s'.clock = s.clock ∧ ∀ u, v = some u → u ∈ liveSlots s'.pool := by
  rcases nextEventTv_cases h hw hn with ⟨r, hl, rfl, -⟩ | ⟨t, u, rfl, hfirst, rfl, -, hl, -⟩
  · refine ⟨h.looked hl, hl.clock, fun u hu => ?_⟩
    obtain ⟨d, rfl, rfl⟩ := Option.map_eq_some_iff.mp hu
    exact (hl.held d rfl).1.1
  · have ht := h.looked hl
    have hD : (0 : ℤ) < t.clock + 2 ^ 31 := by
      have := ht.clock
      omega
    obtain ⟨ha, hp⟩ := removeTimer_spec (k := []) hD ht.good ht.pairs u
    refine ⟨ht.keeps (Int.le_refl _) ha.toKeeps hp, hl.clock, fun w hw => ?_⟩
    obtain rfl := Option.some.inj hw
    obtain ⟨l, hl'⟩ := h.good.timers
    rw [hl'.tv_eq] at hfirst
    have hlive := hl'.live u (List.mem_of_head? hfirst)
    show u ∈ liveSlots t.pool
    rw [hl.pool]
    exact hlive

theorem turn_inv (h : Inv size strict s) {t : Turn} (hok : t.Ok size s) (hs : strict → t.Steady)
    (ht : turn size s t = some s') : Inv size strict s' := by
  obtain ⟨hstart, hle, hw, hcall⟩ := hok
  obtain ⟨⟨s₁, v⟩, hn, ht⟩ := Option.bind_eq_some_iff.mp ht
  rw [hn] at hcall
  obtain ⟨h₁, hclock, hlive⟩ := nextEventTv_inv h hw hn
  have hstop : s₁.clock ≤ t.stop := by omega
  cases v with
  | none =>
    obtain rfl := Option.some.inj ht
    exact h₁.keeps hstop (.refl h₁.good) h₁.pairs
  | some v =>
    obtain ⟨p, hp, rfl⟩ := Option.map_eq_some_iff.mp ht
    have h0 : 0 ≤ t.start := by
      have := h.clock
      omega
    obtain ⟨hk, hpairs⟩ := callback_spec h₁.good h₁.pairs (hlive v rfl) h0 hle hcall hs hp
    exact h₁.keeps hstop hk hpairs

/-- Without an event `next_event` returns on a timeout or on an error; the error leaves the type as it was. -/
theorem nextEvent_none {ws : List Wait} : ∀ {s : State}, nextEvent s ws = some (s', none) →
    .timeout ∈ ws ∨ .error ∈ ws ∧ s'.type = s.type := by
  have hlook : ∀ {s t : State}, look s ≠ some (t, none) := fun {s t} h => by
    rw [look] at h
    split at h
    · exact absurd (Prod.mk.inj (Option.some.inj h)).2 (by simp)
    · exact absurd h (by simp)
  induction ws with
  | nil => exact fun h => absurd h hlook
  | cons w ws ih =>
    intro s h
    unfold nextEvent at h
    rcases hl : look s with _ | r
    · rw [hl] at h
      cases w with
      | timeout => exact .inl List.mem_cons_self
      | error =>
        obtain ⟨rfl, -⟩ := Prod.mk.inj (Option.some.inj h)
        exact .inr ⟨List.mem_cons_self, rfl⟩
      | events evs =>
        rcases ih (s := batch s evs) h with hto | ⟨herr, heq⟩
        · exact .inl (List.mem_cons_of_mem _ hto)
        · exact .inr ⟨List.mem_cons_of_mem _ herr, heq⟩
    · rw [hl] at h
      exact absurd (hl.trans h) hlook

/-- The invariant holds in every state the loop reaches. -/
theorem inv_of_reachable (hfd : 0 < srvfd) (hc : 0 ≤ clock)
    (h : Reachable (turn size) (startEventLoop maxOpen srvfd clock) (Turn.Ok size) s) : Inv size False s :=
  h.invariant (.start hfd hc) fun _ _ _ _ hi hok ht => turn_inv hi hok False.elim ht

theorem inv_of_steady (hfd : 0 < srvfd) (hc : 0 ≤ clock)
    (h : Reachable (turn size) (startEventLoop maxOpen srvfd clock) (Turn.SteadyOk size) s) : Inv size True s :=
  h.invariant (.start hfd hc) fun _ _ _ _ hi hok ht => turn_inv hi hok.1 (fun _ => hok.2) ht

theorem destroyFrom_spec : ∀ {n : ℕ} {p : Pool}, Good size p → Pairs strict p → Books [] p → p.count ≤ n →
    (destroyPool.destroyFrom n p).count = 0 ∧ p.opened.Perm (destroyPool.destroyFrom n p).closed := by
  intro n
  induction n with
  | zero =>
    intro p _ _ hb hn
    have hz : p.count = 0 := Nat.le_zero.mp hn
    have hperm := hb.perm
    rw [liveFds, liveSlots, hz] at hperm
    exact ⟨hz, by simpa [destroyPool.destroyFrom] using hperm⟩
  | succ n ih =>
    intro p hg hp hb hn
    rw [destroyPool.destroyFrom]
    by_cases hz : p.count = 0
    · have hperm := hb.perm
      rw [liveFds, liveSlots, hz] at hperm
      rw [if_pos hz]
      exact ⟨hz, by simpa using hperm⟩
    · rw [if_neg hz]
      have hv : p.links 0 ∈ liveSlots p := mem_liveSlots.mpr ⟨0, by omega, rfl⟩
      obtain ⟨g, hgr, hgl⟩ := (hp _ hv).group hv
      have hd := delEvent_spec hg hgr hgl
      have hk := delEvent_keeps (D := 1) (k := []) (by decide) hg hgr hgl
      have hlen := hd.live.length_eq
      rw [liveSlots, liveSlots, List.length_append, List.length_cons, List.length_map, List.length_range,
        List.length_map, List.length_range] at hlen
      obtain ⟨hcount, hclosed⟩ := ih hk.good (hp.delEvent hg hv).1 (hk.books hb) (by omega)
      exact ⟨hcount, hd.frame.2.2.2 ▸ hclosed⟩

/-- A client comes, asks for a connection, is connected, and runs into its timer, set with `await_int` 0. -/
def sampleTurns : List Turn :=
  [⟨0, 0, [.events [(0, 1)]], [.accept 4 true true], none, false⟩,
    ⟨0, 0, [.events [(1, 1)]], [.useBuff, .connect 1 ⟨some 5, true, true, true⟩], none, false⟩,
    ⟨0, 1, [.events [(2, 4), (1, 1)]], [], none, false⟩,
    ⟨1, 2, [], [.established 2, .takeBuff 1, .startTimer 2 2 0], none, false⟩,
    ⟨9, 9, [], [.stopTimer 2], none, true⟩]

/-- A list of turns that can be executed leads to a reachable state. -/
theorem reachable_sample {β : Type} (guard : State → Turn → Prop) [∀ s t, Decidable (guard s t)] (ts : List Turn)
    (f : State → β) (b : β)
    (h : (Transition.run (turn 16) (fun s t => decide (guard s t)) (startEventLoop 1 3 0) ts).map f = some b) :
    ∃ s, Reachable (turn 16) (startEventLoop 1 3 0) guard s ∧ f s = b := reachable_of_guarded_run h

/-- **Every descriptor is closed exactly once.** What was opened is closed or in the pool, and no two slots in
use have the same; `destroy_pool` closes the rest. -/
theorem loop_fds (hfd : 0 < srvfd) (hc : 0 ≤ clock)
    (h : Reachable (turn size) (startEventLoop maxOpen srvfd clock) (Turn.Ok size) s) :
    s.pool.opened.Perm (s.pool.closed ++ liveFds s.pool) ∧ (liveFds s.pool).Nodup ∧
      (destroyPool s.pool).count = 0 ∧ s.pool.opened.Perm (destroyPool s.pool).closed := by
  have hi := inv_of_reachable hfd hc h
  have hperm := hi.books.perm
  have hnd := hi.books.nodup
  rw [List.append_nil] at hperm hnd
  exact ⟨hperm, hnd, destroyFrom_spec hi.good hi.pairs hi.books (Nat.le_refl _)⟩

theorem loop_fds_sample : ∃ s : State, s.pool.closed = [5, 4] ∧ (destroyPool s.pool).count = 0 ∧
    s.pool.opened.Perm (destroyPool s.pool).closed := by
  obtain ⟨s, hs, hf⟩ := reachable_sample (Turn.Ok 16) sampleTurns (fun s => s.pool.closed) [5, 4] (by decide)
  have h := loop_fds (by decide) (by decide) hs
  exact ⟨s, hf, h.2.2⟩

/-- **A callback finds the slots it goes to**, and to close a connection takes the whole of it and nothing else. -/
theorem loop_pairs (hfd : 0 < srvfd) (hc : 0 ≤ clock)
    (h : Reachable (turn size) (startEventLoop maxOpen srvfd clock) (Turn.SteadyOk size) s) {v : ℕ}
    (hv : v ∈ liveSlots s.pool) :
    ((s.pool.items v).cb = .onConnect ∨ (s.pool.items v).cb = .onTunnel →
      ∃ w ∈ liveSlots s.pool, w ≠ v ∧ (s.pool.items v).pair = some w ∧ (s.pool.items w).pair = some v) ∧
    ((s.pool.items v).cb = .onUdpTunnel → ∃ w ∈ liveSlots s.pool, ∃ u ∈ liveSlots s.pool, v ≠ w ∧ v ≠ u ∧ w ≠ u ∧
      (s.pool.items v).pair = some w ∧ (s.pool.items w).pair = some u ∧ (s.pool.items u).pair = some v) ∧
    ∃ g, Group s.pool (v :: g) ∧ Drops size (v :: g) (v :: g) s.pool (delEvent s.pool v) := by
  have hi := inv_of_steady hfd hc h
  obtain ⟨g, hgr, hgl⟩ := (hi.pairs v hv).group hv
  refine ⟨fun hcb => ?_, fun hcb => ?_, g, hgr, delEvent_spec hi.good hgr hgl⟩
  · cases hi.pairs v hv with
    | alone _ hreq =>
      rcases hreq trivial with hreq | hreq <;> rw [hreq] at hcb <;> simp at hcb
    | tunnel w hw hvw hpair hback => exact ⟨w, hw, Ne.symm hvw, hpair, hback⟩
    | ring w u _ _ _ _ _ _ _ _ hring => rcases hcb with hcb | hcb <;> rw [hcb] at hring <;> simp at hring
  · cases hi.pairs v hv with
    | alone _ hreq =>
      rcases hreq trivial with hreq | hreq <;> rw [hreq] at hcb <;> simp at hcb
    | tunnel w _ _ _ _ hends => rw [hcb] at hends; simp [Ends] at hends
    | ring w u hw hu hvw hvu hwu hpair hnext hback => exact ⟨w, hw, u, hu, hvw, hvu, hwu, hpair, hnext, hback⟩

theorem loop_pairs_sample : ∃ s : State, liveSlots s.pool = [0, 1, 2] ∧
    ∃ w ∈ liveSlots s.pool, w ≠ 2 ∧ (s.pool.items 2).pair = some w ∧ (s.pool.items w).pair = some 2 := by
  obtain ⟨s, hs, hf⟩ := reachable_sample (Turn.SteadyOk 16) (sampleTurns.take 4)
    (fun s => (liveSlots s.pool, (s.pool.items 2).cb)) ([0, 1, 2], .onTunnel) (by decide)
  obtain ⟨hlive, hcb⟩ := Prod.mk.inj hf
  have h := loop_pairs (by decide) (by decide) hs (v := 2) (hlive ▸ by decide)
  exact ⟨s, hlive, h.1 (.inr hcb)⟩

/-- **Events reach the connection they were reported for.** One that is delivered is for a slot that was neither
given up nor given out anew since `epoll_wait` returned, and one for such a slot is not lost. -/
theorem loop_events (hfd : 0 < srvfd) (hc : 0 ≤ clock)
    (h : Reachable (turn size) (startEventLoop maxOpen srvfd clock) (Turn.Ok size) s) {ws : List Wait}
    (hw : WaitsOk s.pool ws) {r : Option Due} (hn : nextEvent s ws = some (s', r)) :
    (∀ d, r = some d → Held s'.pool d) ∧ ∀ d ∈ s.pending, Held s.pool d → r = some d ∨ d ∈ s'.pending := by
  have hi := inv_of_reachable hfd hc h
  have hl := nextEvent_looked hi.good hi.due hw hn
  exact ⟨fun d hd => (hl.held d hd).1, hl.lost⟩

theorem loop_events_sample : ∃ s s' : State, ∃ d : Due, nextEvent s [] = some (s', some d) ∧ d.slot = 2 ∧
    Held s'.pool d := by
  obtain ⟨s, hs, hf⟩ := reachable_sample (Turn.Ok 16) (sampleTurns.take 3) (fun s => (nextEvent s []).map Prod.snd)
    (some (some ⟨2, 4, 1⟩)) (by decide)
  obtain ⟨⟨s', r⟩, hn, rfl⟩ := Option.map_eq_some_iff.mp hf
  have hw : WaitsOk s.pool [] := by simp [WaitsOk]
  have h := loop_events (by decide) (by decide) hs hw hn
  exact ⟨s, s', _, hn, rfl, h.1 _ rfl⟩

/-- **Timers run out in the order of their deadlines**: the list is that of the slots with a deadline, sorted, and
its first is given out when its deadline has passed or `epoll_wait` has timed out. It is given out early when
`epoll_wait` fails and what came last was a timeout. -/
theorem loop_timers (hfd : 0 < srvfd) (hc : 0 ≤ clock)
    (h : Reachable (turn size) (startEventLoop maxOpen srvfd clock) (Turn.Ok size) s) : ∃ l, Timers s.pool l ∧
      ∀ {s' : State} {now : ℤ} {ws : List Wait} {v : ℕ}, s.clock ≤ now → WaitsOk s.pool ws →
        nextEventTv s now ws = some (s', some v) → s'.type = POLLTIMEOUT →
          ∃ rest, l = v :: rest ∧ Timers s'.pool rest ∧ (∀ w ∈ rest, s.pool.tvMs v ≤ s.pool.tvMs w) ∧
            (s.pool.tvMs v ≤ now ∨ .timeout ∈ ws ∨ .error ∈ ws ∧ s.type = POLLTIMEOUT) := by
  have hi := inv_of_reachable hfd hc h
  obtain ⟨l, hl⟩ := hi.good.timers
  refine ⟨l, hl, fun {s' now ws v} hnow hw hn htype => ?_⟩
  rcases nextEventTv_cases hi hw hn with ⟨r, hlk, hr, -⟩ | ⟨t, u, hu, hfirst, rfl, htt, hlk, hcause⟩
  · -- an event has another type
    obtain ⟨d, rfl, -⟩ := Option.map_eq_some_iff.mp hr.symm
    exact absurd htype (hlk.held d rfl).2
  obtain rfl := Option.some.inj hu
  rw [hl.tv_eq] at hfirst
  obtain ⟨rest, rfl⟩ : ∃ rest, l = v :: rest := by
    cases l with
    | nil => exact absurd hfirst (by simp [ofList])
    | cons a rest => exact ⟨rest, by rw [Option.some.inj hfirst]⟩
  have ht : Timers t.pool (v :: rest) := by
    rw [hlk.pool]
    exact ⟨hl.tv_eq, hl.nodup, hl.live, hl.mem_iff, hl.sorted⟩
  have hrem := ht.removeTimer v
  rw [List.erase_cons_head] at hrem
  refine ⟨rest, rfl, hrem, (List.pairwise_cons.mp hl.sorted).1, ?_⟩
  rcases hcause with hle | hne
  · left
    have hlt := hi.deadline v
    rw [timeLeft, Int.bmod] at hle
    by_contra hgt
    omega
  · right
    rcases nextEvent_none hne with hto | ⟨herr, heq⟩
    · exact .inl hto
    · exact .inr ⟨herr, heq ▸ htt⟩

theorem loop_timers_sample : ∃ s s' : State, ∃ rest, s.pool.tvMs 2 = 2 ∧ Timers s.pool (2 :: rest) ∧
    Timers s'.pool rest := by
  obtain ⟨s, hs, hf⟩ := reachable_sample (Turn.Ok 16) (sampleTurns.take 4)
    (fun s => (s.pool.tvMs 2, s.clock, (nextEventTv s 9 []).map fun r => (r.2, r.1.type)))
    (2, 2, some (some 2, 0)) (by decide)
  obtain ⟨hms, hrest⟩ := Prod.mk.inj hf
  obtain ⟨hclock, hn⟩ := Prod.mk.inj hrest
  obtain ⟨⟨s', v⟩, hn, heq⟩ := Option.map_eq_some_iff.mp hn
  obtain ⟨rfl, htype⟩ := Prod.mk.inj heq
  obtain ⟨l, hl, h⟩ := loop_timers (by decide) (by decide) hs
  obtain ⟨rest, rfl, hr, -⟩ := h (hclock ▸ by decide) (by simp [WaitsOk]) hn htype
  exact ⟨s, s', rest, hms, hl, hr⟩

/-- **Buffers are kept, up to eight, and given back beyond that**: each allocated one is kept, given back or with
one slot in use. -/
theorem loop_buffers (hfd : 0 < srvfd) (hc : 0 ≤ clock)
    (h : Reachable (turn size) (startEventLoop maxOpen srvfd clock) (Turn.Ok size) s) :
    s.pool.buffCount = s.pool.rootBuff.length ∧ s.pool.buffCount ≤ MAX_BUFF_INP ∧
      (s.pool.rootBuff ++ s.pool.freed ++ held s.pool).Perm ((List.range s.pool.mallocs).map fun i => ⟨i, size⟩) ∧
      s.pool.mallocs ≤ s.pool.freed.length + MAX_BUFF_INP + 2 * s.pool.count := by
  have hb := (inv_of_reachable hfd hc h).good.buffers
  refine ⟨hb.count_eq, hb.count_le, hb.perm, ?_⟩
  have hlen := hb.perm.length_eq
  have hheld : (held s.pool).length ≤ 2 * s.pool.count := by
    have htwo : ∀ l : List ℕ, (l.flatMap fun v =>
        (s.pool.items v).buff.toList ++ (s.pool.items v).sqBuff.toList).length ≤ 2 * l.length := fun l => by
      induction l with
      | nil => simp
      | cons v l ih =>
        have hone : ∀ b : Option Buffer, b.toList.length ≤ 1 := fun b => by cases b <;> simp
        have h₁ := hone (s.pool.items v).buff
        have h₂ := hone (s.pool.items v).sqBuff
        rw [List.flatMap_cons, List.length_append, List.length_append, List.length_cons]
        omega
    have := htwo (liveSlots s.pool)
    rwa [liveSlots, List.length_map, List.length_range] at this
  have hle := hb.count_le
  rw [hb.count_eq] at hle
  rw [List.length_append, List.length_append, List.length_map, List.length_range] at hlen
  omega

theorem loop_buffers_sample : ∃ s : State, s.pool.mallocs = 1 ∧
    s.pool.mallocs ≤ s.pool.freed.length + MAX_BUFF_INP + 2 * s.pool.count := by
  obtain ⟨s, hs, hf⟩ := reachable_sample (Turn.Ok 16) sampleTurns (fun s => s.pool.mallocs) 1 (by decide)
  have h := loop_buffers (by decide) (by decide) hs
  exact ⟨s, hf, h.2.2.2⟩

end Loop

end BypassVpn.Ciadpi.Proxy
