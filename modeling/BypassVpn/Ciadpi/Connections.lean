import Mathlib.Algebra.Group.Nat.Defs
import Mathlib.Algebra.Group.Int.Defs
import BypassVpn.Ciadpi.Conev

/-!
# `proxy.c`: connections in the pool

What the callbacks do to the pool. How the calls to the system turn out is part of what they are given.

* `onAccept`, `createConn`, `udpAssociate`, `onConnect`, `reconnect`; `Op`, `act`: the steps of callbacks.
* `Keeps`: the slots are in order, the descriptors accounted for, and each slot has one `Fate`.
* `Paired`: a slot is alone, an end of a tunnel, or in a ring of three.
* **`act_spec`**, **`reconnect_spec`**: every step keeps all that.
-/

namespace BypassVpn.Ciadpi.Proxy

open Conev DoublyLinked

/-! ### The callbacks -/

/-- The process opens `fd`. -/
def openFd (p : Pool) (fd : ℤ) : Pool := { p with opened := p.opened ++ [fd] }

/-- `close(fd)`. -/
def closeFd (p : Pool) (fd : ℤ) : Pool := { p with closed := p.closed ++ [fd] }

/-- An assignment to fields of `*val`. -/
def assign (p : Pool) (v : ℕ) (f : Eval → Eval) : Pool :=
  { p with items := Function.update p.items v (f (p.items v)) }

/-- `val->cb = cb`. -/
def setCb (p : Pool) (v : ℕ) (cb : Evcb) : Pool := assign p v fun e => { e with cb := cb }

/-- `val->buff = b`. -/
def setBuff (p : Pool) (v : ℕ) (b : Option Buffer) : Pool := assign p v fun e => { e with buff := b }

/-- `val->sq_buff = b`. -/
def setSqBuff (p : Pool) (v : ℕ) (b : Option Buffer) : Pool := assign p v fun e => { e with sqBuff := b }

/-- One turn of `on_accept`; `opt` says whether `setsockopt` succeeds. -/
def onAccept (p : Pool) (c : ℤ) (opt ctl : Bool) : Pool :=
  let p := openFd p c
  if !opt then closeFd p c
  else match addEvent p .onRequest c ctl with
    | (p, none) => closeFd p c
    | (p, some _) => p

/-- How the calls of `create_conn` turn out: `remote_sock`, all up to `connect`, and `epoll_ctl` twice. -/
structure ConnCalls where
  sfd : Option ℤ
  conn : Bool
  ctl : Bool
  mod : Bool

/-- `create_conn`; whether it returns 0. -/
def createConn (p : Pool) (v : ℕ) (c : ConnCalls) : Pool × Bool :=
  match c.sfd with
  | none => (p, false)
  | some sfd =>
    let p := openFd p sfd
    if !c.conn then (closeFd p sfd, false)
    else match addEvent p .onConnect sfd c.ctl with
      | (p, none) => (closeFd p sfd, false)
      | (p, some pair) =>
        if !c.mod then (p, false)
        else (setCb (setPair (setPair p v (some pair)) pair (some v)) v .onIgnore, true)

/-- How the calls of `udp_associate` turn out; `reply` stands for those after the pairing. -/
structure UdpCalls where
  ufd : Option ℤ
  ctlPair : Bool
  name : Bool
  cfd : Option ℤ
  bind : Bool
  ctlClient : Bool
  reply : Bool

/-- `udp_associate`; whether it returns 0. -/
def udpAssociate (p : Pool) (v : ℕ) (c : UdpCalls) : Pool × Bool :=
  match c.ufd with
  | none => (p, false)
  | some ufd =>
    match addEvent (openFd p ufd) .onUdpTunnel ufd c.ctlPair with
    | (p, none) => (closeFd p ufd, false)
    | (p, some pair) =>
      if !c.name then (p, false)
      else match c.cfd with
        | none => (delEvent p pair, false)
        | some cfd =>
          let p := openFd p cfd
          if !c.bind then (closeFd (delEvent p pair) cfd, false)
          else match addEvent p .onUdpTunnel cfd c.ctlClient with
            | (p, none) => (closeFd (delEvent p pair) cfd, false)
            | (p, some client) =>
              (setPair (setPair (setPair (setCb p v .onIgnore) v (some client)) client (some pair)) pair (some v),
                c.reply)

/-- `on_connect` once `mod_etype` has succeeded; without a pair it would not survive. -/
def onConnect (p : Pool) (v : ℕ) : Option Pool :=
  (p.items v).pair.map fun pair => setCb (setCb p v .onTunnel) pair .onTunnel

/-- `reconnect`: the client of `v` gets a new server. -/
def reconnect (p : Pool) (v : ℕ) (c : ConnCalls) : Option (Pool × Bool) :=
  (p.items v).pair.map fun client =>
    let p := match (p.items client).sqBuff with
      | some sq =>
        if (p.items client).buff = none then
          let (p, b) := buffPop p sq.size
          setBuff p client (some b)
        else p
      | none => p
    match createConn p client c with
    | (p, false) => (p, false)
    | (p, true) => (delEvent (setPair p v none) v, true)

/-- What a callback does. -/
inductive Op
  | accept (c : ℤ) (opt ctl : Bool)
  | connect (v : ℕ) (c : ConnCalls)
  | associate (v : ℕ) (c : UdpCalls)
  | established (v : ℕ)
  | useBuff
  | takeBuff (v : ℕ)
  | putBuff (v : ℕ)
  | takeSqBuff (v : ℕ)
  | putSqBuff (v : ℕ)
  | startTimer (v : ℕ) (now ms : ℤ)
  | stopTimer (v : ℕ)

/-- A descriptor that the system hands out: positive, and not open. -/
def Fresh (p : Pool) (fd : ℤ) : Prop := 0 < fd ∧ fd ∉ liveFds p

instance (p : Pool) (fd : ℤ) : Decidable (Fresh p fd) := inferInstanceAs (Decidable (_ ∧ _))

/-- The descriptor that `socket` gives is new. -/
def ConnCalls.Fresh (c : ConnCalls) (p : Pool) : Prop := ∀ fd ∈ c.sfd, Proxy.Fresh p fd

instance (c : ConnCalls) (p : Pool) : Decidable (c.Fresh p) := inferInstanceAs (Decidable (∀ fd ∈ c.sfd, _))

/-- The descriptors that `socket` gives are new and differ. -/
def UdpCalls.Fresh (c : UdpCalls) (p : Pool) : Prop :=
  (∀ fd ∈ c.ufd, Proxy.Fresh p fd) ∧ ∀ fd ∈ c.cfd, Proxy.Fresh p fd ∧ c.ufd ≠ some fd

instance (c : UdpCalls) (p : Pool) : Decidable (c.Fresh p) :=
  inferInstanceAs (Decidable ((∀ fd ∈ c.ufd, _) ∧ ∀ fd ∈ c.cfd, _))

/-- When a callback comes to do this: which slots it has, what the system hands it, and when in its turn. A timer
may run out at once, but not at 0, which stands for no deadline. -/
def Op.Ok (p : Pool) (start stop : ℤ) : Op → Prop
  | .accept c _ _ => Fresh p c
  | .connect v c => v ∈ liveSlots p ∧ (p.items v).cb = .onRequest ∧ c.Fresh p
  | .associate v c => v ∈ liveSlots p ∧ (p.items v).cb = .onRequest ∧ c.Fresh p
  | .established v => v ∈ liveSlots p ∧ (p.items v).cb = .onConnect
  | .useBuff => True
  | .takeBuff v => v ∈ liveSlots p ∧ (p.items v).buff = none
  | .putBuff v => v ∈ liveSlots p
  | .takeSqBuff v => v ∈ liveSlots p ∧ (p.items v).sqBuff = none
  | .putSqBuff v => v ∈ liveSlots p
  | .startTimer v now ms => v ∈ liveSlots p ∧ start ≤ now ∧ now ≤ stop ∧ 0 ≤ ms ∧ ms < 2 ^ 31 ∧ 0 < now + ms
  | .stopTimer v => v ∈ liveSlots p

instance (p : Pool) (start stop : ℤ) : (op : Op) → Decidable (op.Ok p start stop)
  | .accept c _ _ => inferInstanceAs (Decidable (Fresh p c))
  | .connect v c => inferInstanceAs (Decidable (v ∈ liveSlots p ∧ (p.items v).cb = .onRequest ∧ c.Fresh p))
  | .associate v c => inferInstanceAs (Decidable (v ∈ liveSlots p ∧ (p.items v).cb = .onRequest ∧ c.Fresh p))
  | .established v => inferInstanceAs (Decidable (v ∈ liveSlots p ∧ (p.items v).cb = .onConnect))
  | .useBuff => inferInstanceAs (Decidable True)
  | .takeBuff v => inferInstanceAs (Decidable (v ∈ liveSlots p ∧ (p.items v).buff = none))
  | .putBuff v => inferInstanceAs (Decidable (v ∈ liveSlots p))
  | .takeSqBuff v => inferInstanceAs (Decidable (v ∈ liveSlots p ∧ (p.items v).sqBuff = none))
  | .putSqBuff v => inferInstanceAs (Decidable (v ∈ liveSlots p))
  | .startTimer v now ms =>
    inferInstanceAs (Decidable (v ∈ liveSlots p ∧ start ≤ now ∧ now ≤ stop ∧ 0 ≤ ms ∧ ms < 2 ^ 31 ∧ 0 < now + ms))
  | .stopTimer v => inferInstanceAs (Decidable (v ∈ liveSlots p))

/-- What it does. -/
def act (size : ℕ) (p : Pool) : Op → Option Pool
  | .accept c opt ctl => some (onAccept p c opt ctl)
  | .connect v c => some (createConn p v c).1
  | .associate v c => some (udpAssociate p v c).1
  | .established v => onConnect p v
  | .useBuff => some (buffPpop p size).1
  | .takeBuff v =>
    let (p, b) := buffPop p size
    some (setBuff p v (some b))
  | .putBuff v => some (setBuff (buffPush p (p.items v).buff) v none)
  | .takeSqBuff v =>
    let (p, b) := buffPop p size
    some (setSqBuff p v (some b))
  | .putSqBuff v => some (setSqBuff (buffPush p (p.items v).sqBuff) v none)
  | .startTimer v now ms => some (setTimer p v now ms)
  | .stopTimer v => some (removeTimer p v)

/-- The callback's work, in order. -/
def acts (size : ℕ) (p : Pool) (ops : List Op) : Option Pool := ops.foldlM (act size) p

/-- Each operation is allowed where it comes in the turn. -/
def ActsOk (size : ℕ) (start stop : ℤ) : Pool → List Op → Prop
  | _, [] => True
  | p, op :: ops => op.Ok p start stop ∧
    match act size p op with
    | some q => ActsOk size start stop q ops
    | none => True

instance decidableActsOk (size : ℕ) (start stop : ℤ) : (p : Pool) → (ops : List Op) →
    Decidable (ActsOk size start stop p ops)
  | _, [] => inferInstanceAs (Decidable True)
  | p, op :: ops =>
    have : Decidable (match act size p op with | some q => ActsOk size start stop q ops | none => True) :=
      match act size p op with
      | some q => decidableActsOk size start stop q ops
      | none => inferInstanceAs (Decidable True)
    inferInstanceAs (Decidable (op.Ok p start stop ∧ _))

/-! ### What a callback keeps -/

/-- The descriptors opened so far are closed, or in the pool, or in `k`; none is open twice. -/
structure Books (k : List ℤ) (p : Pool) : Prop where
  perm : p.opened.Perm (p.closed ++ (liveFds p ++ k))
  nodup : (liveFds p ++ k).Nodup

/-- What becomes of a slot while the pool looks at one batch of events: it stays in use, it is given up or given
out anew, or it stays out of use. -/
inductive Fate (p p' : Pool) (w : ℕ) : Prop
  | kept : w ∈ liveSlots p → w ∈ liveSlots p' → p'.uses w = p.uses w →
      (p'.items w).modIter = (p.items w).modIter → Fate p p' w
  | moved : (p'.items w).modIter = p.iters → p.uses w ≤ p'.uses w →
      (w ∈ liveSlots p' → p.uses w < p'.uses w) → Fate p p' w
  | idle : w ∉ liveSlots p → w ∉ liveSlots p' → p'.uses w = p.uses w →
      (p'.items w).modIter = (p.items w).modIter → Fate p p' w

/-- What a step of a callback keeps; the deadlines it sets are before `D`. -/
structure Keeps (size : ℕ) (D : ℤ) (k k' : List ℤ) (p p' : Pool) : Prop where
  good : Good size p'
  books : Books k p → Books k' p'
  iters : p'.iters = p.iters
  fate : ∀ w, Fate p p' w
  deadline : ∀ w, p'.tvMs w = p.tvMs w ∨ p'.tvMs w < D

section Keeps

variable {p p' p'' : Pool} {size : ℕ} {D : ℤ} {k k' k'' : List ℤ} {v w : ℕ} {cb : Evcb} {fd : ℤ}

theorem Fate.of_eq (hlive : w ∈ liveSlots p' ↔ w ∈ liveSlots p) (huses : p'.uses w = p.uses w)
    (hmod : (p'.items w).modIter = (p.items w).modIter) : Fate p p' w := by
  by_cases hw : w ∈ liveSlots p
  · exact .kept hw (hlive.mpr hw) huses hmod
  · exact .idle hw (fun hw' => hw (hlive.mp hw')) huses hmod

theorem Fate.trans (hiters : p'.iters = p.iters) (h : Fate p p' w) (h' : Fate p' p'' w) : Fate p p'' w := by
  cases h with
  | kept hw hw' huses hmod =>
    cases h' with
    | kept _ hw'' huses' hmod' => exact .kept hw hw'' (huses'.trans huses) (hmod'.trans hmod)
    | moved hmod' hle hlt => exact .moved (hmod'.trans hiters) (huses ▸ hle) (huses ▸ hlt)
    | idle hn => exact absurd hw' hn
  | moved hmod hle hlt =>
    cases h' with
    | kept hw' _ huses' hmod' => exact .moved (hmod'.trans hmod) (huses' ▸ hle) fun _ => huses' ▸ hlt hw'
    | moved hmod' hle' hlt' =>
      exact .moved (hmod'.trans hiters) (Nat.le_trans hle hle') fun hw => Nat.lt_of_le_of_lt hle (hlt' hw)
    | idle _ hn huses' hmod' => exact .moved (hmod'.trans hmod) (huses' ▸ hle) fun hw => absurd hw hn
  | idle hn hn' huses hmod =>
    cases h' with
    | kept hw' => exact absurd hw' hn'
    | moved hmod' hle hlt => exact .moved (hmod'.trans hiters) (huses ▸ hle) (huses ▸ hlt)
    | idle _ hn'' huses' hmod' => exact .idle hn hn'' (huses'.trans huses) (hmod'.trans hmod)

theorem Keeps.refl (h : Good size p) : Keeps size D k k p p :=
  ⟨h, id, rfl, fun _ => .of_eq .rfl rfl rfl, fun _ => .inl rfl⟩

theorem Keeps.trans (h : Keeps size D k k' p p') (h' : Keeps size D k' k'' p' p'') : Keeps size D k k'' p p'' := by
  refine ⟨h'.good, fun hb => h'.books (h.books hb), h'.iters.trans h.iters, fun w => (h.fate w).trans h.iters (h'.fate w),
    fun w => ?_⟩
  rcases h'.deadline w with heq | hlt
  · rw [heq]
    exact h.deadline w
  · exact .inr hlt

/-- A step that leaves the slots, their descriptors and the books alone. -/
theorem Keeps.of_eq (hg : Good size p') (hlive : liveSlots p' = liveSlots p)
    (hitems : ∀ w, (p'.items w).fd = (p.items w).fd ∧ (p'.items w).modIter = (p.items w).modIter)
    (hframe : p'.opened = p.opened ∧ p'.closed = p.closed ∧ p'.iters = p.iters ∧ p'.uses = p.uses)
    (htv : ∀ w, p'.tvMs w = p.tvMs w ∨ p'.tvMs w < D) : Keeps size D k k p p' := by
  obtain ⟨hopened, hclosed, hiters, huses⟩ := hframe
  have hfds : liveFds p' = liveFds p := by
    rw [liveFds, hlive]
    exact List.map_congr_left fun w _ => (hitems w).1
  refine ⟨hg, fun hb => ⟨?_, ?_⟩, hiters, fun w => .of_eq (by rw [hlive]) (by rw [huses]) (hitems w).2, htv⟩
  · rw [hopened, hclosed, hfds]
    exact hb.perm
  · rw [hfds]
    exact hb.nodup

theorem relinked_keeps (h : Relinked p p') (hg : Good size p) : Keeps size D k k p p' := by
  refine .of_eq (h.good hg) h.liveSlots (fun w => ?_) ?_ fun w => .inl ?_
  · rw [h.items w]
    exact ⟨rfl, rfl⟩
  · rw [h.pool]
    exact ⟨rfl, rfl, rfl, rfl⟩
  · rw [h.pool]

theorem openFd_keeps (hg : Good size p) (hf : Fresh p fd) : Keeps size D [] [fd] p (openFd p fd) := by
  refine ⟨⟨⟨hg.slots.count_le, hg.slots.links_lt, hg.slots.links_inj, hg.slots.index, hg.slots.fd_pos,
    hg.slots.modIter_le⟩, ?_, ⟨hg.buffers.count_eq, hg.buffers.count_le, hg.buffers.perm⟩⟩, fun hb => ⟨?_, ?_⟩, rfl,
    fun w => .of_eq .rfl rfl rfl, fun w => .inl rfl⟩
  · obtain ⟨l, hl⟩ := hg.timers
    exact ⟨l, hl.tv_eq, hl.nodup, hl.live, hl.mem_iff, hl.sorted⟩
  · show (p.opened ++ [fd]).Perm (p.closed ++ (liveFds p ++ [fd]))
    rw [← List.append_assoc]
    have hperm := hb.perm
    rw [List.append_nil] at hperm
    exact hperm.append_right [fd]
  · have hnd := hb.nodup
    rw [List.append_nil] at hnd
    exact List.nodup_append.mpr ⟨hnd, List.nodup_singleton fd, fun x hx y hy hxy =>
      hf.2 (List.mem_singleton.mp hy ▸ hxy ▸ hx)⟩

theorem closeFd_keeps (hg : Good size p) : Keeps size D [fd] [] p (closeFd p fd) := by
  refine ⟨⟨⟨hg.slots.count_le, hg.slots.links_lt, hg.slots.links_inj, hg.slots.index, hg.slots.fd_pos,
    hg.slots.modIter_le⟩, ?_, ⟨hg.buffers.count_eq, hg.buffers.count_le, hg.buffers.perm⟩⟩, fun hb => ⟨?_, ?_⟩, rfl,
    fun w => .of_eq .rfl rfl rfl, fun w => .inl rfl⟩
  · obtain ⟨l, hl⟩ := hg.timers
    exact ⟨l, hl.tv_eq, hl.nodup, hl.live, hl.mem_iff, hl.sorted⟩
  · show p.opened.Perm (p.closed ++ [fd] ++ (liveFds p ++ []))
    refine hb.perm.trans ?_
    rw [List.append_nil, List.append_assoc]
    exact List.perm_append_comm.append_left _
  · show (liveFds p ++ []).Nodup
    rw [List.append_nil]
    exact (List.nodup_append.mp hb.nodup).1

theorem delEvent_keeps (hD : 0 < D) (hg : Good size p) {g : List ℕ} (hgr : Group p (v :: g))
    (hl : ∀ w ∈ v :: g, w ∈ liveSlots p) : Keeps size D k k p (delEvent p v) := by
  have hd := delEvent_spec hg hgr hl
  obtain ⟨-, hiters, huses, hopened⟩ := hd.frame
  have hfds : (((v :: g).map fun w => (p.items w).fd) ++ liveFds (delEvent p v)).Perm (liveFds p) := by
    have hkept : liveFds (delEvent p v) = (liveSlots (delEvent p v)).map fun w => (p.items w).fd :=
      List.map_congr_left fun w hw => (hd.kept w ((hd.mem_iff hg.slots).mp hw).2).1
    rw [hkept, ← List.map_append]
    exact hd.live.map _
  refine ⟨hd.good, fun hb => ⟨?_, ?_⟩, hiters, fun w => ?_, fun w => ?_⟩
  · rw [hopened, hd.closed, List.append_assoc, ← List.append_assoc _ _ k]
    exact hb.perm.trans ((hfds.symm.append_right k).append_left _)
  · have hnd := ((hfds.append_right k).nodup_iff.mpr hb.nodup)
    rw [List.append_assoc] at hnd
    exact (List.nodup_append.mp hnd).2.1
  · by_cases hw : w ∈ v :: g
    · refine .moved (hd.gone w hw).2 (by rw [huses]) fun hw' => absurd hw ((hd.mem_iff hg.slots).mp hw').2
    · refine .of_eq ⟨fun hw' => ((hd.mem_iff hg.slots).mp hw').1, fun hw' => (hd.mem_iff hg.slots).mpr ⟨hw', hw⟩⟩
        (by rw [huses]) (hd.kept w hw).2
  · rcases hd.tvMs w with heq | heq
    · exact .inl heq
    · exact .inr (by omega)

/-- `add_event` that fails: at most the cleared slot differs, which is not in use. -/
theorem addEvent_none {ctl : Bool} (hD : 0 < D) (hg : Good size p) (h : addEvent p cb fd ctl = (p', none)) :
    Keeps size D k k p p' ∧ liveSlots p' = liveSlots p ∧ ∀ w ∈ liveSlots p, p'.items w = p.items w := by
  rw [addEvent_eq] at h
  split_ifs at h with hmax hctl
  · obtain rfl := (Prod.mk.inj h).1
    exact ⟨.refl hg, rfl, fun _ _ => rfl⟩
  · exact absurd (Prod.mk.inj h).2 (by simp)
  · have hlt : p.count < p.max := by omega
    obtain rfl := (Prod.mk.inj h).1
    have hitems : ∀ w ∈ liveSlots p, (prepared p cb fd).items w = p.items w :=
      fun w hw => items_prepared_live hg.slots hlt hw
    have hfds : liveFds (prepared p cb fd) = liveFds p := List.map_congr_left fun w hw => by rw [hitems w hw]
    refine ⟨⟨hg.prepared hlt, fun hb => ⟨?_, ?_⟩, rfl, fun w => ?_, fun w => ?_⟩, rfl, hitems⟩
    · rw [hfds]
      exact hb.perm
    · rw [hfds]
      exact hb.nodup
    · by_cases hw : w = p.links p.count
      · rw [hw]
        refine .moved ?_ (Nat.le_refl _) fun hw' => absurd hw' (hg.slots.next_not_live hlt)
        rw [items_prepared_self]
      · exact .of_eq .rfl rfl (by rw [items_prepared_ne hw])
    · by_cases hw : w = p.links p.count
      · right
        show Function.update p.tvMs _ 0 w < D
        rw [hw, Function.update_self]
        exact hD
      · exact .inl (Function.update_of_ne hw _ _)

theorem addEvent_some {ctl : Bool} (hD : 0 < D) (hg : Good size p) (hfd : 0 < fd)
    (h : addEvent p cb fd ctl = (p', some v)) :
    Keeps size D [fd] [] p p' ∧ v ∉ liveSlots p ∧ liveSlots p' = liveSlots p ++ [v] ∧
      (p'.items v).pair = none ∧ (p'.items v).cb = cb ∧ ∀ w ∈ liveSlots p, p'.items w = p.items w := by
  have hlt : p.count < p.max := by
    by_contra hmax
    rw [addEvent_eq, if_pos (by omega)] at h
    exact absurd (Prod.mk.inj h).2 (by simp)
  rw [addEvent_eq, if_neg (by omega)] at h
  have hctl : ctl = true := by
    by_contra hctl
    rw [if_neg hctl] at h
    exact absurd (Prod.mk.inj h).2 (by simp)
  rw [if_pos hctl] at h
  obtain ⟨rfl, hv⟩ := Prod.mk.inj h
  obtain rfl := Option.some.inj hv
  have hnew := hg.slots.next_not_live hlt
  have hlive : liveSlots (taken (prepared p cb fd)) = liveSlots p ++ [p.links p.count] := liveSlots_taken _
  have hitems : ∀ w ∈ liveSlots p, (taken (prepared p cb fd)).items w = p.items w :=
    fun w hw => items_prepared_live hg.slots hlt hw
  have hself : (taken (prepared p cb fd)).items (p.links p.count) =
      { Eval.zero with modIter := p.iters, fd := fd, index := p.count, cb := cb } := items_prepared_self
  have hfds : liveFds (taken (prepared p cb fd)) = liveFds p ++ [fd] := by
    rw [liveFds, hlive, List.map_append, List.map_singleton, hself]
    exact congrArg (· ++ [fd]) (List.map_congr_left fun w hw => by rw [hitems w hw])
  refine ⟨⟨(hg.prepared hlt).taken hlt hfd, fun hb => ⟨?_, ?_⟩, rfl, fun w => ?_, fun w => ?_⟩, hnew, hlive, ?_, ?_,
    hitems⟩
  · rw [hfds, List.append_nil]
    exact hb.perm
  · rw [hfds, List.append_nil]
    exact hb.nodup
  · have huses : (taken (prepared p cb fd)).uses =
        Function.update p.uses (p.links p.count) (p.uses (p.links p.count) + 1) := rfl
    by_cases hw : w = p.links p.count
    · subst hw
      refine .moved (by rw [hself]) ?_ fun _ => ?_
      · rw [huses, Function.update_self]
        exact Nat.le_succ _
      · rw [huses, Function.update_self]
        exact Nat.lt_succ_self _
    · refine .of_eq ?_ ?_ ?_
      · rw [hlive]
        simp [hw]
      · rw [huses, Function.update_of_ne hw]
      · exact congrArg Eval.modIter (items_prepared_ne hw)
  · by_cases hw : w = p.links p.count
    · right
      show Function.update p.tvMs _ 0 w < D
      rw [hw, Function.update_self]
      exact hD
    · exact .inl (Function.update_of_ne hw _ _)
  · rw [hself]
    rfl
  · rw [hself]

end Keeps

/-! ### Pairs -/

/-- The callbacks of the two ends of a tunnel. -/
def Ends (a b : Evcb) : Prop :=
  a = .onTunnel ∧ b = .onTunnel ∨ a = .onConnect ∧ b = .onIgnore ∨ a = .onIgnore ∧ b = .onConnect

/-- How a slot in use is paired. Only the callbacks that ask for no pair are alone, when `strict`. -/
inductive Paired (strict : Prop) (p : Pool) (v : ℕ) : Prop
  | alone : (p.items v).pair = none → (strict → (p.items v).cb = .onAccept ∨ (p.items v).cb = .onRequest) →
      Paired strict p v
  | tunnel (w : ℕ) : w ∈ liveSlots p → v ≠ w → (p.items v).pair = some w → (p.items w).pair = some v →
      Ends (p.items v).cb (p.items w).cb → Paired strict p v
  | ring (w u : ℕ) : w ∈ liveSlots p → u ∈ liveSlots p → v ≠ w → v ≠ u → w ≠ u → (p.items v).pair = some w →
      (p.items w).pair = some u → (p.items u).pair = some v →
      (p.items v).cb = .onIgnore ∨ (p.items v).cb = .onUdpTunnel → Paired strict p v

/-- Every slot in use is paired. -/
def Pairs (strict : Prop) (p : Pool) : Prop := ∀ v ∈ liveSlots p, Paired strict p v

section Pairs

variable {strict : Prop} {p p' : Pool} {size : ℕ} {D : ℤ} {v w : ℕ}

theorem Paired.group (h : Paired strict p v) (hv : v ∈ liveSlots p) :
    ∃ g, Group p (v :: g) ∧ ∀ w ∈ v :: g, w ∈ liveSlots p := by
  cases h with
  | alone hpair => exact ⟨[], .alone hpair, by simpa using hv⟩
  | tunnel w hw hvw hpair hback => exact ⟨[w], .tunnel hvw hpair hback, by simpa using ⟨hv, hw⟩⟩
  | ring w u hw hu hvw hvu hwu hpair hnext hback =>
    exact ⟨[w, u], .ring hvw hvu hwu hpair hnext hback, by simpa using ⟨hv, hw, hu⟩⟩

theorem group_closed {g : List ℕ} (h : Group p g) {x y : ℕ} (hx : x ∈ g) (hy : (p.items x).pair = some y) : y ∈ g := by
  cases h with
  | alone hpair =>
    rw [List.mem_singleton] at hx
    rw [hx, hpair] at hy
    exact absurd hy (by simp)
  | tunnel _ hpair hback =>
    simp only [List.mem_cons, List.not_mem_nil, or_false] at hx
    rcases hx with rfl | rfl
    · rw [hpair, Option.some.injEq] at hy
      simp [hy]
    · rw [hback, Option.some.injEq] at hy
      simp [hy]
  | ring _ _ _ hpair hnext hback =>
    simp only [List.mem_cons, List.not_mem_nil, or_false] at hx
    rcases hx with rfl | rfl | rfl
    · rw [hpair, Option.some.injEq] at hy
      simp [hy]
    · rw [hnext, Option.some.injEq] at hy
      simp [hy]
    · rw [hback, Option.some.injEq] at hy
      simp [hy]

/-- A change among slots `S` that are paired among themselves leaves the pairs of the others. -/
theorem Pairs.change (h : Pairs strict p) (S : List ℕ)
    (hfwd : ∀ x ∈ S, x ∈ liveSlots p → ∀ y, (p.items x).pair = some y → y ∈ S)
    (hlive : ∀ w, w ∉ S → (w ∈ liveSlots p' ↔ w ∈ liveSlots p))
    (hsame : ∀ w ∈ liveSlots p, w ∉ S → (p'.items w).pair = (p.items w).pair ∧ (p'.items w).cb = (p.items w).cb)
    (hS : ∀ w ∈ S, w ∈ liveSlots p' → Paired strict p' w) : Pairs strict p' := by
  intro w hw
  by_cases hwS : w ∈ S
  · exact hS w hwS hw
  have hwp := (hlive w hwS).mp hw
  obtain ⟨hpw, hcw⟩ := hsame w hwp hwS
  -- the way on from the slot leads back to it, so it stays out of `S`
  have hout : ∀ x ∈ liveSlots p, ∀ y, (p.items x).pair = some y → y ∉ S → x ∉ S :=
    fun x hx y hy hyS hxS => hyS (hfwd x hxS hx y hy)
  cases h w hwp with
  | alone hpair hcb => exact .alone (hpw.trans hpair) fun hs => hcw ▸ hcb hs
  | tunnel x hx hne hpair hback hends =>
    have hxS := hout x hx w hback hwS
    obtain ⟨hpx, hcx⟩ := hsame x hx hxS
    exact .tunnel x ((hlive x hxS).mpr hx) hne (hpw.trans hpair) (hpx.trans hback) (by rwa [hcw, hcx])
  | ring x u hx hu hwx hwu hxu hpair hnext hback hcb =>
    have huS := hout u hu w hback hwS
    have hxS := hout x hx u hnext huS
    exact .ring x u ((hlive x hxS).mpr hx) ((hlive u huS).mpr hu) hwx hwu hxu (hpw.trans hpair)
      ((hsame x hx hxS).1.trans hnext) ((hsame u hu huS).1.trans hback) (hcw ▸ hcb)

theorem Pairs.of_eq (h : Pairs strict p) (hlive : liveSlots p' = liveSlots p)
    (hsame : ∀ w ∈ liveSlots p, (p'.items w).pair = (p.items w).pair ∧ (p'.items w).cb = (p.items w).cb) :
    Pairs strict p' :=
  h.change [] (by simp) (fun w _ => by rw [hlive]) (fun w hw _ => hsame w hw) (by simp)

theorem Pairs.add (h : Pairs strict p) (hv : v ∉ liveSlots p) (hlive : liveSlots p' = liveSlots p ++ [v])
    (hsame : ∀ w ∈ liveSlots p, p'.items w = p.items w) (hpair : (p'.items v).pair = none)
    (hcb : strict → (p'.items v).cb = .onAccept ∨ (p'.items v).cb = .onRequest) : Pairs strict p' := by
  refine h.change [v] (fun x hx hxl => ?_) (fun w hw => ?_) (fun w hw _ => by simp [hsame w hw]) fun w hw _ => ?_
  · exact absurd (List.mem_singleton.mp hx ▸ hxl) hv
  · rw [hlive, List.mem_append]
    exact or_iff_left hw
  · obtain rfl := List.mem_singleton.mp hw
    exact .alone hpair hcb

theorem Pairs.delEvent (h : Pairs strict p) (hg : Good size p) (hv : v ∈ liveSlots p) :
    Pairs strict (delEvent p v) ∧ v ∉ liveSlots (delEvent p v) := by
  obtain ⟨g, hgr, hgl⟩ := (h v hv).group hv
  have hd := delEvent_spec hg hgr hgl
  have hmem := fun w => hd.mem_iff (w := w) hg.slots
  refine ⟨h.change (v :: g) (fun x hx _ y hy => group_closed hgr hx hy) (fun w hw => ?_) (fun w _ hw => ?_)
    fun w hw hwl => ?_, fun hvl => ?_⟩
  · rw [hmem]
    exact and_iff_left hw
  · rw [hd.off w hw]
    exact ⟨rfl, rfl⟩
  · exact absurd hw ((hmem w).mp hwl).2
  · exact absurd List.mem_cons_self ((hmem v).mp hvl).2

end Pairs

/-! ### New connections -/

theorem items_setCb_self (p : Pool) (v : ℕ) (cb : Evcb) :
    (setCb p v cb).items v = { p.items v with cb := cb } := Function.update_self _ _ _

theorem items_setCb_ne (p : Pool) {v w : ℕ} (hw : w ≠ v) (cb : Evcb) :
    (setCb p v cb).items w = p.items w := Function.update_of_ne hw _ _

theorem relinked_setCb (p : Pool) (v : ℕ) (cb : Evcb) : Relinked p (setCb p v cb) := by
  refine ⟨rfl, fun w => ?_⟩
  by_cases hw : w = v
  · rw [hw, items_setCb_self]
  · rw [items_setCb_ne p hw]

/-- A step of a callback after which every slot that was in use still is. -/
structure Adds (size : ℕ) (D : ℤ) (k k' : List ℤ) (p p' : Pool) : Prop extends Keeps size D k k' p p' where
  mono : ∀ w ∈ liveSlots p, w ∈ liveSlots p'

section Connections

variable {strict : Prop} {p p' p'' : Pool} {size : ℕ} {D : ℤ} {k k' k'' : List ℤ} {v w : ℕ} {cb : Evcb} {fd : ℤ}

theorem Adds.trans (h : Adds size D k k' p p') (h' : Adds size D k' k'' p' p'') : Adds size D k k'' p p'' :=
  ⟨h.toKeeps.trans h'.toKeeps, fun w hw => h'.mono w (h.mono w hw)⟩

theorem onAccept_spec (hD : 0 < D) (hg : Good size p) {c : ℤ} (hf : Fresh p c) (hp : Pairs strict p) (opt ctl : Bool) :
    Adds size D [] [] p (onAccept p c opt ctl) ∧ Pairs strict (onAccept p c opt ctl) := by
  have ho := openFd_keeps (D := D) hg hf
  have hpo : Pairs strict (openFd p c) := hp.of_eq rfl fun _ _ => ⟨rfl, rfl⟩
  rw [onAccept]
  cases opt with
  | false => exact ⟨⟨ho.trans (closeFd_keeps ho.good), fun _ hw => hw⟩, hpo.of_eq rfl fun _ _ => ⟨rfl, rfl⟩⟩
  | true =>
    rcases hadd : addEvent (openFd p c) .onRequest c ctl with ⟨p', _ | v⟩
    · obtain ⟨hk, hlive, hitems⟩ := addEvent_none (k := [c]) hD ho.good hadd
      exact ⟨⟨(ho.trans hk).trans (closeFd_keeps hk.good), fun w hw => (hlive ▸ hw : w ∈ liveSlots p')⟩,
        (hpo.of_eq hlive fun w hw => by rw [hitems w hw]; exact ⟨rfl, rfl⟩).of_eq rfl fun _ _ => ⟨rfl, rfl⟩⟩
    · obtain ⟨hk, hv, hlive, hpair, hcb, hitems⟩ := addEvent_some hD ho.good hf.1 hadd
      refine ⟨⟨ho.trans hk, fun w hw => ?_⟩, hpo.add hv hlive hitems hpair fun _ => .inr hcb⟩
      show w ∈ liveSlots p'
      rw [hlive]
      exact List.mem_append_left _ hw

/-- What `create_conn` does: the slot has a server, or nothing that was paired is touched. -/
theorem createConn_spec (hD : 0 < D) (hg : Good size p) {c : ConnCalls} (hf : c.Fresh p) (hv : v ∈ liveSlots p)
    {b : Bool} (h : createConn p v c = (p', b)) : Adds size D [] [] p p' ∧
      (b = false → (∀ w ∈ liveSlots p, p'.items w = p.items w) ∧ ∀ strict, (strict → c.mod = true) → Pairs strict p →
        Pairs strict p') ∧
      (b = true → ∃ w, w ∉ liveSlots p ∧ liveSlots p' = liveSlots p ++ [w] ∧ (p'.items v).pair = some w ∧
        (p'.items v).cb = .onIgnore ∧ (p'.items w).pair = some v ∧ (p'.items w).cb = .onConnect ∧
        ∀ x ∈ liveSlots p, x ≠ v → p'.items x = p.items x) := by
  rw [createConn] at h
  rcases hc : c.sfd with _ | sfd
  · rw [hc] at h
    obtain ⟨rfl, rfl⟩ := Prod.mk.inj h
    exact ⟨⟨.refl hg, fun _ hw => hw⟩, fun _ => ⟨fun _ _ => rfl, fun _ _ hp => hp⟩, by simp⟩
  have hfr := hf sfd hc
  have ho := openFd_keeps (D := D) hg hfr
  rw [hc] at h
  dsimp only at h
  rcases hconn : c.conn with _ | _
  · rw [hconn] at h
    obtain ⟨rfl, rfl⟩ := Prod.mk.inj h
    exact ⟨⟨ho.trans (closeFd_keeps ho.good), fun _ hw => hw⟩,
      fun _ => ⟨fun _ _ => rfl, fun _ _ hp => hp.of_eq rfl fun _ _ => ⟨rfl, rfl⟩⟩, by simp⟩
  rw [hconn] at h
  rcases hadd : addEvent (openFd p sfd) .onConnect sfd c.ctl with ⟨q, _ | w⟩
  · rw [hadd] at h
    obtain ⟨rfl, rfl⟩ := Prod.mk.inj h
    obtain ⟨hk, hlive, hitems⟩ := addEvent_none (k := [sfd]) hD ho.good hadd
    exact ⟨⟨(ho.trans hk).trans (closeFd_keeps hk.good), fun x hx => (hlive ▸ hx : x ∈ liveSlots q)⟩,
      fun _ => ⟨hitems, fun _ _ hp => hp.of_eq hlive fun x hx => by
        rw [show (closeFd q sfd).items x = p.items x from hitems x hx]
        exact ⟨rfl, rfl⟩⟩, by simp⟩
  rw [hadd] at h
  obtain ⟨hk, hw, hlive, hpair, hcb, hitems⟩ := addEvent_some hD ho.good hfr.1 hadd
  have hkq := ho.trans hk
  have hmono : ∀ x ∈ liveSlots p, x ∈ liveSlots q := fun x hx => by
    rw [hlive]
    exact List.mem_append_left _ hx
  rcases hmod : c.mod with _ | _
  · rw [hmod] at h
    obtain ⟨rfl, rfl⟩ := Prod.mk.inj h
    refine ⟨⟨hkq, hmono⟩, fun _ => ⟨hitems, fun strict hs hp => ?_⟩, by simp⟩
    exact hp.add hw hlive hitems hpair fun h => absurd (hs h) (by simp)
  · rw [hmod] at h
    obtain ⟨rfl, rfl⟩ := Prod.mk.inj h
    have hvw : v ≠ w := fun hvw => hw (hvw ▸ hv)
    have hr : Relinked q (setCb (setPair (setPair q v (some w)) w (some v)) v .onIgnore) :=
      ((relinked_setPair q v _).trans (relinked_setPair _ w _)).trans (relinked_setCb _ v _)
    refine ⟨⟨hkq.trans (relinked_keeps hr hkq.good), fun x hx => ?_⟩, by simp, fun _ =>
      ⟨w, hw, hr.liveSlots.trans hlive, ?_, ?_, ?_, ?_, fun x hx hxv => ?_⟩⟩
    · rw [hr.liveSlots]
      exact hmono x hx
    · rw [items_setCb_self]
      show ((setPair _ w _).items v).pair = _
      rw [items_setPair_ne _ hvw, items_setPair_self]
    · rw [items_setCb_self]
    · rw [items_setCb_ne _ (Ne.symm hvw), items_setPair_self]
    · rw [items_setCb_ne _ (Ne.symm hvw), items_setPair_self]
      show ((setPair q v _).items w).cb = _
      rw [items_setPair_ne _ (Ne.symm hvw), hcb]
    · have hxw : x ≠ w := fun hxw => hw (hxw ▸ hx)
      rw [items_setCb_ne _ hxv, items_setPair_ne _ hxw, items_setPair_ne _ hxv]
      exact hitems x hx

theorem Paired.request (h : Paired strict p v) (hcb : (p.items v).cb = .onRequest) : (p.items v).pair = none := by
  cases h with
  | alone hpair => exact hpair
  | tunnel w _ _ _ _ hends => rw [hcb] at hends; simp [Ends] at hends
  | ring w u _ _ _ _ _ _ _ _ hring => rw [hcb] at hring; simp at hring

theorem delEvent_new (hD : 0 < D) (hp : Pairs strict p) (hg : Good size p') (hpair : (p'.items v).pair = none)
    (hv : v ∉ liveSlots p) (hlive : liveSlots p' = liveSlots p ++ [v])
    (hitems : ∀ w ∈ liveSlots p, p'.items w = p.items w) : Keeps size D k k p' (delEvent p' v) ∧
      (∀ w ∈ liveSlots p, w ∈ liveSlots (delEvent p' v)) ∧ Pairs strict (delEvent p' v) := by
  have hvl : ∀ w ∈ [v], w ∈ liveSlots p' := fun w hw => by
    rw [hlive]
    exact List.mem_append_right _ hw
  have hd := delEvent_spec hg (.alone hpair) hvl
  have hmem : ∀ w, w ∈ liveSlots (delEvent p' v) ↔ w ∈ liveSlots p := fun w => by
    rw [hd.mem_iff hg.slots, hlive, List.mem_append]
    constructor
    · rintro ⟨hw | hw, hn⟩
      · exact hw
      · exact absurd hw hn
    · exact fun hw => ⟨.inl hw, fun hwv => hv (List.mem_singleton.mp hwv ▸ hw)⟩
  refine ⟨delEvent_keeps hD hg (.alone hpair) hvl, fun w hw => (hmem w).mpr hw,
    hp.change [] (by simp) (fun w _ => hmem w) (fun w hw _ => ?_) (by simp)⟩
  have hwv : w ∉ [v] := fun hwv => hv (List.mem_singleton.mp hwv ▸ hw)
  rw [hd.off w hwv, hitems w hw]
  exact ⟨rfl, rfl⟩

theorem Fresh.added {q : Pool} {c : ℤ} (hf : Fresh p c) {ctl : Bool}
    (hadd : addEvent (openFd p fd) cb fd ctl = (q, some v)) (hlive : liveSlots q = liveSlots p ++ [v])
    (hitems : ∀ w ∈ liveSlots p, q.items w = p.items w) (hne : c ≠ fd) : Fresh q c := by
  have hfd : (q.items v).fd = fd := by
    rw [addEvent_eq] at hadd
    split_ifs at hadd
    · exact absurd (Prod.mk.inj hadd).2 (by simp)
    · obtain ⟨rfl, hp'⟩ := Prod.mk.inj hadd
      obtain rfl := Option.some.inj hp'
      exact congrArg Eval.fd items_prepared_self
    · exact absurd (Prod.mk.inj hadd).2 (by simp)
  refine ⟨hf.1, ?_⟩
  rw [liveFds, hlive, List.map_append, List.mem_append, not_or]
  refine ⟨fun hmem => hf.2 ?_, ?_⟩
  · obtain ⟨x, hx, hxf⟩ := List.mem_map.mp hmem
    exact List.mem_map.mpr ⟨x, hx, by rw [← hxf, hitems x hx]⟩
  · rwa [List.map_singleton, List.mem_singleton, hfd]

/-- The three slots of a UDP association are linked to a ring; before, only that of the request was in
use, and it was alone. -/
theorem Pairs.ring {client pair : ℕ} (hp : Pairs strict p) (hv : v ∈ liveSlots p)
    (hcb : (p.items v).cb = .onRequest) (hpn : pair ∉ liveSlots p) (hcn : client ∉ liveSlots p)
    (hcp : client ≠ pair) {r r' : Pool} (hlr : liveSlots r = liveSlots p ++ [pair] ++ [client])
    (hpcb : (r.items pair).cb = .onUdpTunnel) (hccb : (r.items client).cb = .onUdpTunnel)
    (hitems : ∀ w ∈ liveSlots p, r.items w = p.items w)
    (hr' : r' = setPair (setPair (setPair (setCb r v .onIgnore) v (some client)) client (some pair)) pair
      (some v)) : Relinked r r' ∧ Pairs strict r' := by
  have hvp : v ≠ pair := fun heq => hpn (heq ▸ hv)
  have hvc : v ≠ client := fun heq => hcn (heq ▸ hv)
  have hrel : Relinked r r' := by
    rw [hr']
    exact (((relinked_setCb r v _).trans (relinked_setPair _ v _)).trans (relinked_setPair _ client _)).trans
      (relinked_setPair _ pair _)
  have hlive : liveSlots r' = liveSlots p ++ [pair] ++ [client] := hrel.liveSlots.trans hlr
  have hiv : (r'.items v).pair = some client ∧ (r'.items v).cb = .onIgnore := by
    rw [hr', items_setPair_ne _ hvp, items_setPair_ne _ hvc, items_setPair_self, items_setCb_self]
    exact ⟨rfl, rfl⟩
  have hic : (r'.items client).pair = some pair ∧ (r'.items client).cb = .onUdpTunnel := by
    rw [hr', items_setPair_ne _ hcp, items_setPair_self, items_setPair_ne _ (Ne.symm hvc),
      items_setCb_ne _ (Ne.symm hvc)]
    exact ⟨rfl, hccb⟩
  have hip : (r'.items pair).pair = some v ∧ (r'.items pair).cb = .onUdpTunnel := by
    rw [hr', items_setPair_self, items_setPair_ne _ (Ne.symm hcp), items_setPair_ne _ (Ne.symm hvp),
      items_setCb_ne _ (Ne.symm hvp)]
    exact ⟨rfl, hpcb⟩
  have hml : v ∈ liveSlots r' ∧ client ∈ liveSlots r' ∧ pair ∈ liveSlots r' := by
    rw [hlive]
    simp [hv]
  refine ⟨hrel, hp.change [v, client, pair] (fun x hx hxl y hy => ?_) (fun w hw => ?_) (fun w hw hwS => ?_)
    fun w hw _ => ?_⟩
  · rcases List.mem_cons.mp hx with rfl | hx
    · rw [(hp x hxl).request hcb] at hy
      exact absurd hy (by simp)
    rcases List.mem_cons.mp hx with rfl | hx
    · exact absurd hxl hcn
    · exact absurd (List.mem_singleton.mp hx ▸ hxl) hpn
  · rw [hlive]
    simp only [List.mem_cons, List.not_mem_nil, or_false, not_or] at hw
    simp [hw]
  · simp only [List.mem_cons, List.not_mem_nil, or_false, not_or] at hwS
    rw [hr', items_setPair_ne _ hwS.2.2, items_setPair_ne _ hwS.2.1, items_setPair_ne _ hwS.1,
      items_setCb_ne _ hwS.1, hitems w hw]
    exact ⟨rfl, rfl⟩
  · simp only [List.mem_cons, List.not_mem_nil, or_false] at hw
    rcases hw with rfl | rfl | rfl
    · exact .ring client pair hml.2.1 hml.2.2 hvc hvp hcp hiv.1 hic.1 hip.1 (.inl hiv.2)
    · exact .ring pair v hml.2.2 hml.1 hcp (Ne.symm hvc) (Ne.symm hvp) hic.1 hip.1 hiv.1 (.inr hic.2)
    · exact .ring v client hml.1 hml.2.1 (Ne.symm hvp) (Ne.symm hcp) hvc hip.1 hiv.1 hic.1 (.inr hip.2)

theorem udpAssociate_spec (hD : 0 < D) (hg : Good size p) (hp : Pairs strict p) {c : UdpCalls} (hf : c.Fresh p)
    (hv : v ∈ liveSlots p) (hcb : (p.items v).cb = .onRequest) (hs : strict → c.name = true) :
    Adds size D [] [] p (udpAssociate p v c).1 ∧ Pairs strict (udpAssociate p v c).1 := by
  rw [udpAssociate]
  rcases hu : c.ufd with _ | ufd
  · exact ⟨⟨.refl hg, fun _ hw => hw⟩, hp⟩
  have hfu := hf.1 ufd hu
  have ho := openFd_keeps (D := D) hg hfu
  dsimp only
  rcases hadd : addEvent (openFd p ufd) .onUdpTunnel ufd c.ctlPair with ⟨q, _ | pair⟩
  · obtain ⟨hk, hlive, hitems⟩ := addEvent_none (k := [ufd]) hD ho.good hadd
    refine ⟨⟨(ho.trans hk).trans (closeFd_keeps hk.good), fun w hw => (hlive ▸ hw : w ∈ liveSlots q)⟩,
      hp.of_eq hlive fun w hw => ?_⟩
    rw [show (closeFd q ufd).items w = p.items w from hitems w hw]
    exact ⟨rfl, rfl⟩
  obtain ⟨hk, hpn, hlive, hpair, hpcb, hitems⟩ := addEvent_some hD ho.good hfu.1 hadd
  have hkq := ho.trans hk
  have hmono : ∀ w ∈ liveSlots p, w ∈ liveSlots q := fun w hw => by
    rw [hlive]
    exact List.mem_append_left _ hw
  dsimp only
  rcases hname : c.name with _ | _
  · exact ⟨⟨hkq, hmono⟩, hp.add hpn hlive hitems hpair fun h => absurd (hname.symm.trans (hs h)) (by simp)⟩
  rcases hc : c.cfd with _ | cfd
  · obtain ⟨hkd, hmd, hpd⟩ := delEvent_new (k := []) hD hp hkq.good hpair hpn hlive hitems
    exact ⟨⟨hkq.trans hkd, hmd⟩, hpd⟩
  obtain ⟨hfc, hne⟩ := hf.2 cfd hc
  have hfq : Fresh q cfd := hfc.added hadd hlive hitems fun heq => hne (heq ▸ hu)
  have hoc := openFd_keeps (D := D) hkq.good hfq
  have hlive' : liveSlots (openFd q cfd) = liveSlots p ++ [pair] := hlive
  have hpl : pair ∈ liveSlots q := by
    rw [hlive]
    exact List.mem_append_right _ List.mem_cons_self
  dsimp only
  rcases hbind : c.bind with _ | _
  · obtain ⟨hkd, hmd, hpd⟩ := delEvent_new (k := [cfd]) hD hp hoc.good hpair hpn hlive' hitems
    exact ⟨⟨((hkq.trans hoc).trans hkd).trans (closeFd_keeps hkd.good), hmd⟩, hpd.of_eq rfl fun _ _ => ⟨rfl, rfl⟩⟩
  rcases hadd' : addEvent (openFd q cfd) .onUdpTunnel cfd c.ctlClient with ⟨r, _ | client⟩
  · obtain ⟨hkr, hlr, hir⟩ := addEvent_none (k := [cfd]) hD hoc.good hadd'
    have hpr : (r.items pair).pair = none := by
      rw [hir pair hpl]
      exact hpair
    obtain ⟨hkd, hmd, hpd⟩ := delEvent_new (k := [cfd]) hD hp hkr.good hpr hpn (hlr.trans hlive')
      fun w hw => (hir w (hmono w hw)).trans (hitems w hw)
    exact ⟨⟨(((hkq.trans hoc).trans hkr).trans hkd).trans (closeFd_keeps hkd.good), hmd⟩,
      hpd.of_eq rfl fun _ _ => ⟨rfl, rfl⟩⟩
  obtain ⟨hkr, hcn, hlr, -, hccb, hir⟩ := addEvent_some hD hoc.good hfc.1 hadd'
  have hlr : liveSlots r = liveSlots p ++ [pair] ++ [client] := hlr.trans (congrArg (· ++ [client]) hlive')
  obtain ⟨hrel, hring⟩ := hp.ring hv hcb hpn (fun hx => hcn (hmono client hx)) (fun heq => hcn (heq ▸ hpl)) hlr
    ((congrArg Eval.cb (hir pair hpl)).trans hpcb) hccb
    (fun w hw => (hir w (hmono w hw)).trans (hitems w hw)) rfl
  refine ⟨⟨((hkq.trans hoc).trans hkr).trans (relinked_keeps hrel hkr.good), fun w hw => ?_⟩, hring⟩
  refine hrel.liveSlots.symm ▸ hlr.symm ▸ ?_
  simp [hw]

theorem onConnect_spec (hg : Good size p) (hp : Pairs strict p) (hv : v ∈ liveSlots p)
    (hcb : (p.items v).cb = .onConnect) (h : onConnect p v = some p') :
    Adds size D k k p p' ∧ Pairs strict p' := by
  obtain ⟨w, hw, rfl⟩ := Option.map_eq_some_iff.mp h
  have hr : Relinked p (setCb (setCb p v .onTunnel) w .onTunnel) :=
    (relinked_setCb p v _).trans (relinked_setCb _ w _)
  have hlive := hr.liveSlots
  refine ⟨⟨relinked_keeps hr hg, fun x hx => by rwa [hlive]⟩, ?_⟩
  cases hp v hv with
  | alone hpair => exact absurd (hw.symm.trans hpair) (by simp)
  | ring w u _ _ _ _ _ _ _ _ hring => rw [hcb] at hring; simp at hring
  | tunnel w' hwl hvw hpair hback =>
    obtain rfl := Option.some.inj (hw.symm.trans hpair)
    have hiv : ((setCb (setCb p v .onTunnel) w .onTunnel).items v).pair = some w ∧
        ((setCb (setCb p v .onTunnel) w .onTunnel).items v).cb = .onTunnel := by
      rw [items_setCb_ne _ hvw, items_setCb_self]
      exact ⟨hpair, rfl⟩
    have hiw : ((setCb (setCb p v .onTunnel) w .onTunnel).items w).pair = some v ∧
        ((setCb (setCb p v .onTunnel) w .onTunnel).items w).cb = .onTunnel := by
      rw [items_setCb_self, items_setCb_ne _ (Ne.symm hvw)]
      exact ⟨hback, rfl⟩
    refine hp.change [v, w] (fun x hx _ y hy => group_closed (.tunnel hvw hpair hback) hx hy) (fun x _ => by rw [hlive])
      (fun x _ hxS => ?_) fun x hx _ => ?_
    · simp only [List.mem_cons, List.not_mem_nil, or_false, not_or] at hxS
      rw [items_setCb_ne _ hxS.2, items_setCb_ne _ hxS.1]
      exact ⟨rfl, rfl⟩
    · simp only [List.mem_cons, List.not_mem_nil, or_false] at hx
      rcases hx with rfl | rfl
      · exact .tunnel w (hlive ▸ hwl) hvw hiv.1 hiw.1 (.inl ⟨hiv.2, hiw.2⟩)
      · exact .tunnel v (hlive ▸ hv) (Ne.symm hvw) hiw.1 hiv.1 (.inl ⟨hiw.2, hiv.2⟩)

end Connections

/-! ### Buffers and timers in a callback -/

/-- A change of buffers. -/
structure Rebuffered (p p' : Pool) : Prop where
  pool : p' = { p with
    items := p'.items, rootBuff := p'.rootBuff, buffCount := p'.buffCount, freed := p'.freed, mallocs := p'.mallocs }
  items : ∀ w, p'.items w = { p.items w with buff := (p'.items w).buff, sqBuff := (p'.items w).sqBuff }

/-- The buffers are in order, with `x` in the hands of the callback. -/
structure Hand (size : ℕ) (x : List Buffer) (p : Pool) : Prop where
  count_eq : p.buffCount = p.rootBuff.length
  count_le : p.buffCount ≤ MAX_BUFF_INP
  perm : (x ++ (p.rootBuff ++ p.freed ++ held p)).Perm ((List.range p.mallocs).map fun i => ⟨i, size⟩)

section Buffers

variable {strict : Prop} {p p' : Pool} {size : ℕ} {D : ℤ} {k : List ℤ} {v w : ℕ} {b : Option Buffer}

theorem Rebuffered.liveSlots (h : Rebuffered p p') : liveSlots p' = liveSlots p := by
  rw [h.pool]
  rfl

theorem Rebuffered.spec (h : Rebuffered p p') (hg : Good size p) (hb : Hand size [] p') (hp : Pairs strict p) :
    Adds size D k k p p' ∧ Pairs strict p' := by
  obtain ⟨hs, ⟨l, hl⟩, -⟩ := hg
  have hlive := h.liveSlots
  have hgood : Good size p' := by
    refine ⟨⟨?_, ?_, ?_, ?_, ?_, ?_⟩, ⟨l, ?_, hl.nodup, ?_, ?_, ?_⟩, hb.count_eq, hb.count_le, hb.perm⟩
    · rw [h.pool]
      exact hs.count_le
    · rw [h.pool]
      exact hs.links_lt
    · rw [h.pool]
      exact hs.links_inj
    · intro i hi
      rw [h.items, h.pool]
      rw [h.pool] at hi
      exact hs.index i hi
    · intro w hw
      rw [h.items]
      exact hs.fd_pos w (hlive ▸ hw)
    · intro w hw
      rw [h.items, h.pool]
      exact hs.modIter_le w (hlive ▸ hw)
    · rw [h.pool]
      exact hl.tv_eq
    · rw [hlive]
      exact hl.live
    · rw [h.pool]
      exact hl.mem_iff
    · rw [h.pool]
      exact hl.sorted
  refine ⟨⟨.of_eq hgood hlive (fun w => ?_) ?_ fun w => .inl ?_, fun w hw => by rwa [hlive]⟩,
    hp.of_eq hlive fun w _ => ?_⟩
  · rw [h.items w]
    exact ⟨rfl, rfl⟩
  · rw [h.pool]
    exact ⟨rfl, rfl, rfl, rfl⟩
  · rw [h.pool]
  · rw [h.items w]
    exact ⟨rfl, rfl⟩

theorem held_split (hnd : (liveSlots p).Nodup) (hv : v ∈ liveSlots p) :
    ∃ rest : List Buffer, ∀ q : Pool, liveSlots q = liveSlots p →
      (∀ w, w ≠ v → (q.items w).buff = (p.items w).buff ∧ (q.items w).sqBuff = (p.items w).sqBuff) →
      (held q).Perm ((q.items v).buff.toList ++ ((q.items v).sqBuff.toList ++ rest)) := by
  obtain ⟨a, c, hac⟩ := List.append_of_mem hv
  rw [hac] at hnd
  have hva : v ∉ a := fun h => (List.nodup_append.mp hnd).2.2 v h v List.mem_cons_self rfl
  have hvc : v ∉ c := (List.nodup_cons.mp (List.nodup_append.mp hnd).2.1).1
  let f := fun w => (p.items w).buff.toList ++ (p.items w).sqBuff.toList
  refine ⟨a.flatMap f ++ c.flatMap f, fun q hlive hitems => ?_⟩
  have hsame : ∀ l : List ℕ, v ∉ l →
      (l.flatMap fun w => (q.items w).buff.toList ++ (q.items w).sqBuff.toList) = l.flatMap f := fun l hl =>
    List.flatMap_congr fun w hw => by
      obtain ⟨hb, hq⟩ := hitems w fun hwv => hl (hwv ▸ hw)
      rw [hb, hq]
  rw [held, hlive, hac, List.flatMap_append, List.flatMap_cons, hsame a hva, hsame c hvc,
    ← List.append_assoc (q.items v).buff.toList]
  refine List.perm_append_comm.trans ?_
  rw [List.append_assoc]
  exact List.perm_append_comm.append_left _

theorem good_hand (hg : Good size p) : Hand size [] p :=
  ⟨hg.buffers.count_eq, hg.buffers.count_le, hg.buffers.perm⟩

theorem Hand.push (h : Hand size b.toList p) : Hand size [] (buffPush p b) := by
  obtain ⟨hc, hle⟩ := buffPush_count h.count_eq h.count_le b
  have heq : held (buffPush p b) = held p ∧ (buffPush p b).mallocs = p.mallocs := by
    rw [buffPush_eq]
    exact ⟨rfl, rfl⟩
  refine ⟨hc, hle, ?_⟩
  rw [heq.1, heq.2, List.nil_append]
  refine .trans ((buffPush_perm p b).append_right _) ?_
  rw [List.append_assoc]
  exact h.perm

theorem buffPop_nil (h : p.rootBuff = []) : buffPop p size =
    ({ p with mallocs := p.mallocs + 1 }, ⟨p.mallocs, size⟩) := by
  rw [buffPop, h]

theorem buffPop_cons {c : Buffer} {rest : List Buffer} (h : p.rootBuff = c :: rest) : buffPop p size =
    ({ p with rootBuff := rest, buffCount := p.buffCount - 1 }, c) := by
  rw [buffPop, h]

theorem Hand.pop (h : Hand size [] p) : Hand size [(buffPop p size).2] (buffPop p size).1 := by
  obtain ⟨hc, hle, hperm⟩ := h
  rcases hroot : p.rootBuff with _ | ⟨b, rest⟩
  · rw [buffPop_nil hroot]
    refine ⟨hc, hle, ?_⟩
    show ([(⟨p.mallocs, size⟩ : Buffer)] ++ (p.rootBuff ++ p.freed ++ held p)).Perm
      ((List.range (p.mallocs + 1)).map _)
    rw [List.range_succ, List.map_append, List.map_singleton]
    exact List.perm_append_comm.trans (hperm.append_right _)
  · rw [buffPop_cons hroot]
    rw [hroot] at hperm hc
    refine ⟨?_, ?_, hperm⟩
    · show p.buffCount - 1 = rest.length
      rw [hc, List.length_cons, Nat.add_sub_cancel]
    · show p.buffCount - 1 ≤ _
      omega

theorem buffPop_eq (p : Pool) (size : ℕ) : (buffPop p size).1 = { p with
    rootBuff := (buffPop p size).1.rootBuff
    buffCount := (buffPop p size).1.buffCount
    mallocs := (buffPop p size).1.mallocs } := by
  rw [buffPop]
  split <;> rfl

/-- An assignment to the two buffers of a slot. -/
def Reseats (f : Eval → Eval) : Prop := ∀ e, f e = { e with buff := (f e).buff, sqBuff := (f e).sqBuff }

theorem rebuffered_assign {f : Eval → Eval} (hf : Reseats f) (p : Pool) (v : ℕ) : Rebuffered p (assign p v f) := by
  refine ⟨rfl, fun w => ?_⟩
  have hself : (assign p v f).items v = f (p.items v) := Function.update_self _ _ _
  by_cases hw : w = v
  · rw [hw, hself]
    exact hf _
  · rw [show (assign p v f).items w = p.items w from Function.update_of_ne hw _ _]

theorem Rebuffered.trans {p'' : Pool} (h : Rebuffered p p') (h' : Rebuffered p' p'') : Rebuffered p p'' :=
  ⟨by rw [h'.pool, h.pool], fun w => by rw [h'.items, h.items]⟩

theorem rebuffered_buffPop (p : Pool) (size : ℕ) : Rebuffered p (buffPop p size).1 := by
  rw [buffPop_eq]
  exact ⟨rfl, fun _ => rfl⟩

theorem rebuffered_buffPush (p : Pool) (b : Option Buffer) : Rebuffered p (buffPush p b) := by
  rw [buffPush_eq]
  exact ⟨rfl, fun _ => rfl⟩

/-- An assignment that takes up the buffers `x` and gives the buffers `y` changes those in the pool so. -/
theorem held_assign {f : Eval → Eval} {x y : List Buffer} (hnd : (liveSlots p).Nodup) (hv : v ∈ liveSlots p)
    (hf : (y ++ ((f (p.items v)).buff.toList ++ (f (p.items v)).sqBuff.toList)).Perm
      (x ++ ((p.items v).buff.toList ++ (p.items v).sqBuff.toList))) :
    (y ++ held (assign p v f)).Perm (x ++ held p) := by
  obtain ⟨rest, hrest⟩ := held_split hnd hv
  have hself := hrest p rfl fun _ _ => ⟨rfl, rfl⟩
  have hset := hrest (assign p v f) rfl fun w hw => by
    rw [show (assign p v f).items w = p.items w from Function.update_of_ne hw _ _]
    exact ⟨rfl, rfl⟩
  rw [show (assign p v f).items v = f (p.items v) from Function.update_self _ _ _, ← List.append_assoc] at hset
  rw [← List.append_assoc] at hself
  refine (hset.append_left y).trans (.trans ?_ (hself.append_left x).symm)
  rw [← List.append_assoc y, ← List.append_assoc x]
  exact hf.append_right rest

theorem take_spec {f : Eval → Eval} (hg : Good size p) (hp : Pairs strict p) (hv : v ∈ liveSlots p) (hf : Reseats f)
    (hperm : ((f (p.items v)).buff.toList ++ (f (p.items v)).sqBuff.toList).Perm
      ([(buffPop p size).2] ++ ((p.items v).buff.toList ++ (p.items v).sqBuff.toList))) :
    Rebuffered p (assign (buffPop p size).1 v f) ∧ Adds size D k k p (assign (buffPop p size).1 v f) ∧
      Pairs strict (assign (buffPop p size).1 v f) := by
  have hpop := rebuffered_buffPop p size
  have hlive := hpop.liveSlots
  have hr := hpop.trans (rebuffered_assign hf (buffPop p size).1 v)
  have hitems : (buffPop p size).1.items = p.items := by rw [buffPop_eq]
  obtain ⟨hc, hle, hall⟩ := (good_hand hg).pop
  have hheld := held_assign (p := (buffPop p size).1) (f := f) (y := []) (hlive ▸ hg.slots.nodup) (hlive ▸ hv)
    (by rw [hitems]; exact hperm)
  refine ⟨hr, hr.spec hg ⟨hc, hle, ?_⟩ hp⟩
  refine .trans ?_ hall
  exact (hheld.append_left _).trans (List.perm_append_comm_assoc _ _ _)

theorem assign_buffPush (p : Pool) (v : ℕ) (b : Option Buffer) (f : Eval → Eval) :
    assign (buffPush p b) v f = buffPush (assign p v f) b := by
  cases b with
  | none => rfl
  | some b =>
    rw [buffPush, buffPush]
    by_cases hmax : MAX_BUFF_INP ≤ p.buffCount
    · rw [if_pos hmax, if_pos (show MAX_BUFF_INP ≤ (assign p v f).buffCount from hmax)]
      rfl
    · rw [if_neg hmax, if_neg (show ¬MAX_BUFF_INP ≤ (assign p v f).buffCount from hmax)]
      rfl

theorem put_spec {f : Eval → Eval} (hg : Good size p) (hp : Pairs strict p) (hv : v ∈ liveSlots p) (hf : Reseats f)
    (hperm : (b.toList ++ ((f (p.items v)).buff.toList ++ (f (p.items v)).sqBuff.toList)).Perm
      ((p.items v).buff.toList ++ (p.items v).sqBuff.toList)) :
    Adds size D k k p (assign (buffPush p b) v f) ∧ Pairs strict (assign (buffPush p b) v f) := by
  rw [assign_buffPush]
  obtain ⟨hc, hle, hall⟩ := good_hand hg
  have hheld := held_assign (f := f) (x := []) hg.slots.nodup hv hperm
  have hhand : Hand size b.toList (assign p v f) := by
    refine ⟨hc, hle, .trans ?_ hall⟩
    exact (List.perm_append_comm_assoc _ _ _).trans (hheld.append_left _)
  exact ((rebuffered_assign hf p v).trans (rebuffered_buffPush _ _)).spec hg hhand.push hp

theorem useBuff_spec (hg : Good size p) (hp : Pairs strict p) :
    Adds size D k k p (buffPpop p size).1 ∧ Pairs strict (buffPpop p size).1 := by
  have hpop := (good_hand hg).pop
  exact ((rebuffered_buffPop p size).trans (rebuffered_buffPush _ _)).spec hg
    (Hand.push (b := some (buffPop p size).2) hpop) hp

end Buffers

section TimerOps

variable {strict : Prop} {p : Pool} {size : ℕ} {D : ℤ} {k : List ℤ} {v : ℕ}

theorem retimed_spec (hg : Good size p) (hp : Pairs strict p) {tv : Links ℕ} {tvMs : ℕ → ℤ}
    (ht : ∃ l, Timers { p with tv := tv, tvMs := tvMs } l) (hd : ∀ w, tvMs w = p.tvMs w ∨ tvMs w < D) :
    Adds size D k k p { p with tv := tv, tvMs := tvMs } ∧ Pairs strict { p with tv := tv, tvMs := tvMs } := by
  have hs := hg.slots
  have hb := hg.buffers
  exact ⟨⟨.of_eq ⟨⟨hs.count_le, hs.links_lt, hs.links_inj, hs.index, hs.fd_pos, hs.modIter_le⟩, ht,
    ⟨hb.count_eq, hb.count_le, hb.perm⟩⟩ rfl (fun _ => ⟨rfl, rfl⟩) ⟨rfl, rfl, rfl, rfl⟩ hd, fun _ hw => hw⟩,
    hp.of_eq rfl fun _ _ => ⟨rfl, rfl⟩⟩

theorem removeTimer_spec (hD : 0 < D) (hg : Good size p) (hp : Pairs strict p) (v : ℕ) :
    Adds size D k k p (removeTimer p v) ∧ Pairs strict (removeTimer p v) := by
  obtain ⟨l, hl⟩ := hg.timers
  refine retimed_spec hg hp ⟨_, hl.removeTimer v⟩ fun w => ?_
  by_cases hw : w = v
  · right
    rw [hw, Function.update_self]
    exact hD
  · exact .inl (Function.update_of_ne hw _ _)

theorem setTimer_spec (hg : Good size p) (hp : Pairs strict p) (hv : v ∈ liveSlots p) {now ms : ℤ}
    (hpos : 0 < now + ms) (hD : now + ms < D) :
    Adds size D k k p (setTimer p v now ms) ∧ Pairs strict (setTimer p v now ms) := by
  by_cases hz : p.tvMs v = 0
  · obtain ⟨l, hl⟩ := hg.timers
    have hne : now + ms ≠ 0 := by omega
    obtain ⟨u, w, -, -, -, ht⟩ := hl.setTimer hg.slots hv hz hne
    rw [setTimer, if_neg (by simpa using hz)] at ht ⊢
    refine retimed_spec hg hp ⟨_, ht⟩ fun x => ?_
    by_cases hx : x = v
    · right
      rw [hx, Function.update_self]
      exact hD
    · exact .inl (Function.update_of_ne hx _ _)
  · rw [setTimer, if_pos hz]
    exact ⟨⟨.refl hg, fun _ hw => hw⟩, hp⟩

end TimerOps

/-! ### The steps of a callback -/

/-- The calls that leave a slot without its pair when they fail do not fail. -/
def Op.Steady : Op → Prop
  | .connect _ c => c.mod = true
  | .associate _ c => c.name = true
  | _ => True

section Steps

variable {strict : Prop} {p p' : Pool} {size : ℕ} {D start stop : ℤ} {v : ℕ}

theorem act_spec (hg : Good size p) (hp : Pairs strict p) (h0 : 0 ≤ start) (hD : stop + 2 ^ 31 ≤ D) (hle : start ≤ stop)
    {op : Op} (hok : op.Ok p start stop) (hs : strict → op.Steady) (h : act size p op = some p') :
    Adds size D [] [] p p' ∧ Pairs strict p' := by
  have hD0 : 0 < D := by omega
  cases op with
  | accept c opt ctl =>
    obtain rfl := Option.some.inj h
    exact onAccept_spec hD0 hg hok hp opt ctl
  | connect w c =>
    obtain ⟨hw, hcb, hf⟩ := hok
    rcases hcc : createConn p w c with ⟨q, b⟩
    have hq : q = p' := by rw [← Option.some.inj h, hcc]
    subst hq
    obtain ⟨ha, hfail, hdone⟩ := createConn_spec hD0 hg hf hw hcc
    refine ⟨ha, ?_⟩
    cases b with
    | false => exact (hfail rfl).2 strict hs hp
    | true =>
      obtain ⟨u, hu, hlive, hwu, hwcb, huw, hucb, hrest⟩ := hdone rfl
      have hne : w ≠ u := fun heq => hu (heq ▸ hw)
      refine hp.change [w, u] (fun x hx hxl y hy => ?_) (fun x hx => ?_) (fun x hx hxS => ?_) fun x hx _ => ?_
      · rcases List.mem_cons.mp hx with rfl | hx
        · rw [(hp x hxl).request hcb] at hy
          exact absurd hy (by simp)
        · exact absurd (List.mem_singleton.mp hx ▸ hxl) hu
      · simp only [List.mem_cons, List.not_mem_nil, or_false, not_or] at hx
        rw [hlive, List.mem_append]
        exact or_iff_left (by simpa using hx.2)
      · simp only [List.mem_cons, List.not_mem_nil, or_false, not_or] at hxS
        rw [hrest x hx hxS.1]
        exact ⟨rfl, rfl⟩
      · simp only [List.mem_cons, List.not_mem_nil, or_false] at hx
        rcases hx with rfl | rfl
        · exact .tunnel u (by simp [hlive]) hne hwu huw (.inr (.inr ⟨hwcb, hucb⟩))
        · exact .tunnel w (ha.mono w hw) (Ne.symm hne) huw hwu (.inr (.inl ⟨hucb, hwcb⟩))
  | associate w c =>
    obtain rfl := Option.some.inj h
    exact udpAssociate_spec hD0 hg hp hok.2.2 hok.1 hok.2.1 hs
  | established w => exact onConnect_spec hg hp hok.1 hok.2 h
  | useBuff =>
    obtain rfl := Option.some.inj h
    exact useBuff_spec hg hp
  | takeBuff w =>
    obtain rfl := Option.some.inj h
    refine (take_spec hg hp hok.1 (f := fun e => { e with buff := some (buffPop p size).2 }) (fun e => rfl) ?_).2
    rw [hok.2]
    exact .refl _
  | putBuff w =>
    obtain rfl := Option.some.inj h
    exact put_spec hg hp hok (fun e => rfl) (.refl _)
  | takeSqBuff w =>
    obtain rfl := Option.some.inj h
    refine (take_spec hg hp hok.1 (f := fun e => { e with sqBuff := some (buffPop p size).2 }) (fun e => rfl) ?_).2
    rw [hok.2]
    exact List.perm_append_comm.trans (by simp)
  | putSqBuff w =>
    obtain rfl := Option.some.inj h
    refine put_spec hg hp hok (fun e => rfl) ?_
    dsimp only
    rw [Option.toList_none, List.append_nil]
    exact List.perm_append_comm
  | startTimer w now ms =>
    obtain rfl := Option.some.inj h
    obtain ⟨hw, hlo, hhi, -, hmax, hpos⟩ := hok
    exact setTimer_spec hg hp hw hpos (by omega)
  | stopTimer w =>
    obtain rfl := Option.some.inj h
    exact removeTimer_spec hD0 hg hp w

theorem acts_spec (h0 : 0 ≤ start) (hD : stop + 2 ^ 31 ≤ D) (hle : start ≤ stop) {ops : List Op} :
    ∀ {p}, Good size p → Pairs strict p → ActsOk size start stop p ops → (strict → ∀ op ∈ ops, op.Steady) →
      acts size p ops = some p' → Adds size D [] [] p p' ∧ Pairs strict p' := by
  induction ops with
  | nil =>
    intro p hg hp _ _ h
    obtain rfl := Option.some.inj h
    exact ⟨⟨.refl hg, fun _ hw => hw⟩, hp⟩
  | cons op ops ih =>
    intro p hg hp hok hs h
    rw [acts, List.foldlM_cons] at h
    obtain ⟨q, hq, h⟩ := Option.bind_eq_some_iff.mp h
    obtain ⟨hop, hops⟩ := hok
    rw [hq] at hops
    obtain ⟨ha, hpq⟩ := act_spec hg hp h0 hD hle hop (fun hst => hs hst op List.mem_cons_self) hq
    obtain ⟨ha', hp'⟩ := ih ha.good hpq hops (fun hst op hop => hs hst op (List.mem_cons_of_mem _ hop)) h
    exact ⟨ha.trans ha', hp'⟩

/-- The client gets a buffer for what it sends again, if it has none. -/
theorem resend_spec (hg : Good size p) (hp : Pairs strict p) {client : ℕ} (hcl : client ∈ liveSlots p) {q : Pool}
    (hq : q = match (p.items client).sqBuff with
      | some sq =>
        if (p.items client).buff = none then setBuff (buffPop p sq.size).1 client (some (buffPop p sq.size).2)
        else p
      | none => p) : Rebuffered p q ∧ Adds size D [] [] p q ∧ Pairs strict q := by
  subst hq
  have hsame : Rebuffered p p ∧ Adds size D [] [] p p ∧ Pairs strict p :=
    ⟨⟨rfl, fun _ => rfl⟩, ⟨.refl hg, fun _ hw => hw⟩, hp⟩
  rcases hsq : (p.items client).sqBuff with _ | sq
  · exact hsame
  dsimp only
  by_cases hb : (p.items client).buff = none
  · rw [if_pos hb]
    have hsize : sq.size = size := by
      have hmem : sq ∈ held p := List.mem_flatMap.mpr ⟨client, hcl, by simp [hsq]⟩
      have hall := hg.buffers.perm.mem_iff.mp (List.mem_append_right _ hmem)
      obtain ⟨i, -, rfl⟩ := List.mem_map.mp hall
      rfl
    rw [hsize]
    refine take_spec hg hp hcl (f := fun e => { e with buff := some (buffPop p size).2 }) (fun e => rfl) ?_
    rw [hb]
    exact .refl _
  · rw [if_neg hb]
    exact hsame

/-- The old server `v` is cut off from its client and closed; the client has the new server `w`. -/
theorem replaced_spec (hD : 0 < D) {q r : Pool} {client : ℕ} (hp : Pairs strict q) (hg : Good size r)
    (hv : v ∈ liveSlots q) (hcl : client ∈ liveSlots q) (hvc : v ≠ client) (hpair : (q.items v).pair = some client)
    (hback : (q.items client).pair = some v) (hw : w ∉ liveSlots q) (hlive : liveSlots r = liveSlots q ++ [w])
    (hcw : (r.items client).pair = some w) (hccb : (r.items client).cb = .onIgnore)
    (hwc : (r.items w).pair = some client) (hwcb : (r.items w).cb = .onConnect)
    (hrest : ∀ x ∈ liveSlots q, x ≠ client → r.items x = q.items x) {r' : Pool}
    (hr' : r' = delEvent (setPair r v none) v) : Keeps size D [] [] r r' ∧ Pairs strict r' ∧
      ∀ x ∈ liveSlots q, x ∈ liveSlots r' ∨ x = v ∧ (r'.items x).fd = -1 := by
  have hvw : v ≠ w := fun heq => hw (heq ▸ hv)
  have hcw' : client ≠ w := fun heq => hw (heq ▸ hcl)
  have hrp := relinked_setPair r v none
  have hvr : ∀ x ∈ [v], x ∈ liveSlots (setPair r v none) := fun x hx => by
    rw [hrp.liveSlots, hlive, List.mem_singleton.mp hx]
    exact List.mem_append_left _ hv
  have hgr := hrp.good hg
  have halone : Group (setPair r v none) [v] := .alone (by rw [items_setPair_self])
  have hd := delEvent_spec hgr halone hvr
  rw [← hr'] at hd
  have hmem : ∀ x, x ∈ liveSlots r' ↔ (x ∈ liveSlots q ∨ x = w) ∧ x ≠ v := fun x => by
    rw [hd.mem_iff hgr.slots, hrp.liveSlots, hlive]
    simp
  have hitems : ∀ x, x ≠ v → (r'.items x).pair = (r.items x).pair ∧ (r'.items x).cb = (r.items x).cb :=
    fun x hx => by
      rw [hd.off x (by simpa using hx), items_setPair_ne _ hx]
      exact ⟨rfl, rfl⟩
  refine ⟨(relinked_keeps hrp hg).trans (hr' ▸ delEvent_keeps hD hgr halone hvr),
    hp.change [v, client, w] (fun x hx hxl y hy => ?_) (fun x hx => ?_) (fun x hx hxS => ?_) fun x hx hxl => ?_,
    fun x hx => ?_⟩
  · simp only [List.mem_cons, List.not_mem_nil, or_false] at hx
    rcases hx with rfl | rfl | rfl
    · rw [hpair, Option.some.injEq] at hy
      simp [hy]
    · rw [hback, Option.some.injEq] at hy
      simp [hy]
    · exact absurd hxl hw
  · simp only [List.mem_cons, List.not_mem_nil, or_false, not_or] at hx
    rw [hmem]
    simp [hx]
  · simp only [List.mem_cons, List.not_mem_nil, or_false, not_or] at hxS
    rw [(hitems x hxS.1).1, (hitems x hxS.1).2, hrest x hx hxS.2.1]
    exact ⟨rfl, rfl⟩
  · have hxv := ((hmem x).mp hxl).2
    simp only [List.mem_cons, List.not_mem_nil, or_false] at hx
    rcases hx with rfl | rfl | rfl
    · exact absurd rfl hxv
    · refine .tunnel w ((hmem w).mpr ⟨.inr rfl, Ne.symm hvw⟩) hcw' ?_ ?_ (.inr (.inr ⟨?_, ?_⟩))
      · rw [(hitems x hxv).1, hcw]
      · rw [(hitems w (Ne.symm hvw)).1, hwc]
      · rw [(hitems x hxv).2, hccb]
      · rw [(hitems w (Ne.symm hvw)).2, hwcb]
    · refine .tunnel client ((hmem client).mpr ⟨.inl hcl, Ne.symm hvc⟩) (Ne.symm hcw') ?_ ?_ (.inr (.inl ⟨?_, ?_⟩))
      · rw [(hitems x hxv).1, hwc]
      · rw [(hitems client (Ne.symm hvc)).1, hcw]
      · rw [(hitems x hxv).2, hwcb]
      · rw [(hitems client (Ne.symm hvc)).2, hccb]
  · by_cases hxv : x = v
    · exact .inr ⟨hxv, (hd.gone x (by simp [hxv])).1⟩
    · exact .inl ((hmem x).mpr ⟨.inl hx, hxv⟩)

/-- A client that gets a new server keeps its slot; the old server is closed. -/
theorem reconnect_spec (hD : 0 < D) (hg : Good size p) (hp : Pairs strict p) (hv : v ∈ liveSlots p)
    (hcb : (p.items v).cb = .onConnect ∨ (p.items v).cb = .onTunnel) {c : ConnCalls} (hf : c.Fresh p)
    (hs : strict → c.mod = true) {b : Bool} (h : reconnect p v c = some (p', b)) :
    Keeps size D [] [] p p' ∧ Pairs strict p' ∧
      ∀ w ∈ liveSlots p, w ∈ liveSlots p' ∨ w = v ∧ (p'.items w).fd = -1 := by
  obtain ⟨client, hclient, h⟩ := Option.map_eq_some_iff.mp h
  cases hp v hv with
  | alone hpair => exact absurd (hclient.symm.trans hpair) (by simp)
  | ring w u _ _ _ _ _ _ _ _ hring => rcases hcb with hcb | hcb <;> rw [hcb] at hring <;> simp at hring
  | tunnel c' hcl hvc hpair hback =>
    obtain rfl := Option.some.inj (hclient.symm.trans hpair)
    dsimp only at h
    obtain ⟨q, hq⟩ : ∃ q, q = (match (p.items client).sqBuff with
        | some sq =>
          if (p.items client).buff = none then setBuff (buffPop p sq.size).1 client (some (buffPop p sq.size).2)
          else p
        | none => p) := ⟨_, rfl⟩
    obtain ⟨hrq, haq, hpq⟩ := resend_spec (D := D) hg hp hcl hq
    have h : (match createConn q client c with
        | (p, false) => (p, false)
        | (p, true) => (delEvent (setPair p v none) v, true)) = (p', b) := by rw [hq]; exact h
    have hlq := hrq.liveSlots
    have hfq : c.Fresh q := fun fd hfd => by
      have hfds : liveFds q = liveFds p := by
        rw [liveFds, hlq]
        exact List.map_congr_left fun w _ => by rw [hrq.items w]
      exact ⟨(hf fd hfd).1, hfds ▸ (hf fd hfd).2⟩
    rcases hcc : createConn q client c with ⟨r, ok⟩
    obtain ⟨har, hfail, hdone⟩ := createConn_spec hD haq.good hfq (hlq ▸ hcl) hcc
    rw [hcc] at h
    cases ok with
    | false =>
      obtain ⟨rfl, rfl⟩ := Prod.mk.inj h
      exact ⟨(haq.trans har).toKeeps, (hfail rfl).2 strict hs hpq, fun w hw => .inl ((haq.trans har).mono w hw)⟩
    | true =>
      obtain ⟨rfl, rfl⟩ := Prod.mk.inj h
      obtain ⟨w, hw, hlive, hcw, hccb, hwc, hwcb, hrest⟩ := hdone rfl
      obtain ⟨hkr, hpr, hold⟩ := replaced_spec hD hpq har.good (hlq ▸ hv) (hlq ▸ hcl) hvc
        (by rw [hrq.items v]; exact hpair) (by rw [hrq.items client]; exact hback) hw hlive hcw hccb hwc hwcb
        hrest rfl
      exact ⟨(haq.trans har).toKeeps.trans hkr, hpr, fun x hx => hold x (hlq ▸ hx)⟩

end Steps

end BypassVpn.Ciadpi.Proxy
