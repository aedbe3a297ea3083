import Mathlib.Data.List.Perm.Basic
import Mathlib.Data.List.Perm.Subperm
import Mathlib.Data.List.Nodup
import Mathlib.Logic.Equiv.Basic
import Mathlib.Tactic.SplitIfs
import BypassVpn.Lib.DoublyLinked

/-!
# `conev.c`: the pool of events

The connections of the engine are the slots of an array. `links` is a permutation of the slots, the ones in
use in front; a slot that is given back changes places with the last one in use. Memory that `init_pool`
leaves uninitialised is zero here: it is cleared before it is read. What the code calls outside is recorded:
`opened`, `closed`, `freed`, `mallocs`; and `uses`, how often a slot was given out.

* `Pool`, `addEvent`, `delEvent`, `setTimer`, `removeTimer`, `buffPop`, `buffPush`, `buffPpop`.
* `Slots`, `Timers`, `Buffers`, `Pairs`: what holds of the slots, the list of timers, the buffers and the
  pairing.
* `addEvent_spec`, `delOne_spec`, **`delEvent_spec`**: a connection is closed with those it is paired with,
  each once.
-/

namespace BypassVpn.Ciadpi.Conev

open DoublyLinked

/-- How many buffers a pool keeps. -/
def MAX_BUFF_INP : ℕ := 8

/-- A `struct buffer`, by the number of its allocation. -/
structure Buffer where
  id : ℕ
  size : ℕ
  deriving DecidableEq

/-- The callbacks of `proxy.c`. -/
inductive Evcb
  | onAccept
  | onRequest
  | onIgnore
  | onConnect
  | onTunnel
  | onUdpTunnel
  deriving DecidableEq

/-- A `struct eval`; its timer links are `Pool.tv`. -/
structure Eval where
  fd : ℤ
  index : ℕ
  modIter : ℕ
  cb : Evcb
  pair : Option ℕ
  buff : Option Buffer
  sqBuff : Option Buffer
  deriving DecidableEq

/-- Cleared memory; `add_event` sets the callback. -/
def Eval.zero : Eval := ⟨0, 0, 0, .onAccept, none, none, none⟩

/-- A `struct poolhd`. -/
structure Pool where
  max : ℕ
  count : ℕ
  links : ℕ → ℕ
  items : ℕ → Eval
  iters : ℕ
  /-- `tv_next` and `tv_prev` of the slots, `tv_start` and `tv_end`. -/
  tv : Links ℕ
  tvMs : ℕ → ℤ
  rootBuff : List Buffer
  buffCount : ℕ
  opened : List ℤ
  closed : List ℤ
  freed : List Buffer
  mallocs : ℕ
  uses : ℕ → ℕ

/-- `init_pool`: no slot in use, every link to itself. -/
def initPool (count : ℕ) : Pool where
  max := count
  count := 0
  links := id
  items := fun _ => .zero
  iters := 0
  tv := ofList []
  tvMs := fun _ => 0
  rootBuff := []
  buffCount := 0
  opened := []
  closed := []
  freed := []
  mallocs := 0
  uses := fun _ => 0

/-! ### Buffers -/

/-- `buff_pop`: a kept buffer, or a new one. -/
def buffPop (p : Pool) (size : ℕ) : Pool × Buffer :=
  match p.rootBuff with
  | b :: rest => ({ p with rootBuff := rest, buffCount := p.buffCount - 1 }, b)
  | [] => ({ p with mallocs := p.mallocs + 1 }, ⟨p.mallocs, size⟩)

/-- `buff_push`: the buffer is kept, or freed where enough are. -/
def buffPush (p : Pool) (b : Option Buffer) : Pool :=
  match b with
  | none => p
  | some b =>
    if MAX_BUFF_INP ≤ p.buffCount then { p with freed := b :: p.freed }
    else { p with rootBuff := b :: p.rootBuff, buffCount := p.buffCount + 1 }

/-- A buffer that stays in the pool: for use within one call. -/
def buffPpop (p : Pool) (size : ℕ) : Pool × Buffer :=
  let (p, b) := buffPop p size
  (buffPush p (some b), b)

theorem buffPush_eq (p : Pool) (b : Option Buffer) : buffPush p b =
    { p with
      rootBuff := (buffPush p b).rootBuff
      buffCount := (buffPush p b).buffCount
      freed := (buffPush p b).freed } := by
  cases b with
  | none => rfl
  | some b =>
    rw [buffPush]
    split_ifs <;> rfl

/-! ### Timers -/

/-- `remove_timer`: the slot leaves the list of timers. -/
def removeTimer (p : Pool) (v : ℕ) : Pool :=
  { p with tv := remove p.tv v, tvMs := Function.update p.tvMs v 0 }

/-- `set_timer` at the time `now`. -/
def setTimer (p : Pool) (v : ℕ) (now ms : ℤ) : Pool :=
  if p.tvMs v ≠ 0 then p
  else
    let tvMs := Function.update p.tvMs v (now + ms)
    let ends := back p.tv (fun j => decide (tvMs v ≤ tvMs j)) p.max p.tv.last none
    { p with tvMs := tvMs, tv := insert p.tv v ends.1 ends.2 }

/-! ### Slots -/

/-- `add_event`; `ctl` says whether `epoll_ctl` succeeds. -/
def addEvent (p : Pool) (cb : Evcb) (fd : ℤ) (ctl : Bool) : Pool × Option ℕ :=
  if p.max ≤ p.count then (p, none)
  else
    let v := p.links p.count
    let p := { p with
      items := Function.update p.items v { Eval.zero with modIter := p.iters, fd := fd, index := p.count, cb := cb }
      tv := { p.tv with next := Function.update p.tv.next v none, prev := Function.update p.tv.prev v none }
      tvMs := Function.update p.tvMs v 0 }
    if ctl then ({ p with count := p.count + 1, uses := Function.update p.uses v (p.uses v + 1) }, some v)
    else (p, none)

/-- The first half of `del_event`: the buffers go back, the descriptor is closed, the timer is taken out. -/
def release (p : Pool) (v : ℕ) : Pool :=
  let e := p.items v
  let p := buffPush p e.buff
  let p := buffPush p e.sqBuff
  removeTimer { p with
    items := Function.update p.items v { e with buff := none, sqBuff := none, fd := -1, modIter := p.iters }
    closed := p.closed ++ [e.fd] } v

/-- `del_event` takes the slot out: the last one in use comes in its place. -/
def swapOut (p : Pool) (v : ℕ) : Pool :=
  let count := p.count - 1
  let ev := p.links count
  if ev = v then { p with count := count }
  else
    let index := (p.items v).index
    { p with
      count := count
      links := Function.update (Function.update p.links index ev) count v
      items := Function.update p.items ev { p.items ev with index := index } }

/-- `val->pair = pair`. -/
def setPair (p : Pool) (v : ℕ) (pair : Option ℕ) : Pool :=
  { p with items := Function.update p.items v { p.items v with pair := pair } }

/-- `del_event`, at most `n` calls deep. -/
def delFrom : ℕ → Pool → ℕ → Pool
  | 0, p, _ => p
  | n + 1, p, v =>
    if (p.items v).fd = -1 then p
    else
      let p := swapOut (release p v) v
      match (p.items v).pair with
      | none => p
      | some e =>
        let p := if (p.items e).pair = some v then setPair p e none else p
        delFrom n (setPair p v none) e

/-- Every call but the last takes one out of `count`. -/
def delEvent (p : Pool) (v : ℕ) : Pool := delFrom (p.count + 1) p v

/-! ### The slots in use -/

/-- The slots in use, in the order of `links`. -/
def liveSlots (p : Pool) : List ℕ := (List.range p.count).map p.links

/-- The descriptors of the slots in use. -/
def liveFds (p : Pool) : List ℤ := (liveSlots p).map fun v => (p.items v).fd

/-- `links` is a permutation of the slots; each slot in use knows its place and has an open descriptor. -/
structure Slots (p : Pool) : Prop where
  count_le : p.count ≤ p.max
  links_lt : ∀ i < p.max, p.links i < p.max
  links_inj : ∀ i < p.max, ∀ j < p.max, p.links i = p.links j → i = j
  index : ∀ i < p.count, (p.items (p.links i)).index = i
  fd_pos : ∀ v ∈ liveSlots p, 0 < (p.items v).fd
  modIter_le : ∀ v ∈ liveSlots p, (p.items v).modIter ≤ p.iters

theorem mem_liveSlots {p : Pool} {v : ℕ} : v ∈ liveSlots p ↔ ∃ i < p.count, p.links i = v := by
  simp [liveSlots]

theorem Slots.init (count : ℕ) : Slots (initPool count) :=
  ⟨Nat.zero_le _, fun _ h => h, fun _ _ _ _ h => h, fun _ h => absurd h (Nat.not_lt_zero _),
    by simp [liveSlots, initPool], by simp [liveSlots, initPool]⟩

section Spec

variable {p : Pool} {v : ℕ}

theorem Slots.nodup (h : Slots p) : (liveSlots p).Nodup := by
  refine List.Nodup.map_on (fun i hi j hj hij => ?_) List.nodup_range
  rw [List.mem_range] at hi hj
  exact h.links_inj i (Nat.lt_of_lt_of_le hi h.count_le) j (Nat.lt_of_lt_of_le hj h.count_le) hij

theorem Slots.next_not_live (h : Slots p) (hlt : p.count < p.max) : p.links p.count ∉ liveSlots p := by
  intro hv
  obtain ⟨i, hi, hij⟩ := mem_liveSlots.mp hv
  exact absurd (h.links_inj i (by omega) p.count hlt hij) (by omega)

theorem Slots.index_lt (h : Slots p) (hv : v ∈ liveSlots p) :
    (p.items v).index < p.count ∧ p.links (p.items v).index = v := by
  obtain ⟨i, hi, rfl⟩ := mem_liveSlots.mp hv
  rw [h.index i hi]
  exact ⟨hi, rfl⟩

/-! ### Taking one slot out -/

/-- One turn of `del_event`. -/
def delOne (p : Pool) (v : ℕ) : Pool := swapOut (release p v) v

/-- The item of the slot after its release. -/
def Eval.released (e : Eval) (iters : ℕ) : Eval :=
  { e with buff := none, sqBuff := none, fd := -1, modIter := iters }

theorem release_eq (p : Pool) (v : ℕ) : release p v =
    { p with
      rootBuff := (buffPush (buffPush p (p.items v).buff) (p.items v).sqBuff).rootBuff
      buffCount := (buffPush (buffPush p (p.items v).buff) (p.items v).sqBuff).buffCount
      freed := (buffPush (buffPush p (p.items v).buff) (p.items v).sqBuff).freed
      items := Function.update p.items v ((p.items v).released p.iters)
      closed := p.closed ++ [(p.items v).fd]
      tv := remove p.tv v
      tvMs := Function.update p.tvMs v 0 } := by
  rw [release, buffPush_eq (buffPush p _), buffPush_eq p]
  rfl

theorem delOne_eq (p : Pool) (v : ℕ) : delOne p v =
    { release p v with
      count := p.count - 1
      links := (delOne p v).links
      items := (delOne p v).items } := by
  rw [delOne, swapOut, release_eq]
  dsimp only
  split_ifs <;> rfl

theorem delOne_fields (p : Pool) (v : ℕ) :
    (delOne p v).items = (if p.links (p.count - 1) = v then Function.update p.items v ((p.items v).released p.iters)
      else Function.update (Function.update p.items v ((p.items v).released p.iters)) (p.links (p.count - 1))
        { p.items (p.links (p.count - 1)) with index := (p.items v).index }) ∧
    (delOne p v).links = if p.links (p.count - 1) = v then p.links
      else Function.update (Function.update p.links (p.items v).index (p.links (p.count - 1))) (p.count - 1) v := by
  rw [delOne, swapOut, release_eq]
  dsimp only
  split_ifs with hev
  · exact ⟨rfl, rfl⟩
  · refine ⟨?_, ?_⟩
    · show Function.update _ _ _ = _
      rw [Function.update_of_ne hev, Function.update_self, Eval.released]
    · show Function.update (Function.update p.links (Function.update p.items v _ v).index _) _ v = _
      rw [Function.update_self, Eval.released]

theorem items_delOne_self (p : Pool) (v : ℕ) : (delOne p v).items v = (p.items v).released p.iters := by
  rw [(delOne_fields p v).1]
  split_ifs with hev
  · exact Function.update_self _ _ _
  · rw [Function.update_of_ne (Ne.symm hev), Function.update_self]

theorem items_delOne_ne (p : Pool) {v w : ℕ} (hw : w ≠ v) : (delOne p v).items w =
    { p.items w with index := if w = p.links (p.count - 1) then (p.items v).index else (p.items w).index } := by
  rw [(delOne_fields p v).1]
  split_ifs with hev hl hl
  · exact absurd (hl.trans hev) hw
  · rw [Function.update_of_ne hw]
  · rw [hl, Function.update_self]
  · rw [Function.update_of_ne hl, Function.update_of_ne hw]

/-- The place of the slot and the last place in use are exchanged. -/
theorem links_delOne (h : Slots p) (hv : v ∈ liveSlots p) (j : ℕ) :
    (delOne p v).links j = p.links (Equiv.swap (p.items v).index (p.count - 1) j) := by
  obtain ⟨hi, hiv⟩ := h.index_lt hv
  rw [(delOne_fields p v).2]
  split_ifs with hev
  · have hic : (p.items v).index = p.count - 1 :=
      h.links_inj _ (by have := h.count_le; omega) _ (by have := h.count_le; omega) (hiv.trans hev.symm)
    rw [hic, Equiv.swap_self]
    rfl
  · rw [Equiv.swap_apply_def]
    by_cases hc : j = p.count - 1
    · subst hc
      rw [Function.update_self]
      by_cases hci : p.count - 1 = (p.items v).index
      · rw [if_pos hci, hci, hiv]
      · rw [if_neg hci, if_pos rfl, hiv]
    · rw [Function.update_of_ne hc, if_neg hc]
      by_cases hji : j = (p.items v).index
      · rw [hji, Function.update_self, if_pos rfl]
      · rw [Function.update_of_ne hji, if_neg hji]

theorem mem_liveSlots_delOne (h : Slots p) (hv : v ∈ liveSlots p) (w : ℕ) :
    w ∈ liveSlots (delOne p v) ↔ w ∈ liveSlots p ∧ w ≠ v := by
  obtain ⟨hi, hiv⟩ := h.index_lt hv
  have hle := h.count_le
  have hcount : (delOne p v).count = p.count - 1 := by rw [delOne_eq]
  set i := (p.items v).index
  set c := p.count - 1
  have hswap : ∀ j, j < p.count → Equiv.swap i c j < p.count := fun j hj => by
    rw [Equiv.swap_apply_def]
    split_ifs <;> omega
  rw [mem_liveSlots, mem_liveSlots, hcount]
  simp only [links_delOne h hv]
  constructor
  · rintro ⟨j, hj, rfl⟩
    refine ⟨⟨_, hswap j (by omega), rfl⟩, fun heq => ?_⟩
    -- only the last place holds the slot that was taken out
    have hij : Equiv.swap i c j = i :=
      h.links_inj _ (by have := hswap j (by omega); omega) _ (by omega) (heq.trans hiv.symm)
    rw [Equiv.swap_apply_eq_iff, Equiv.swap_apply_left] at hij
    omega
  · rintro ⟨⟨j, hj, rfl⟩, hne⟩
    have hji : j ≠ i := fun hji => hne (hji ▸ hiv)
    refine ⟨Equiv.swap i c j, ?_, by rw [Equiv.swap_apply_self]⟩
    have hjc : Equiv.swap i c j ≠ c := fun hjc => by
      rw [Equiv.swap_apply_eq_iff, Equiv.swap_apply_right] at hjc
      exact hji hjc
    have := hswap j hj
    omega

theorem Slots.delOne (h : Slots p) (hv : v ∈ liveSlots p) : Slots (delOne p v) := by
  obtain ⟨hi, hiv⟩ := h.index_lt hv
  have hle := h.count_le
  have hcount : (Conev.delOne p v).count = p.count - 1 := by rw [delOne_eq]
  have hmax : (Conev.delOne p v).max = p.max := by rw [delOne_eq, release_eq]
  have hiters : (Conev.delOne p v).iters = p.iters := by rw [delOne_eq, release_eq]
  have hswap : ∀ n, p.count ≤ n → ∀ j < n, Equiv.swap (p.items v).index (p.count - 1) j < n := fun n hn j hj => by
    rw [Equiv.swap_apply_def]
    split_ifs <;> omega
  refine ⟨by omega, fun j hj => ?_, fun j hj k hk hjk => ?_, fun j hj => ?_, fun w hw => ?_, fun w hw => ?_⟩
  · rw [links_delOne h hv, hmax]
    exact h.links_lt _ (hswap _ hle j (hmax ▸ hj))
  · rw [links_delOne h hv, links_delOne h hv] at hjk
    exact (Equiv.swap _ _).injective (h.links_inj _ (hswap _ hle j (hmax ▸ hj)) _ (hswap _ hle k (hmax ▸ hk)) hjk)
  · rw [hcount] at hj
    have hlive : (Conev.delOne p v).links j ∈ liveSlots (Conev.delOne p v) :=
      mem_liveSlots.mpr ⟨j, by omega, rfl⟩
    have hne := ((mem_liveSlots_delOne h hv _).mp hlive).2
    rw [items_delOne_ne p hne, links_delOne h hv]
    dsimp only
    rw [Equiv.swap_apply_def]
    by_cases hji : j = (p.items v).index
    · rw [if_pos hji, if_pos rfl, hji]
    · have hjc : ¬j = p.count - 1 := by omega
      have hlast : p.links j ≠ p.links (p.count - 1) := fun heq =>
        hjc (h.links_inj j (by omega) _ (by omega) heq)
      rw [if_neg hji, if_neg hjc, if_neg hlast, h.index j (by omega)]
  · obtain ⟨hwp, hne⟩ := (mem_liveSlots_delOne h hv w).mp hw
    rw [items_delOne_ne p hne]
    exact h.fd_pos w hwp
  · obtain ⟨hwp, hne⟩ := (mem_liveSlots_delOne h hv w).mp hw
    rw [items_delOne_ne p hne, hiters]
    exact h.modIter_le w hwp

theorem perm_liveSlots_delOne (h : Slots p) (hv : v ∈ liveSlots p) :
    (v :: liveSlots (delOne p v)).Perm (liveSlots p) := by
  have hmem := mem_liveSlots_delOne h hv
  refine (List.perm_ext_iff_of_nodup (List.nodup_cons.mpr ⟨fun hv' => ?_, (h.delOne hv).nodup⟩) h.nodup).mpr
    fun w => ?_
  · exact ((hmem v).mp hv').2 rfl
  · rw [List.mem_cons, hmem]
    constructor
    · rintro (rfl | ⟨hw, _⟩)
      · exact hv
      · exact hw
    · intro hw
      by_cases hwv : w = v
      · exact .inl hwv
      · exact .inr ⟨hw, hwv⟩

end Spec

/-! ### The list of timers -/

/-- The timer list is `l`: the slots with a deadline, in the order of the deadlines. -/
structure Timers (p : Pool) (l : List ℕ) : Prop where
  tv_eq : p.tv = ofList l
  nodup : l.Nodup
  live : ∀ v ∈ l, v ∈ liveSlots p
  mem_iff : ∀ v, v ∈ l ↔ p.tvMs v ≠ 0
  sorted : l.Pairwise fun a b => p.tvMs a ≤ p.tvMs b

section Timers

variable {p : Pool} {l : List ℕ} {v : ℕ}

theorem Timers.init (count : ℕ) : Timers (initPool count) [] :=
  ⟨rfl, List.nodup_nil, by simp, by simp [initPool], .nil⟩

theorem Timers.erase (h : Timers p l) (v : ℕ) : remove p.tv v = ofList (l.erase v) ∧
    (∀ w, w ∈ l.erase v ↔ Function.update p.tvMs v 0 w ≠ 0) ∧
    (l.erase v).Pairwise fun a b => Function.update p.tvMs v 0 a ≤ Function.update p.tvMs v 0 b := by
  have hmem : ∀ w, w ∈ l.erase v ↔ w ≠ v ∧ w ∈ l := fun w => h.nodup.mem_erase_iff
  refine ⟨?_, fun w => ?_, ?_⟩
  · rw [h.tv_eq]
    by_cases hv : v ∈ l
    · obtain ⟨a, b, rfl⟩ := List.append_of_mem hv
      have hva : v ∉ a := fun hva => (List.nodup_append.mp h.nodup).2.2 v hva v List.mem_cons_self rfl
      rw [remove_ofList h.nodup, List.erase_append_right _ hva, List.erase_cons_head]
    · rw [remove_ofList_of_not_mem hv, List.erase_of_not_mem hv]
  · rw [hmem]
    by_cases hw : w = v
    · rw [hw, Function.update_self]
      simp
    · rw [Function.update_of_ne hw, h.mem_iff]
      simp [hw]
  · refine (h.sorted.sublist List.erase_sublist).imp_of_mem fun ha hb hab => ?_
    rwa [Function.update_of_ne ((hmem _).mp ha).1, Function.update_of_ne ((hmem _).mp hb).1]

theorem Timers.removeTimer (h : Timers p l) (v : ℕ) : Timers (removeTimer p v) (l.erase v) := by
  obtain ⟨htv, hmem, hsorted⟩ := h.erase v
  exact ⟨htv, h.nodup.erase v, fun w hw => h.live w (List.mem_of_mem_erase hw), hmem, hsorted⟩

theorem Timers.delOne (h : Timers p l) (hs : Slots p) (hv : v ∈ liveSlots p) :
    Timers (delOne p v) (l.erase v) := by
  obtain ⟨htv, hmem, hsorted⟩ := h.erase v
  have heq : (Conev.delOne p v).tv = remove p.tv v ∧ (Conev.delOne p v).tvMs = Function.update p.tvMs v 0 := by
    rw [delOne_eq, release_eq]
    exact ⟨rfl, rfl⟩
  refine ⟨heq.1.trans htv, h.nodup.erase v, fun w hw => ?_, ?_, ?_⟩
  · obtain ⟨hne, hw⟩ := h.nodup.mem_erase_iff.mp hw
    exact (mem_liveSlots_delOne hs hv w).mpr ⟨h.live w hw, hne⟩
  · rw [heq.2]
    exact hmem
  · rw [heq.2]
    exact hsorted

/-- In a sorted list the nodes in front of the longest tail with `t ≤ f` have `f < t`. -/
theorem lt_of_mem_rdropWhile {f : ℕ → ℤ} {t : ℤ} {l : List ℕ} (h : l.Pairwise fun a b => f a ≤ f b) :
    ∀ x ∈ l.rdropWhile fun j => decide (t ≤ f j), f x < t := by
  induction l using List.reverseRecOn with
  | nil => simp
  | append_singleton l a ih =>
    obtain ⟨hl, -, hla⟩ := List.pairwise_append.mp h
    rw [List.rdropWhile_concat]
    split_ifs with ha
    · exact ih hl
    · have ha : f a < t := by simpa using ha
      intro x hx
      rcases List.mem_append.mp hx with hx | hx
      · have hxa := hla x hx a List.mem_cons_self
        omega
      · exact List.mem_singleton.mp hx ▸ ha

/-- **A deadline takes its place in the order**, in front of those that are the same. -/
theorem Timers.setTimer (h : Timers p l) (hs : Slots p) (hv : v ∈ liveSlots p) (hz : p.tvMs v = 0) {now ms : ℤ}
    (ht : now + ms ≠ 0) : ∃ u w, l = u ++ w ∧ (∀ x ∈ u, p.tvMs x < now + ms) ∧ (∀ x ∈ w, now + ms ≤ p.tvMs x) ∧
      Timers (setTimer p v now ms) (u ++ v :: w) := by
  have hvl : v ∉ l := fun hvl => (h.mem_iff v).mp hvl hz
  set f := Function.update p.tvMs v (now + ms) with hf
  have hfv : f v = now + ms := Function.update_self _ _ _
  have hfx : ∀ x ∈ l, f x = p.tvMs x := fun x hx =>
    Function.update_of_ne (fun hxv : x = v => hvl (hxv ▸ hx)) _ _
  have hsorted : l.Pairwise fun a b => f a ≤ f b :=
    h.sorted.imp_of_mem fun ha hb hab => by rwa [hfx _ ha, hfx _ hb]
  have hlen : l.length ≤ p.max := by
    have hsub := (h.nodup.subperm h.live).length_le
    rw [liveSlots, List.length_map, List.length_range] at hsub
    exact hsub.trans hs.count_le
  -- the walk ends between the two parts
  have hback := back_ofList (q := fun j => decide (now + ms ≤ f j)) [] (l := l) (k := p.max)
    (by simpa using h.nodup) hlen (by simp)
  have hsplit := List.rdropWhile_append_rtakeWhile (p := fun j => decide (now + ms ≤ f j)) (l := l)
  have hu := lt_of_mem_rdropWhile (t := now + ms) hsorted
  have hw : ∀ x ∈ l.rtakeWhile fun j => decide (now + ms ≤ f j), now + ms ≤ f x := fun x hx => by
    have hq := List.mem_rtakeWhile_imp hx
    simpa using hq
  rw [List.append_nil, List.head?_nil] at hback
  generalize l.rdropWhile _ = u at *
  generalize l.rtakeWhile _ = w at *
  have hnd : (u ++ w).Nodup := hsplit ▸ h.nodup
  have hvn : v ∉ u ++ w := hsplit ▸ hvl
  have hperm : (u ++ v :: w).Perm (v :: l) := hsplit ▸ List.perm_middle
  have heq : Conev.setTimer p v now ms = { p with tvMs := f, tv := ofList (u ++ v :: w) } := by
    have hback' : back p.tv (fun j => decide (f v ≤ f j)) p.max p.tv.last none = (u.getLast?, w.head?) := by
      rw [hfv, h.tv_eq]
      exact hback
    rw [Conev.setTimer, if_neg (by simpa using hz)]
    dsimp only
    rw [hback', h.tv_eq, ← hsplit, insert_ofList hnd hvn]
  refine ⟨u, w, hsplit.symm, fun x hx => ?_, fun x hx => ?_, ?_⟩
  · rw [← hfx x (hsplit ▸ List.mem_append_left w hx)]
    exact hu x hx
  · rw [← hfx x (hsplit ▸ List.mem_append_right u hx)]
    exact hw x hx
  rw [heq]
  refine ⟨rfl, hperm.nodup_iff.mpr (List.nodup_cons.mpr ⟨hvl, h.nodup⟩), fun x hx => ?_, fun x => ?_, ?_⟩
  · rcases List.mem_cons.mp (hperm.mem_iff.mp hx) with rfl | hx
    · exact hv
    · exact h.live x hx
  · show _ ↔ f x ≠ 0
    rw [hperm.mem_iff, List.mem_cons]
    by_cases hx : x = v
    · simp [hx, hfv, ht]
    · rw [hf, Function.update_of_ne hx, h.mem_iff]
      simp [hx]
  · show (u ++ v :: w).Pairwise fun a b => f a ≤ f b
    obtain ⟨hpu, hpw, huw⟩ := List.pairwise_append.mp (hsplit.symm ▸ hsorted)
    refine List.pairwise_append.mpr ⟨hpu, List.pairwise_cons.mpr ⟨fun x hx => ?_, hpw⟩, fun x hx y hy => ?_⟩
    · rw [hfv]
      exact hw x hx
    · rcases List.mem_cons.mp hy with rfl | hy
      · rw [hfv]
        have := hu x hx
        omega
      · exact huw x hx y hy

end Timers

/-! ### The buffers -/

/-- The buffers of the slots in use. -/
def held (p : Pool) : List Buffer :=
  (liveSlots p).flatMap fun v => (p.items v).buff.toList ++ (p.items v).sqBuff.toList

/-- Every buffer allocated so far is in one place, and all have one size. -/
structure Buffers (size : ℕ) (p : Pool) : Prop where
  count_eq : p.buffCount = p.rootBuff.length
  count_le : p.buffCount ≤ MAX_BUFF_INP
  perm : (p.rootBuff ++ p.freed ++ held p).Perm ((List.range p.mallocs).map fun i => ⟨i, size⟩)

section Buffers

variable {p : Pool} {size : ℕ} {v : ℕ}

theorem Buffers.init (size count : ℕ) : Buffers size (initPool count) :=
  ⟨rfl, Nat.zero_le _, .nil⟩

theorem buffPush_count (hc : p.buffCount = p.rootBuff.length) (hle : p.buffCount ≤ MAX_BUFF_INP) (b : Option Buffer) :
    (buffPush p b).buffCount = (buffPush p b).rootBuff.length ∧ (buffPush p b).buffCount ≤ MAX_BUFF_INP := by
  cases b with
  | none => exact ⟨hc, hle⟩
  | some b =>
    rw [buffPush]
    split_ifs with hmax
    · exact ⟨hc, hle⟩
    · exact ⟨congrArg (· + 1) hc, by show p.buffCount + 1 ≤ _; omega⟩

theorem buffPush_perm (p : Pool) (b : Option Buffer) :
    ((buffPush p b).rootBuff ++ (buffPush p b).freed).Perm (b.toList ++ (p.rootBuff ++ p.freed)) := by
  cases b with
  | none => exact .refl _
  | some b =>
    rw [buffPush]
    split_ifs with hmax
    · exact List.perm_middle
    · exact .refl _

theorem held_delOne (hs : Slots p) (hv : v ∈ liveSlots p) :
    ((p.items v).buff.toList ++ (p.items v).sqBuff.toList ++ held (delOne p v)).Perm (held p) := by
  have hperm := (perm_liveSlots_delOne hs hv).flatMap_right fun v => (p.items v).buff.toList ++ (p.items v).sqBuff.toList
  have heq : held (delOne p v) =
      (liveSlots (delOne p v)).flatMap fun v => (p.items v).buff.toList ++ (p.items v).sqBuff.toList := by
    refine List.flatMap_congr fun w hw => ?_
    rw [items_delOne_ne p ((mem_liveSlots_delOne hs hv w).mp hw).2]
  rw [heq]
  exact hperm

theorem Buffers.delOne (h : Buffers size p) (hs : Slots p) (hv : v ∈ liveSlots p) : Buffers size (delOne p v) := by
  set b := (p.items v).buff
  set q := (p.items v).sqBuff
  have heq : (Conev.delOne p v).rootBuff = (buffPush (buffPush p b) q).rootBuff ∧
      (Conev.delOne p v).freed = (buffPush (buffPush p b) q).freed ∧
      (Conev.delOne p v).buffCount = (buffPush (buffPush p b) q).buffCount ∧
      (Conev.delOne p v).mallocs = p.mallocs := by
    rw [delOne_eq, release_eq]
    exact ⟨rfl, rfl, rfl, rfl⟩
  obtain ⟨hroot, hfreed, hcount, hmallocs⟩ := heq
  obtain ⟨hc, hle⟩ := buffPush_count h.count_eq h.count_le b
  obtain ⟨hc, hle⟩ := buffPush_count hc hle q
  refine ⟨by rw [hcount, hroot, hc], hcount ▸ hle, ?_⟩
  rw [hroot, hfreed, hmallocs]
  have hpush : ((buffPush (buffPush p b) q).rootBuff ++ (buffPush (buffPush p b) q).freed).Perm
      (b.toList ++ q.toList ++ (p.rootBuff ++ p.freed)) := by
    refine (buffPush_perm (buffPush p b) q).trans (((buffPush_perm p b).append_left _).trans ?_)
    rw [← List.append_assoc]
    exact List.perm_append_comm.append_right _
  refine .trans ?_ h.perm
  refine (hpush.append_right _).trans ?_
  refine .trans ?_ ((held_delOne hs hv).append_left _)
  rw [← List.append_assoc (p.rootBuff ++ p.freed)]
  exact List.perm_append_comm.append_right _

end Buffers

/-! ### What a pool keeps -/

/-- The slots, the timers and the buffers are in order. -/
structure Good (size : ℕ) (p : Pool) : Prop where
  slots : Slots p
  timers : ∃ l, Timers p l
  buffers : Buffers size p

section Good

variable {p : Pool} {size : ℕ} {v : ℕ}

theorem Good.init (size count : ℕ) : Good size (initPool count) :=
  ⟨.init count, ⟨[], .init count⟩, .init size count⟩

theorem Good.delOne (h : Good size p) (hv : v ∈ liveSlots p) : Good size (delOne p v) := by
  obtain ⟨l, hl⟩ := h.timers
  exact ⟨h.slots.delOne hv, ⟨_, hl.delOne h.slots hv⟩, h.buffers.delOne h.slots hv⟩

/-- A change of items that keeps the index, the descriptor, the iteration and the buffers. -/
structure Relinked (p p' : Pool) : Prop where
  pool : p' = { p with items := p'.items }
  items : ∀ w, p'.items w = { p.items w with cb := (p'.items w).cb, pair := (p'.items w).pair }

theorem Relinked.refl (p : Pool) : Relinked p p := ⟨rfl, fun _ => rfl⟩

theorem Relinked.trans {p' p'' : Pool} (h : Relinked p p') (h' : Relinked p' p'') : Relinked p p'' :=
  ⟨by rw [h'.pool, h.pool], fun w => by rw [h'.items, h.items]⟩

theorem items_setPair_self (p : Pool) (v : ℕ) (e : Option ℕ) :
    (setPair p v e).items v = { p.items v with pair := e } := Function.update_self _ _ _

theorem items_setPair_ne (p : Pool) {v w : ℕ} (hw : w ≠ v) (e : Option ℕ) :
    (setPair p v e).items w = p.items w := Function.update_of_ne hw _ _

theorem relinked_setPair (p : Pool) (v : ℕ) (e : Option ℕ) : Relinked p (setPair p v e) := by
  refine ⟨rfl, fun w => ?_⟩
  by_cases hw : w = v
  · rw [hw, items_setPair_self]
  · rw [items_setPair_ne p hw]

theorem Relinked.liveSlots {p' : Pool} (h : Relinked p p') : liveSlots p' = liveSlots p := by
  rw [h.pool]
  rfl

theorem Relinked.good {p' : Pool} (h : Relinked p p') (hg : Good size p) : Good size p' := by
  obtain ⟨hs, ⟨l, hl⟩, hb⟩ := hg
  have hlive := h.liveSlots
  have hheld : held p' = held p := by
    rw [held, hlive]
    exact List.flatMap_congr fun w _ => by rw [h.items w]
  refine ⟨⟨?_, ?_, ?_, ?_, ?_, ?_⟩, ⟨l, ⟨?_, hl.nodup, ?_, ?_, ?_⟩⟩, ⟨?_, ?_, ?_⟩⟩
  · rw [h.pool]
    exact hs.count_le
  · rw [h.pool]
    exact hs.links_lt
  · rw [h.pool]
    exact hs.links_inj
  · intro i hi
    rw [h.items, h.pool]
    rw [h.pool] at hi
    exact hs.index i hi
  · intro w hw
    rw [h.items]
    exact hs.fd_pos w (hlive ▸ hw)
  · intro w hw
    rw [h.items, h.pool]
    exact hs.modIter_le w (hlive ▸ hw)
  · rw [h.pool]
    exact hl.tv_eq
  · rw [hlive]
    exact hl.live
  · rw [h.pool]
    exact hl.mem_iff
  · rw [h.pool]
    exact hl.sorted
  · rw [h.pool]
    exact hb.count_eq
  · rw [h.pool]
    exact hb.count_le
  · rw [hheld, h.pool]
    exact hb.perm

end Good

/-! ### Closing a connection -/

/-- From `p` to `p'` the slots `g` are taken out one after another; of the others only the links of `G` change. -/
structure Drops (size : ℕ) (G g : List ℕ) (p p' : Pool) : Prop where
  good : Good size p'
  live : (g ++ liveSlots p').Perm (liveSlots p)
  closed : p'.closed = p.closed ++ g.map fun v => (p.items v).fd
  off : ∀ w ∉ G, p'.items w = { p.items w with index := (p'.items w).index }
  kept : ∀ w ∉ g, (p'.items w).fd = (p.items w).fd ∧ (p'.items w).modIter = (p.items w).modIter
  gone : ∀ w ∈ g, (p'.items w).fd = -1 ∧ (p'.items w).modIter = p.iters
  tvMs : ∀ w, p'.tvMs w = p.tvMs w ∨ p'.tvMs w = 0
  frame : p'.max = p.max ∧ p'.iters = p.iters ∧ p'.uses = p.uses ∧ p'.opened = p.opened

section Drops

variable {p p' : Pool} {size : ℕ} {G g : List ℕ} {v w : ℕ}

theorem Drops.refl (h : Good size p) (G : List ℕ) : Drops size G [] p p :=
  ⟨h, .refl _, (List.append_nil _).symm, fun _ _ => rfl, fun _ _ => ⟨rfl, rfl⟩, by simp, fun _ => .inl rfl,
    rfl, rfl, rfl, rfl⟩

theorem Drops.mem_iff (h : Drops size G g p p') (hp : Slots p) :
    w ∈ liveSlots p' ↔ w ∈ liveSlots p ∧ w ∉ g := by
  have hnd := (h.live.nodup_iff.mpr hp.nodup)
  rw [← h.live.mem_iff, List.mem_append]
  constructor
  · exact fun hw => ⟨.inr hw, fun hg => (List.nodup_append.mp hnd).2.2 w hg w hw rfl⟩
  · rintro ⟨hg | hw, hng⟩
    · exact absurd hg hng
    · exact hw

theorem Drops.one (h : Drops size G g p p') (hp : Slots p) (hG : v ∈ G) (hv : v ∈ liveSlots p') :
    Drops size G (g ++ [v]) p (delOne p' v) := by
  obtain ⟨hmax, hiters, huses, hopened⟩ := h.frame
  have heq : (delOne p' v).closed = p'.closed ++ [(p'.items v).fd] ∧ (delOne p' v).max = p'.max ∧
      (delOne p' v).iters = p'.iters ∧ (delOne p' v).uses = p'.uses ∧ (delOne p' v).opened = p'.opened ∧
      (delOne p' v).tvMs = Function.update p'.tvMs v 0 := by
    rw [delOne_eq, release_eq]
    exact ⟨rfl, rfl, rfl, rfl, rfl, rfl⟩
  obtain ⟨hclosed, hmax', hiters', huses', hopened', htv⟩ := heq
  have hvg := ((h.mem_iff hp).mp hv).2
  refine ⟨h.good.delOne hv, ?_, ?_, fun w hw => ?_, fun w hw => ?_, fun w hw => ?_, fun w => ?_,
    hmax'.trans hmax, hiters'.trans hiters, huses'.trans huses, hopened'.trans hopened⟩
  · rw [List.append_assoc]
    exact ((perm_liveSlots_delOne h.good.slots hv).append_left g).trans h.live
  · rw [hclosed, h.closed, (h.kept v hvg).1, List.map_append, List.append_assoc]
    rfl
  · have hwv : w ≠ v := fun hwv => hw (hwv ▸ hG)
    rw [items_delOne_ne p' hwv, h.off w hw]
  · have hwv : w ≠ v := fun hwv => hw (List.mem_append_right _ (hwv ▸ List.mem_cons_self))
    rw [items_delOne_ne p' hwv]
    exact h.kept w fun hg => hw (List.mem_append_left _ hg)
  · by_cases hwv : w = v
    · rw [hwv, items_delOne_self]
      exact ⟨rfl, hiters⟩
    · rw [items_delOne_ne p' hwv]
      refine h.gone w ?_
      simpa [hwv] using hw
  · rw [htv]
    by_cases hwv : w = v
    · rw [hwv, Function.update_self]
      exact .inr rfl
    · rw [Function.update_of_ne hwv]
      exact h.tvMs w

theorem Drops.setPair (h : Drops size G g p p') (hG : v ∈ G) (e : Option ℕ) :
    Drops size G g p (setPair p' v e) := by
  have hr := relinked_setPair p' v e
  refine ⟨hr.good h.good, hr.liveSlots ▸ h.live, h.closed, fun w hw => ?_, fun w hw => ?_, fun w hw => ?_,
    h.tvMs, h.frame⟩
  · have hwv : w ≠ v := fun hwv => hw (hwv ▸ hG)
    rw [items_setPair_ne p' hwv]
    exact h.off w hw
  · rw [hr.items w]
    exact h.kept w hw
  · rw [hr.items w]
    exact h.gone w hw

end Drops

/-- The connections that are closed together: one alone, the two ends of a tunnel, or the ring of a client that
asked for datagrams and its two sockets. -/
inductive Group (p : Pool) : List ℕ → Prop
  | alone {v : ℕ} : (p.items v).pair = none → Group p [v]
  | tunnel {v w : ℕ} : v ≠ w → (p.items v).pair = some w → (p.items w).pair = some v → Group p [v, w]
  | ring {v w u : ℕ} : v ≠ w → v ≠ u → w ≠ u → (p.items v).pair = some w → (p.items w).pair = some u →
      (p.items u).pair = some v → Group p [v, w, u]

section DelEvent

variable {p : Pool} {size : ℕ} {g : List ℕ} {v : ℕ}

theorem delFrom_alone {n : ℕ} (hfd : (p.items v).fd ≠ -1) (hpair : (p.items v).pair = none) :
    delFrom (n + 1) p v = delOne p v := by
  rw [delFrom, if_neg hfd]
  show (match ((delOne p v).items v).pair with | none => delOne p v | some e => _) = _
  rw [items_delOne_self, Eval.released, hpair]

theorem delFrom_some {n : ℕ} {e : ℕ} (hfd : (p.items v).fd ≠ -1) (hpair : (p.items v).pair = some e) :
    delFrom (n + 1) p v = delFrom n (setPair (if ((delOne p v).items e).pair = some v then setPair (delOne p v) e none
      else delOne p v) v none) e := by
  rw [delFrom, if_neg hfd]
  show (match ((delOne p v).items v).pair with | none => delOne p v | some e => _) = _
  rw [items_delOne_self, Eval.released, hpair]
  rfl

theorem delFrom_closed {n : ℕ} (hfd : (p.items v).fd = -1) : delFrom n p v = p := by
  cases n with
  | zero => rfl
  | succ n => rw [delFrom, if_pos hfd]

/-- **A connection is closed with its group**, each of them once, and nothing else is touched. -/
theorem delEvent_spec (h : Good size p) (hg : Group p (v :: g)) (hl : ∀ w ∈ v :: g, w ∈ liveSlots p) :
    Drops size (v :: g) (v :: g) p (delEvent p v) := by
  have hfd : ∀ w ∈ liveSlots p, (p.items w).fd ≠ -1 := fun w hw => by
    have := h.slots.fd_pos w hw
    omega
  have hcount : ∀ {l : List ℕ}, l.Nodup → (∀ w ∈ l, w ∈ liveSlots p) → l.length ≤ p.count := fun hnd hl => by
    have hsub := (hnd.subperm hl).length_le
    rwa [liveSlots, List.length_map, List.length_range] at hsub
  have hv := hl v List.mem_cons_self
  cases hg with
  | alone hpair =>
    rw [delEvent, delFrom_alone (hfd v hv) hpair]
    exact (Drops.refl h [v]).one h.slots List.mem_cons_self hv
  | @tunnel v w hvw hpair hback =>
    have hw := hl w (by simp)
    obtain ⟨n, hn⟩ := Nat.exists_eq_add_of_le (hcount (l := [v, w]) (by simpa using hvw) hl)
    have h₁ := ((Drops.refl h [v, w]).one h.slots List.mem_cons_self hv)
    have hpw : ((delOne p v).items w).pair = some v := by
      rw [items_delOne_ne p (Ne.symm hvw)]
      exact hback
    have hrun : delEvent p v = delOne (setPair (setPair (delOne p v) w none) v none) w := by
      rw [delEvent, delFrom_some (hfd v hv) hpair, if_pos hpw, hn,
        show List.length [v, w] + n = n + 1 + 1 from Nat.add_comm _ _]
      refine delFrom_alone ?_ ?_
      · rw [items_setPair_ne _ (Ne.symm hvw), items_setPair_self]
        exact (h₁.kept w (by simpa using Ne.symm hvw)).1 ▸ hfd w hw
      · rw [items_setPair_ne _ (Ne.symm hvw), items_setPair_self]
    have h₂ := (h₁.setPair (v := w) (by simp) none).setPair (v := v) List.mem_cons_self none
    rw [hrun]
    exact h₂.one h.slots (by simp) ((h₂.mem_iff h.slots).mpr ⟨hw, by simpa using Ne.symm hvw⟩)
  | @ring v w u hvw hvu hwu hpair hnext hback =>
    have hw := hl w (by simp)
    have hu := hl u (by simp)
    obtain ⟨n, hn⟩ := Nat.exists_eq_add_of_le (hcount (l := [v, w, u]) (by simp [hvw, hvu, hwu]) hl)
    set G := [v, w, u]
    -- the three turns
    have h₁ := (Drops.refl h G).one h.slots List.mem_cons_self hv
    have h₁' := h₁.setPair (v := v) List.mem_cons_self none
    have hpw : ((setPair (delOne p v) v none).items w).pair = some u := by
      rw [items_setPair_ne _ (Ne.symm hvw), items_delOne_ne p (Ne.symm hvw)]
      exact hnext
    have hne : ((delOne p v).items w).pair ≠ some v := by
      rw [items_delOne_ne p (Ne.symm hvw)]
      show (p.items w).pair ≠ some v
      rw [hnext]
      exact fun heq => hvu (Option.some.inj heq).symm
    set p₁ := setPair (delOne p v) v none
    have hw₁ : w ∈ liveSlots p₁ := (h₁'.mem_iff h.slots).mpr ⟨hw, by simpa using Ne.symm hvw⟩
    have h₂ := h₁'.one h.slots (v := w) (by simp [G]) hw₁
    have h₂' := h₂.setPair (v := w) (by simp [G]) none
    have hpu : ((delOne p₁ w).items u).pair = some v := by
      rw [items_delOne_ne p₁ (Ne.symm hwu)]
      show (p₁.items u).pair = some v
      rw [items_setPair_ne _ (Ne.symm hvu), items_delOne_ne p (Ne.symm hvu)]
      exact hback
    have hne' : ((delOne p₁ w).items u).pair ≠ some w := by
      rw [hpu]
      exact fun heq => hvw (Option.some.inj heq)
    set p₂ := setPair (delOne p₁ w) w none
    have hu₂ : u ∈ liveSlots p₂ := (h₂'.mem_iff h.slots).mpr ⟨hu, by simp [Ne.symm hvu, Ne.symm hwu]⟩
    have h₃ := h₂'.one h.slots (v := u) (by simp [G]) hu₂
    have h₃' := h₃.setPair (v := u) (by simp [G]) none
    have hpu₂ : (p₂.items u).pair = some v := by rw [items_setPair_ne _ (Ne.symm hwu), hpu]
    have hpv : ((delOne p₂ u).items v).pair ≠ some u := by
      rw [items_delOne_ne p₂ hvu]
      show (p₂.items v).pair ≠ some u
      rw [items_setPair_ne _ hvw, items_delOne_ne p₁ hvw]
      show (p₁.items v).pair ≠ some u
      rw [items_setPair_self]
      simp
    have hrun : delEvent p v = setPair (delOne p₂ u) u none := by
      rw [delEvent, delFrom_some (hfd v hv) hpair, if_neg hne, hn,
        show G.length + n = n + 1 + 1 + 1 from Nat.add_comm _ _,
        delFrom_some ?_ hpw, if_neg hne', delFrom_some ?_ hpu₂, if_neg hpv, delFrom_closed]
      · exact (h₃'.gone v (by simp)).1
      · exact (h₂'.kept u (by simp [Ne.symm hvu, Ne.symm hwu])).1 ▸ hfd u hu
      · exact (h₁'.kept w (by simpa using Ne.symm hvw)).1 ▸ hfd w hw
    rw [hrun]
    exact h₃'

end DelEvent

/-! ### A new slot -/

/-- The slot after `add_event` has cleared it, before it counts as in use. -/
def prepared (p : Pool) (cb : Evcb) (fd : ℤ) : Pool :=
  { p with
    items := Function.update p.items (p.links p.count)
      { Eval.zero with modIter := p.iters, fd := fd, index := p.count, cb := cb }
    tv := { p.tv with
      next := Function.update p.tv.next (p.links p.count) none
      prev := Function.update p.tv.prev (p.links p.count) none }
    tvMs := Function.update p.tvMs (p.links p.count) 0 }

/-- The prepared slot comes into use. -/
def taken (p : Pool) : Pool :=
  { p with
    count := p.count + 1
    uses := Function.update p.uses (p.links p.count) (p.uses (p.links p.count) + 1) }

theorem addEvent_eq (p : Pool) (cb : Evcb) (fd : ℤ) (ctl : Bool) : addEvent p cb fd ctl =
    if p.max ≤ p.count then (p, none)
    else if ctl then (taken (prepared p cb fd), some (p.links p.count)) else (prepared p cb fd, none) := rfl

section AddEvent

variable {p : Pool} {size : ℕ} {cb : Evcb} {fd : ℤ} {w : ℕ}

theorem items_prepared_self : (prepared p cb fd).items (p.links p.count) =
    { Eval.zero with modIter := p.iters, fd := fd, index := p.count, cb := cb } := Function.update_self _ _ _

theorem items_prepared_ne (hw : w ≠ p.links p.count) : (prepared p cb fd).items w = p.items w :=
  Function.update_of_ne hw _ _

theorem items_prepared_live (hs : Slots p) (hlt : p.count < p.max) (hw : w ∈ liveSlots p) :
    (prepared p cb fd).items w = p.items w :=
  items_prepared_ne fun heq => hs.next_not_live hlt (heq ▸ hw)

theorem liveSlots_taken (p : Pool) : liveSlots (taken p) = liveSlots p ++ [p.links p.count] := by
  show (List.range (p.count + 1)).map p.links = _
  rw [List.range_succ, List.map_append]
  rfl

/-- The slot is in no list: to clear its links and its deadline changes nothing. -/
theorem Timers.prepared {l : List ℕ} (h : Timers p l) (hs : Slots p) (hlt : p.count < p.max) :
    Timers (prepared p cb fd) l := by
  have hl : p.links p.count ∉ l := fun hl => hs.next_not_live hlt (h.live _ hl)
  have hms : Function.update p.tvMs (p.links p.count) 0 = p.tvMs := by
    refine Function.update_eq_self_iff.mpr ?_
    by_contra hne
    exact hl ((h.mem_iff _).mpr (Ne.symm hne))
  have htv : ({ p.tv with
      next := Function.update p.tv.next (p.links p.count) none
      prev := Function.update p.tv.prev (p.links p.count) none } : Links ℕ) = p.tv := by
    have hnext : p.tv.next (p.links p.count) = none := by
      rw [h.tv_eq]
      exact succ_of_not_mem hl
    have hprev : p.tv.prev (p.links p.count) = none := by
      rw [h.tv_eq]
      exact succ_of_not_mem (by rwa [List.mem_reverse])
    rw [Function.update_eq_self_iff.mpr hnext.symm, Function.update_eq_self_iff.mpr hprev.symm]
  refine ⟨htv.trans h.tv_eq, h.nodup, h.live, fun w => ?_, ?_⟩
  · show w ∈ l ↔ Function.update p.tvMs _ 0 w ≠ 0
    rw [hms]
    exact h.mem_iff w
  · show l.Pairwise fun a b => Function.update p.tvMs _ 0 a ≤ Function.update p.tvMs _ 0 b
    rw [hms]
    exact h.sorted

theorem Good.prepared (h : Good size p) (hlt : p.count < p.max) : Good size (prepared p cb fd) := by
  obtain ⟨hs, ⟨l, hl⟩, hb⟩ := h
  have hitems : ∀ w ∈ liveSlots p, (Conev.prepared p cb fd).items w = p.items w :=
    fun w hw => items_prepared_live hs hlt hw
  have hheld : held (Conev.prepared p cb fd) = held p :=
    List.flatMap_congr fun w hw => by rw [hitems w hw]
  refine ⟨⟨hs.count_le, hs.links_lt, hs.links_inj, fun i hi => ?_, fun w hw => ?_, fun w hw => ?_⟩,
    ⟨l, hl.prepared hs hlt⟩, ⟨hb.count_eq, hb.count_le, hheld ▸ hb.perm⟩⟩
  · have hi' := hitems (p.links i) (mem_liveSlots.mpr ⟨i, hi, rfl⟩)
    exact (congrArg Eval.index hi').trans (hs.index i hi)
  · rw [hitems w hw]
    exact hs.fd_pos w hw
  · rw [hitems w hw]
    exact hs.modIter_le w hw

theorem Good.taken (h : Good size (Conev.prepared p cb fd)) (hlt : p.count < p.max) (hfd : 0 < fd) :
    Good size (taken (Conev.prepared p cb fd)) := by
  obtain ⟨hs, ⟨l, hl⟩, hb⟩ := h
  have hlive : liveSlots (Conev.taken (Conev.prepared p cb fd)) = liveSlots (Conev.prepared p cb fd) ++ [p.links p.count] :=
    liveSlots_taken _
  have hself : (Conev.prepared p cb fd).items (p.links p.count) =
      { Eval.zero with modIter := p.iters, fd := fd, index := p.count, cb := cb } := items_prepared_self
  have hheld : held (Conev.taken (Conev.prepared p cb fd)) = held (Conev.prepared p cb fd) := by
    rw [held, hlive, List.flatMap_append, List.flatMap_singleton]
    show _ ++ (((Conev.prepared p cb fd).items (p.links p.count)).buff.toList ++
      ((Conev.prepared p cb fd).items (p.links p.count)).sqBuff.toList) = _
    rw [hself]
    exact List.append_nil _
  refine ⟨⟨hlt, hs.links_lt, hs.links_inj, fun i hi => ?_, fun w hw => ?_, fun w hw => ?_⟩,
    ⟨l, hl.tv_eq, hl.nodup, fun w hw => ?_, hl.mem_iff, hl.sorted⟩, ⟨hb.count_eq, hb.count_le, ?_⟩⟩
  · rcases Nat.lt_succ_iff_lt_or_eq.mp hi with hi | rfl
    · exact hs.index i hi
    · exact congrArg Eval.index hself
  · rw [hlive] at hw
    rcases List.mem_append.mp hw with hw | hw
    · exact hs.fd_pos w hw
    · obtain rfl := List.mem_singleton.mp hw
      exact (congrArg Eval.fd hself).symm ▸ hfd
  · rw [hlive] at hw
    rcases List.mem_append.mp hw with hw | hw
    · exact hs.modIter_le w hw
    · obtain rfl := List.mem_singleton.mp hw
      exact Nat.le_of_eq (congrArg Eval.modIter hself)
  · rw [hlive]
    exact List.mem_append_left _ (hl.live w hw)
  · rw [hheld]
    exact hb.perm

end AddEvent

end BypassVpn.Ciadpi.Conev
