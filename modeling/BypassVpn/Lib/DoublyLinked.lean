import Mathlib.Data.List.Basic
import Mathlib.Data.List.DropRight
import Mathlib.Data.List.Nodup
import Mathlib.Logic.Function.Basic

/-!
# Doubly linked lists

The links of the nodes are functions of the node; a list of nodes has one state of all links.

* `Links`, `remove`, `insert`, `back`: the assignments that take a node out and put one in, and the walk
  from the end.
* `succ`, `ofList`: the links of a list.
* **`remove_ofList`**, **`insert_ofList`**: what the assignments do to the list; `back_ofList`: where the
  walk ends.
-/

namespace DoublyLinked

variable {ι : Type*} [DecidableEq ι]

/-- The two links of every node, and the ends of the list. -/
structure Links (ι : Type*) where
  next : ι → Option ι
  prev : ι → Option ι
  first : Option ι
  last : Option ι

/-- `f` where the node before `i`, if there is one, points to `n`, and `i` to nothing. -/
def unlink (f : ι → Option ι) (p n : Option ι) (i : ι) : ι → Option ι :=
  match p with
  | none => Function.update f i none
  | some p => Function.update (Function.update f p n) i none

/-- `f` where `i` points to `n`, and the node before it, if there is one, to `i`. -/
def link (f : ι → Option ι) (p n : Option ι) (i : ι) : ι → Option ι :=
  match p with
  | none => Function.update f i n
  | some p => Function.update (Function.update f i n) p (some i)

/-- Take the node `i` out. -/
def remove (L : Links ι) (i : ι) : Links ι where
  next := unlink L.next (L.prev i) (L.next i) i
  prev := unlink L.prev (L.next i) (L.prev i) i
  first := if L.first = some i then L.next i else L.first
  last := if L.last = some i then L.prev i else L.last

/-- Put the node `i` between `p` and `n`. -/
def insert (L : Links ι) (i : ι) (p n : Option ι) : Links ι where
  next := link L.next p n i
  prev := link L.prev n p i
  first := if L.first = none ∨ n = L.first then some i else L.first
  last := if L.last = none ∨ p = L.last then some i else L.last

/-- The walk from `p` to the front past the nodes with `q`; the node where it ends, and the one behind it. -/
def back (L : Links ι) (q : ι → Bool) : ℕ → Option ι → Option ι → Option ι × Option ι
  | k + 1, some p, n => if q p then back L q k (L.prev p) (some p) else (some p, n)
  | _, p, n => (p, n)

/-- The node behind `i`. -/
def succ : List ι → ι → Option ι
  | a :: b :: l, i => if i = a then some b else succ (b :: l) i
  | _, _ => none

/-- The links of a list. -/
def ofList (l : List ι) : Links ι where
  next := succ l
  prev := succ l.reverse
  first := l.head?
  last := l.getLast?

variable {i j : ι} {l u v : List ι}

theorem succ_cons_self (a : ι) (l : List ι) : succ (a :: l) a = l.head? := by
  cases l with
  | nil => rfl
  | cons b l => rw [succ, if_pos rfl, List.head?_cons]

theorem succ_cons_ne {a : ι} (h : i ≠ a) (l : List ι) : succ (a :: l) i = succ l i := by
  cases l with
  | nil => rfl
  | cons b l => rw [succ, if_neg h]

theorem succ_append_right (h : i ∉ u) (w : List ι) : succ (u ++ w) i = succ w i := by
  induction u with
  | nil => rfl
  | cons a u ih =>
    rw [List.mem_cons, not_or] at h
    rw [List.cons_append, succ_cons_ne h.1, ih h.2]

theorem succ_of_not_mem (h : i ∉ l) : succ l i = none := by
  have hl := succ_append_right h []
  rwa [List.append_nil] at hl

theorem succ_append_left (h : i ∈ u) (hu : u.Nodup) (w : List ι) :
    succ (u ++ w) i = if u.getLast? = some i then w.head? else succ u i := by
  induction u with
  | nil => exact absurd h (by simp)
  | cons a u ih =>
    rw [List.nodup_cons] at hu
    cases u with
    | nil =>
      obtain rfl := List.mem_singleton.mp h
      rw [List.singleton_append, succ_cons_self, if_pos List.getLast?_singleton]
    | cons b u =>
      rw [List.getLast?_cons_cons]
      by_cases hi : i = a
      · subst hi
        have hne : (b :: u).getLast? ≠ some i := fun hl => hu.1 (List.mem_of_getLast? hl)
        rw [List.cons_append, succ_cons_self, succ_cons_self, if_neg hne]
        rfl
      · have hmem : i ∈ b :: u := (List.mem_cons.mp h).resolve_left hi
        rw [List.cons_append, succ_cons_ne hi, ih hmem hu.2, succ_cons_ne hi]

/-! ### Taking a node out -/

theorem unlink_succ (h : (u ++ i :: v).Nodup) :
    unlink (succ (u ++ i :: v)) u.getLast? v.head? i = succ (u ++ v) := by
  obtain ⟨hu, hv, hd⟩ := List.nodup_append.mp h
  have hiu : i ∉ u := fun hi => hd i hi i List.mem_cons_self rfl
  have hiv : i ∉ v := (List.nodup_cons.mp hv).1
  have hself : succ (u ++ v) i = none := succ_of_not_mem (by simp [hiu, hiv])
  -- away from `i` and the node before it nothing changes
  have hother : ∀ j, j ≠ i → u.getLast? ≠ some j → succ (u ++ i :: v) j = succ (u ++ v) j := by
    intro j hj hlast
    by_cases hju : j ∈ u
    · rw [succ_append_left hju hu, succ_append_left hju hu, if_neg hlast, if_neg hlast]
    · rw [succ_append_right hju, succ_append_right hju, succ_cons_ne hj]
  funext j
  cases hl : u.getLast? with
  | none =>
    rw [unlink]
    by_cases hj : j = i
    · rw [hj, Function.update_self, hself]
    · rw [Function.update_of_ne hj, hother j hj (by simp [hl])]
  | some p =>
    rw [unlink]
    by_cases hj : j = i
    · rw [hj, Function.update_self, hself]
    · rw [Function.update_of_ne hj]
      by_cases hp : j = p
      · have hpu : p ∈ u := List.mem_of_getLast? hl
        rw [hp, Function.update_self, succ_append_left hpu hu, if_pos hl]
      · rw [Function.update_of_ne hp, hother j hj (by rw [hl]; simpa using Ne.symm hp)]

theorem next_ofList (h : (u ++ i :: v).Nodup) : (ofList (u ++ i :: v)).next i = v.head? := by
  have hiu : i ∉ u := fun hi => (List.nodup_append.mp h).2.2 i hi i List.mem_cons_self rfl
  exact (succ_append_right hiu (i :: v)).trans (succ_cons_self i v)

omit [DecidableEq ι] in
theorem reverse_split (u v : List ι) (i : ι) : (u ++ i :: v).reverse = v.reverse ++ i :: u.reverse := by
  simp

theorem prev_ofList (h : (u ++ i :: v).Nodup) : (ofList (u ++ i :: v)).prev i = u.getLast? := by
  have hr : (v.reverse ++ i :: u.reverse).Nodup := by rwa [← reverse_split, List.nodup_reverse]
  have hn := next_ofList hr
  rw [List.head?_reverse] at hn
  rw [ofList, reverse_split]
  exact hn

/-- **A node that is taken out leaves the others in their order.** -/
theorem remove_ofList (h : (u ++ i :: v).Nodup) : remove (ofList (u ++ i :: v)) i = ofList (u ++ v) := by
  have hiu : i ∉ u := fun hi => (List.nodup_append.mp h).2.2 i hi i List.mem_cons_self rfl
  have hiv : i ∉ v := (List.nodup_cons.mp (List.nodup_append.mp h).2.1).1
  have hr : (v.reverse ++ i :: u.reverse).Nodup := by rwa [← reverse_split, List.nodup_reverse]
  have hnext : unlink (ofList (u ++ i :: v)).next u.getLast? v.head? i = succ (u ++ v) := unlink_succ h
  have hprev : unlink (ofList (u ++ i :: v)).prev v.head? u.getLast? i = succ (u ++ v).reverse := by
    have hu := unlink_succ hr
    rw [List.getLast?_reverse, List.head?_reverse, ← List.reverse_append] at hu
    rw [ofList, reverse_split]
    exact hu
  rw [remove, next_ofList h, prev_ofList h, hnext, hprev, ofList]
  congr 1
  · cases u with
    | nil => simp
    | cons a u =>
      have ha : a ≠ i := fun ha => hiu (ha ▸ List.mem_cons_self)
      simp [ha]
  · cases hv : v.getLast? with
    | none =>
      obtain rfl := List.getLast?_eq_none_iff.mp hv
      simp
    | some a =>
      have ha : a ≠ i := fun ha => hiv (ha ▸ List.mem_of_getLast? hv)
      have hl : (u ++ i :: v).getLast? = some a := by simp [List.getLast?_append, List.getLast?_cons, hv]
      have hl' : (u ++ v).getLast? = some a := by simp [List.getLast?_append, hv]
      dsimp only
      rw [hl, hl', if_neg (by simpa using ha)]

/-- A node that is not in the list is taken out without effect. -/
theorem remove_ofList_of_not_mem (h : i ∉ l) : remove (ofList l) i = ofList l := by
  have hn : (ofList l).next i = none := succ_of_not_mem h
  have hp : (ofList l).prev i = none := succ_of_not_mem (by rwa [List.mem_reverse])
  have hf : l.head? ≠ some i := fun hf => h (List.mem_of_head? hf)
  have hl : l.getLast? ≠ some i := fun hl => h (List.mem_of_getLast? hl)
  rw [remove, hn, hp, unlink, unlink, ← hn]
  rw [show Function.update (ofList l).next i ((ofList l).next i) = (ofList l).next from Function.update_eq_self _ _]
  rw [hn, ← hp]
  rw [show Function.update (ofList l).prev i ((ofList l).prev i) = (ofList l).prev from Function.update_eq_self _ _]
  simp [ofList, hf, hl]

/-! ### Putting a node in -/

theorem link_succ (h : (u ++ v).Nodup) (hi : i ∉ u ++ v) :
    link (succ (u ++ v)) u.getLast? v.head? i = succ (u ++ i :: v) := by
  obtain ⟨hu, hv, hd⟩ := List.nodup_append.mp h
  rw [List.mem_append, not_or] at hi
  have hself : succ (u ++ i :: v) i = v.head? := by rw [succ_append_right hi.1, succ_cons_self]
  have hother : ∀ j, j ≠ i → u.getLast? ≠ some j → succ (u ++ v) j = succ (u ++ i :: v) j := by
    intro j hj hlast
    by_cases hju : j ∈ u
    · rw [succ_append_left hju hu, succ_append_left hju hu, if_neg hlast, if_neg hlast]
    · rw [succ_append_right hju, succ_append_right hju, succ_cons_ne hj]
  funext j
  cases hl : u.getLast? with
  | none =>
    rw [link]
    by_cases hj : j = i
    · rw [hj, Function.update_self, hself]
    · rw [Function.update_of_ne hj, hother j hj (by simp [hl])]
  | some p =>
    have hpu : p ∈ u := List.mem_of_getLast? hl
    rw [link]
    by_cases hp : j = p
    · rw [hp, Function.update_self, succ_append_left hpu hu, if_pos hl, List.head?_cons]
    · rw [Function.update_of_ne hp]
      by_cases hj : j = i
      · rw [hj, Function.update_self, hself]
      · rw [Function.update_of_ne hj, hother j hj (by rw [hl]; simpa using Ne.symm hp)]

/-- **A node that is put in comes between the two parts.** -/
theorem insert_ofList (h : (u ++ v).Nodup) (hi : i ∉ u ++ v) :
    insert (ofList (u ++ v)) i u.getLast? v.head? = ofList (u ++ i :: v) := by
  have hd := (List.nodup_append.mp h).2.2
  have hr : (v.reverse ++ u.reverse).Nodup := by rwa [← List.reverse_append, List.nodup_reverse]
  have hir : i ∉ v.reverse ++ u.reverse := by rwa [← List.reverse_append, List.mem_reverse]
  have hnext : link (ofList (u ++ v)).next u.getLast? v.head? i = succ (u ++ i :: v) := link_succ h hi
  have hprev : link (ofList (u ++ v)).prev v.head? u.getLast? i = succ (u ++ i :: v).reverse := by
    have hl := link_succ hr hir
    rw [List.getLast?_reverse, List.head?_reverse, ← reverse_split] at hl
    rw [ofList, List.reverse_append]
    exact hl
  rw [insert, hnext, hprev, ofList]
  congr 1
  · cases u with
    | nil => simp
    | cons a u =>
      have hne : v.head? ≠ some a := fun hv => hd a List.mem_cons_self a (List.mem_of_head? hv) rfl
      simp [hne]
  · cases hv : v.getLast? with
    | none =>
      obtain rfl := List.getLast?_eq_none_iff.mp hv
      simp
    | some a =>
      have hne : u.getLast? ≠ some a := fun hu =>
        hd a (List.mem_of_getLast? hu) a (List.mem_of_getLast? hv) rfl
      simp [List.getLast?_append, List.getLast?_cons, hv, hne]

/-- **The walk from the end** passes the longest tail whose nodes have `q`. -/
theorem back_ofList {q : ι → Bool} (w : List ι) : ∀ {l : List ι} {k : ℕ}, (l ++ w).Nodup → l.length ≤ k →
    (∀ x ∈ w, q x = true) →
      back (ofList (l ++ w)) q k l.getLast? w.head? =
        (((l ++ w).rdropWhile q).getLast?, ((l ++ w).rtakeWhile q).head?) := by
  intro l
  induction l using List.reverseRecOn generalizing w with
  | nil =>
    intro k _ _ hw
    have hd : w.rdropWhile q = [] := List.rdropWhile_eq_nil_iff.mpr hw
    have ht : w.rtakeWhile q = w := List.rtakeWhile_eq_self_iff.mpr hw
    rw [List.nil_append, hd, ht]
    cases k <;> rfl
  | append_singleton l a ih =>
    intro k hn hk hw
    rw [List.append_assoc, List.singleton_append] at hn ⊢
    cases k with
    | zero => exact absurd hk (by simp)
    | succ k =>
      rw [List.getLast?_append, List.getLast?_singleton, Option.some_or, back, prev_ofList hn]
      by_cases ha : q a = true
      · rw [if_pos ha]
        have hrec := ih (a :: w) hn (k := k) (by simpa using hk) (List.forall_mem_cons.mpr ⟨ha, hw⟩)
        rwa [List.head?_cons] at hrec
      · rw [if_neg ha]
        have hd : (l ++ a :: w).rdropWhile q = l ++ [a] := by
          rw [show l ++ a :: w = (l ++ [a]) ++ w by simp, List.rdropWhile, List.reverse_append,
            List.dropWhile_append_of_pos (by simpa using hw)]
          simp [ha]
        have ht : (l ++ a :: w).rtakeWhile q = w := by
          rw [show l ++ a :: w = (l ++ [a]) ++ w by simp, List.rtakeWhile, List.reverse_append,
            List.takeWhile_append_of_pos (by simpa using hw)]
          simp [ha]
        rw [hd, ht]
        simp

end DoublyLinked
