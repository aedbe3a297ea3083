import Mathlib.Data.List.Basic

/-!
# Unbalanced search trees

Trees that are searched by a comparison whose ties need not be transitive: a key may tie with several
others that are ordered among themselves, as a prefix does with its extensions. A query is a function
`c` that says on which side of each element it lies.

* `SplitsAt`: a query that lies on one side of the elements it does not tie with.
* `find`, `insert`, `erase`, `eraseMin`, `modify`: the walks; `steps`: how many elements a walk meets.
* `Sorted`: the elements in order are pairwise `lt`, so that no two of them tie.
* **`find_isSome_iff`**, **`toList_insert`**, **`toList_erase`**: what the walks do to the elements in
  order.
-/

namespace SearchTree

variable {α : Type*}

/-- Binary trees. -/
inductive BinTree (α : Type*) where
  | nil
  | node (left : BinTree α) (elem : α) (right : BinTree α)

namespace BinTree

/-- The elements in order. -/
def toList : BinTree α → List α
  | nil => []
  | node l a r => l.toList ++ a :: r.toList

/-- The first element on the walk of `c` that ties with it. -/
def find (c : α → Ordering) : BinTree α → Option α
  | nil => none
  | node l a r =>
    match c a with
    | .eq => some a
    | .lt => l.find c
    | .gt => r.find c

/-- How many elements the walk of `c` meets before it ends outside the tree. -/
def steps (c : α → Ordering) : BinTree α → ℕ
  | nil => 0
  | node l a r =>
    match c a with
    | .eq => 0
    | .lt => l.steps c + 1
    | .gt => r.steps c + 1

/-- Put `x` where the walk of `c` ends; the tree stays as it is when an element ties. -/
def insert (c : α → Ordering) (x : α) : BinTree α → BinTree α
  | nil => node nil x nil
  | node l a r =>
    match c a with
    | .eq => node l a r
    | .lt => node (l.insert c x) a r
    | .gt => node l a (r.insert c x)

/-- The first element in order, and the tree without it. -/
def eraseMin : BinTree α → Option (α × BinTree α)
  | nil => none
  | node l a r =>
    match l.eraseMin with
    | none => some (a, r)
    | some (m, l') => some (m, node l' a r)

/-- What stands in the place of a node with children `l` and `r` that is taken out. -/
def join (l r : BinTree α) : BinTree α :=
  match r.eraseMin with
  | none => l
  | some (m, r') => node l m r'

/-- Take out the first element on the walk of `c` that ties with it. -/
def erase (c : α → Ordering) : BinTree α → BinTree α
  | nil => nil
  | node l a r =>
    match c a with
    | .eq => join l r
    | .lt => node (l.erase c) a r
    | .gt => node l a (r.erase c)

/-- Change the first element on the walk of `c` that ties with it. -/
def modify (c : α → Ordering) (f : α → α) : BinTree α → BinTree α
  | nil => nil
  | node l a r =>
    match c a with
    | .eq => node l (f a) r
    | .lt => node (l.modify c f) a r
    | .gt => node l a (r.modify c f)

@[simp] theorem toList_nil : (nil : BinTree α).toList = [] := rfl

@[simp] theorem toList_node (l : BinTree α) (a : α) (r : BinTree α) :
    (node l a r).toList = l.toList ++ a :: r.toList := rfl

theorem toList_eraseMin {t : BinTree α} : ∀ {m : α} {t' : BinTree α}, t.eraseMin = some (m, t') →
    t.toList = m :: t'.toList := by
  induction t with
  | nil => exact fun h => absurd h (by simp [eraseMin])
  | node l a r ihl _ =>
    intro m t' h
    rw [eraseMin] at h
    cases hl : l.eraseMin with
    | none =>
      rw [hl] at h
      cases l with
      | nil =>
        simp only [Option.some.injEq, Prod.mk.injEq] at h
        obtain ⟨rfl, rfl⟩ := h
        rfl
      | node l' b r' =>
        rw [eraseMin] at hl
        cases hl' : l'.eraseMin <;> simp [hl'] at hl
    | some p =>
      obtain ⟨m', l'⟩ := p
      simp only [hl, Option.some.injEq, Prod.mk.injEq] at h
      obtain ⟨rfl, rfl⟩ := h
      rw [toList_node, ihl hl, toList_node, List.cons_append]

theorem eraseMin_eq_none {t : BinTree α} (h : t.eraseMin = none) : t = nil := by
  cases t with
  | nil => rfl
  | node l a r =>
    rw [eraseMin] at h
    cases hl : l.eraseMin <;> simp [hl] at h

@[simp] theorem toList_join (l r : BinTree α) : (join l r).toList = l.toList ++ r.toList := by
  rw [join]
  cases h : r.eraseMin with
  | none => rw [eraseMin_eq_none h, toList_nil, List.append_nil]
  | some p =>
    obtain ⟨m, t⟩ := p
    rw [toList_eraseMin h, toList_node]

/-! ### What the walks meet -/

section Walk

variable {c : α → Ordering} {a x : α}

theorem find_eq_some {t : BinTree α} (h : t.find c = some a) : a ∈ t.toList ∧ c a = .eq := by
  induction t with
  | nil => exact absurd h (by simp [find])
  | node l b r ihl ihr =>
    rw [find] at h
    rw [toList_node, List.mem_append, List.mem_cons]
    cases hb : c b with
    | eq =>
      rw [hb, Option.some.injEq] at h
      exact ⟨.inr (.inl h.symm), h ▸ hb⟩
    | lt =>
      rw [hb] at h
      exact ⟨.inl (ihl h).1, (ihl h).2⟩
    | gt =>
      rw [hb] at h
      exact ⟨.inr (.inr (ihr h).1), (ihr h).2⟩

/-- **An erased element leaves the others in their order**, whatever the comparison. -/
theorem toList_erase {t : BinTree α} (h : t.find c = some a) :
    ∃ l r, t.toList = l ++ a :: r ∧ (t.erase c).toList = l ++ r := by
  induction t with
  | nil => exact absurd h (by simp [find])
  | node l b r ihl ihr =>
    rw [find] at h
    rw [erase]
    cases hb : c b with
    | eq =>
      rw [hb, Option.some.injEq] at h
      exact ⟨l.toList, r.toList, h ▸ rfl, toList_join l r⟩
    | lt =>
      rw [hb] at h
      obtain ⟨u, v, huv, he⟩ := ihl h
      exact ⟨u, v ++ b :: r.toList, by simp [huv], by simp [he]⟩
    | gt =>
      rw [hb] at h
      obtain ⟨u, v, huv, he⟩ := ihr h
      exact ⟨l.toList ++ b :: u, v, by simp [huv], by simp [he]⟩

theorem erase_of_find_none {t : BinTree α} (h : t.find c = none) : t.erase c = t := by
  induction t with
  | nil => rfl
  | node l b r ihl ihr =>
    rw [find] at h
    rw [erase]
    cases hb : c b with
    | eq => exact absurd h (by simp [hb])
    | lt =>
      rw [hb] at h
      rw [ihl h]
    | gt =>
      rw [hb] at h
      rw [ihr h]

theorem insert_of_find_some {t : BinTree α} (h : t.find c = some a) : t.insert c x = t := by
  induction t with
  | nil => exact absurd h (by simp [find])
  | node l b r ihl ihr =>
    rw [find] at h
    rw [insert]
    cases hb : c b with
    | eq => rfl
    | lt =>
      rw [hb] at h
      rw [ihl h]
    | gt =>
      rw [hb] at h
      rw [ihr h]

theorem toList_modify {f : α → α} {t : BinTree α} (h : t.find c = some a) :
    ∃ l r, t.toList = l ++ a :: r ∧ (t.modify c f).toList = l ++ f a :: r := by
  induction t with
  | nil => exact absurd h (by simp [find])
  | node l b r ihl ihr =>
    rw [find] at h
    rw [modify]
    cases hb : c b with
    | eq =>
      rw [hb, Option.some.injEq] at h
      exact ⟨l.toList, r.toList, h ▸ rfl, h ▸ rfl⟩
    | lt =>
      rw [hb] at h
      obtain ⟨u, v, huv, he⟩ := ihl h
      exact ⟨u, v ++ b :: r.toList, by simp [huv], by simp [he]⟩
    | gt =>
      rw [hb] at h
      obtain ⟨u, v, huv, he⟩ := ihr h
      exact ⟨l.toList ++ b :: u, v, by simp [huv], by simp [he]⟩

theorem modify_of_find_none {f : α → α} {t : BinTree α} (h : t.find c = none) : t.modify c f = t := by
  induction t with
  | nil => rfl
  | node l b r ihl ihr =>
    rw [find] at h
    rw [modify]
    cases hb : c b with
    | eq => exact absurd h (by simp [hb])
    | lt =>
      rw [hb] at h
      rw [ihl h]
    | gt =>
      rw [hb] at h
      rw [ihr h]

/-- Only what the comparison says of the elements matters to a walk. -/
theorem find_congr {c' : α → Ordering} {t : BinTree α} (h : ∀ b ∈ t.toList, c b = c' b) :
    t.find c = t.find c' := by
  induction t with
  | nil => rfl
  | node l b r ihl ihr =>
    rw [find, find, h b (by simp), ihl fun d hd => h d (by simp [hd]), ihr fun d hd => h d (by simp [hd])]

theorem insert_congr {c' : α → Ordering} {t : BinTree α} (h : ∀ b ∈ t.toList, c b = c' b) :
    t.insert c x = t.insert c' x := by
  induction t with
  | nil => rfl
  | node l b r ihl ihr =>
    rw [insert, insert, h b (by simp), ihl fun d hd => h d (by simp [hd]), ihr fun d hd => h d (by simp [hd])]

end Walk

/-! ### Sorted trees -/

/-- The elements in order are pairwise `lt`. -/
def Sorted (cmp : α → α → Ordering) (t : BinTree α) : Prop :=
  t.toList.Pairwise fun a b => cmp a b = .lt

end BinTree

/-- Turning a comparison round reverses it, and `lt` chains. -/
structure Steers (cmp : α → α → Ordering) : Prop where
  swap : ∀ a b, cmp b a = (cmp a b).swap
  trans : ∀ {a b d}, cmp a b = .lt → cmp b d = .lt → cmp a d = .lt

/-- What lies after `c` stays after it further to the right, what lies before it further to the left. -/
structure SplitsAt (cmp : α → α → Ordering) (c : α → Ordering) : Prop where
  lt : ∀ {a b}, cmp a b = .lt → c a = .lt → c b = .lt
  gt : ∀ {a b}, cmp a b = .lt → c b = .gt → c a = .gt

theorem Steers.gt_iff {cmp : α → α → Ordering} (h : Steers cmp) {a b : α} :
    cmp a b = .gt ↔ cmp b a = .lt := by
  rw [h.swap a b]
  cases cmp a b <;> simp

theorem Steers.cuts {cmp : α → α → Ordering} (h : Steers cmp) (x : α) : SplitsAt cmp (cmp x) where
  lt hab hxa := h.trans hxa hab
  gt hab hxb := h.gt_iff.mpr (h.trans hab (h.gt_iff.mp hxb))

namespace BinTree

section Sorted

variable {cmp : α → α → Ordering} {c : α → Ordering} {x : α} {l r : BinTree α} {a : α}

theorem Sorted.left (h : Sorted cmp (node l a r)) : Sorted cmp l := (List.pairwise_append.mp h).1

theorem Sorted.right (h : Sorted cmp (node l a r)) : Sorted cmp r :=
  (List.pairwise_cons.mp (List.pairwise_append.mp h).2.1).2

theorem Sorted.lt_elem (h : Sorted cmp (node l a r)) {b : α} (hb : b ∈ l.toList) : cmp b a = .lt :=
  (List.pairwise_append.mp h).2.2 b hb a List.mem_cons_self

theorem Sorted.elem_lt (h : Sorted cmp (node l a r)) {b : α} (hb : b ∈ r.toList) : cmp a b = .lt :=
  (List.pairwise_cons.mp (List.pairwise_append.mp h).2.1).1 b hb

/-- **A walk that ends outside the tree** has all elements on its two sides. -/
theorem find_eq_none_iff (hc : SplitsAt cmp c) {t : BinTree α} (h : Sorted cmp t) :
    t.find c = none ↔ ∀ b ∈ t.toList, c b ≠ .eq := by
  induction t with
  | nil => simp [find]
  | node l a r ihl ihr =>
    rw [find]
    simp only [toList_node, List.mem_append, List.mem_cons]
    cases ha : c a with
    | eq => exact ⟨fun h' => absurd h' (by simp), fun h' => absurd ha (h' a (.inr (.inl rfl)))⟩
    | lt =>
      dsimp only
      rw [ihl h.left]
      refine ⟨fun h' b hb => ?_, fun h' b hb => h' b (.inl hb)⟩
      rcases hb with hb | rfl | hb
      · exact h' b hb
      · simp [ha]
      · simp [hc.lt (h.elem_lt hb) ha]
    | gt =>
      dsimp only
      rw [ihr h.right]
      refine ⟨fun h' b hb => ?_, fun h' b hb => h' b (.inr (.inr hb))⟩
      rcases hb with hb | rfl | hb
      · simp [hc.gt (h.lt_elem hb) ha]
      · simp [ha]
      · exact h' b hb

/-- **A walk finds an element whenever one ties.** -/
theorem find_isSome_iff (hc : SplitsAt cmp c) {t : BinTree α} (h : Sorted cmp t) :
    (t.find c).isSome = true ↔ ∃ b ∈ t.toList, c b = .eq := by
  rw [← Option.ne_none_iff_isSome, ne_eq, find_eq_none_iff hc h]
  simp

/-- **An inserted element comes between those before it and those after it.** -/
theorem toList_insert (hc : SplitsAt cmp c) {t : BinTree α} (h : Sorted cmp t) (hn : t.find c = none) :
    ∃ u v, t.toList = u ++ v ∧ (t.insert c x).toList = u ++ x :: v ∧ (∀ b ∈ u, c b = .gt) ∧
      ∀ b ∈ v, c b = .lt := by
  induction t with
  | nil => exact ⟨[], [], rfl, rfl, by simp, by simp⟩
  | node l a r ihl ihr =>
    rw [find] at hn
    rw [insert]
    cases ha : c a with
    | eq => exact absurd hn (by simp [ha])
    | lt =>
      rw [ha] at hn
      obtain ⟨u, v, huv, hi, hu, hv⟩ := ihl h.left hn
      refine ⟨u, v ++ a :: r.toList, by simp [huv], by simp [hi], hu, fun b hb => ?_⟩
      rcases List.mem_append.mp hb with hb | hb
      · exact hv b hb
      · rcases List.mem_cons.mp hb with rfl | hb
        · exact ha
        · exact hc.lt (h.elem_lt hb) ha
    | gt =>
      rw [ha] at hn
      obtain ⟨u, v, huv, hi, hu, hv⟩ := ihr h.right hn
      refine ⟨l.toList ++ a :: u, v, by simp [huv], by simp [hi], fun b hb => ?_, hv⟩
      rcases List.mem_append.mp hb with hb | hb
      · exact hc.gt (h.lt_elem hb) ha
      · rcases List.mem_cons.mp hb with rfl | hb
        · exact ha
        · exact hu b hb

/-- What is inserted by its own comparison keeps the tree sorted. -/
theorem Sorted.insert (hs : Steers cmp) {t : BinTree α} (h : Sorted cmp t) :
    Sorted cmp (t.insert (cmp x) x) := by
  cases hf : t.find (cmp x) with
  | some b => rwa [insert_of_find_some hf]
  | none =>
    obtain ⟨u, v, huv, hi, hu, hv⟩ := toList_insert (x := x) (hs.cuts x) h hf
    rw [Sorted, huv, List.pairwise_append] at h
    rw [Sorted, hi, List.pairwise_append, List.pairwise_cons]
    refine ⟨h.1, ⟨hv, h.2.1⟩, fun b hb d hd => ?_⟩
    rcases List.mem_cons.mp hd with rfl | hd
    · exact hs.gt_iff.mp (hu b hb)
    · exact h.2.2 b hb d hd

theorem Sorted.erase {t : BinTree α} (h : Sorted cmp t) (c : α → Ordering) : Sorted cmp (t.erase c) := by
  cases hf : t.find c with
  | none => rwa [erase_of_find_none hf]
  | some b =>
    obtain ⟨u, v, huv, he⟩ := toList_erase hf
    rw [Sorted, huv, List.pairwise_append, List.pairwise_cons] at h
    rw [Sorted, he, List.pairwise_append]
    exact ⟨h.1, h.2.1.2, fun b hb d hd => h.2.2 b hb d (List.mem_cons_of_mem _ hd)⟩

/-- The element found by a query that it alone ties with is found again by its own comparison. -/
theorem find_self (hs : Steers cmp) {t : BinTree α} (h : Sorted cmp t) {b : α} (hb : b ∈ t.toList)
    (he : cmp b b = .eq) : t.find (cmp b) = some b := by
  obtain ⟨d, hd⟩ := Option.isSome_iff_exists.mp ((find_isSome_iff (hs.cuts b) h).mpr ⟨b, hb, he⟩)
  obtain ⟨hm, hbd⟩ := find_eq_some hd
  obtain ⟨u, v, huv⟩ := List.append_of_mem hb
  rw [Sorted, huv, List.pairwise_append, List.pairwise_cons] at h
  rw [huv, List.mem_append, List.mem_cons] at hm
  rcases hm with hm | rfl | hm
  · have := h.2.2 d hm b List.mem_cons_self
    rw [hs.swap b d, hbd] at this
    exact absurd this (by simp)
  · exact hd
  · exact absurd (h.2.1.1 d hm) (by simp [hbd])

/-- A walk that lies after every element meets the elements on the right edge only; in a tree made of
ascending insertions these are all. -/
theorem steps_of_chain {t : BinTree α} (hl : ∀ b ∈ t.toList, c b = .gt)
    (hchain : t.steps (fun _ => .gt) = t.toList.length) : t.steps c = t.toList.length := by
  rw [← hchain]
  clear hchain
  induction t with
  | nil => rfl
  | node l a r _ ihr =>
    rw [steps, steps, hl a (by simp), ihr fun b hb => hl b (by simp [hb])]

theorem steps_insert_chain {t : BinTree α} (hl : ∀ b ∈ t.toList, c b = .gt) :
    (t.insert c x).steps (fun _ => .gt) = t.steps (fun _ => .gt) + 1 ∧
      (t.insert c x).toList = t.toList ++ [x] := by
  induction t with
  | nil => exact ⟨rfl, rfl⟩
  | node l a r _ ihr =>
    obtain ⟨hs, hi⟩ := ihr fun b hb => hl b (by simp [hb])
    rw [insert, hl a (by simp)]
    exact ⟨by simp [steps, hs], by simp [hi]⟩

end Sorted

end BinTree

end SearchTree
