import Mathlib.Data.List.Perm.Basic
import Mathlib.Data.List.Nodup
import Mathlib.Data.Prod.Basic

/-!
# Ledgers of acquired and released resources

A ledger is the list of events in which resources are opened and closed. Several parties may write to
one ledger; each one's part is a ledger of its own.

* `Event`, `opens`, `closes`; `Balanced`: each resource is opened once and closed exactly once, and
  nothing else is closed.
* `part`: the events of one party; **`balanced_iff_part`**: how the parts are interleaved does not
  matter.
* `Leaves`: what a ledger leaves open, kept by `Leaves.opened` and `Leaves.closed`.
* `held`, `Nested`: resources released in the reverse order, siblings in any order; **`Nested.perm`**.
-/

namespace Ledger

variable {ρ κ : Type*}

/-- A resource is opened or closed. -/
inductive Event (ρ : Type*) where
  | opened (r : ρ)
  | closed (r : ρ)
  deriving DecidableEq

/-- The resources opened, in order. -/
def opens (log : List (Event ρ)) : List ρ :=
  log.filterMap fun
    | .opened r => some r
    | .closed _ => none

/-- The resources closed, in order. -/
def closes (log : List (Event ρ)) : List ρ :=
  log.filterMap fun
    | .closed r => some r
    | .opened _ => none

@[simp] theorem opens_nil : opens ([] : List (Event ρ)) = [] := rfl

@[simp] theorem closes_nil : closes ([] : List (Event ρ)) = [] := rfl

@[simp] theorem opens_cons_opened (r : ρ) (log : List (Event ρ)) :
    opens (.opened r :: log) = r :: opens log := rfl

@[simp] theorem opens_cons_closed (r : ρ) (log : List (Event ρ)) :
    opens (.closed r :: log) = opens log := rfl

@[simp] theorem closes_cons_opened (r : ρ) (log : List (Event ρ)) :
    closes (.opened r :: log) = closes log := rfl

@[simp] theorem closes_cons_closed (r : ρ) (log : List (Event ρ)) :
    closes (.closed r :: log) = r :: closes log := rfl

@[simp] theorem opens_append (l l' : List (Event ρ)) : opens (l ++ l') = opens l ++ opens l' :=
  List.filterMap_append

@[simp] theorem closes_append (l l' : List (Event ρ)) : closes (l ++ l') = closes l ++ closes l' :=
  List.filterMap_append

@[simp] theorem opens_map_opened (rs : List ρ) : opens (rs.map .opened) = rs := by
  induction rs with
  | nil => rfl
  | cons r rs ih => rw [List.map_cons, opens_cons_opened, ih]

@[simp] theorem closes_map_opened (rs : List ρ) : closes (rs.map .opened) = [] := by
  induction rs with
  | nil => rfl
  | cons r rs ih => rw [List.map_cons, closes_cons_opened, ih]

/-- Every resource is opened at most once; those opened are closed exactly once, and no other is. -/
structure Balanced (log : List (Event ρ)) : Prop where
  once : (opens log).Nodup
  closed : (closes log).Perm (opens log)

theorem Balanced.nil : Balanced ([] : List (Event ρ)) := ⟨List.nodup_nil, .refl _⟩

/-- A balanced ledger leaves as many resources open as there were before. -/
theorem Balanced.length_eq {log : List (Event ρ)} (h : Balanced log) :
    (closes log).length = (opens log).length := h.closed.length_eq

section Part

variable [DecidableEq κ]

/-- The events of the party `k`. -/
def part (k : κ) (log : List (Event (κ × ρ))) : List (Event ρ) :=
  log.filterMap fun
    | .opened (j, r) => if j = k then some (.opened r) else none
    | .closed (j, r) => if j = k then some (.closed r) else none

variable [DecidableEq ρ]

theorem count_opens_part (k : κ) (r : ρ) (log : List (Event (κ × ρ))) :
    (opens (part k log)).count r = (opens log).count (k, r) := by
  induction log with
  | nil => rfl
  | cons e log ih =>
    rcases e with ⟨j, q⟩ | ⟨j, q⟩
    · by_cases h : j = k
      · subst h
        simpa [part, List.count_cons, opens] using ih
      · simpa [part, List.count_cons, opens, h] using ih
    · by_cases h : j = k
      · subst h
        simpa [part, opens] using ih
      · simpa [part, opens, h] using ih

theorem count_closes_part (k : κ) (r : ρ) (log : List (Event (κ × ρ))) :
    (closes (part k log)).count r = (closes log).count (k, r) := by
  induction log with
  | nil => rfl
  | cons e log ih =>
    rcases e with ⟨j, q⟩ | ⟨j, q⟩
    · by_cases h : j = k
      · subst h
        simpa [part, closes] using ih
      · simpa [part, closes, h] using ih
    · by_cases h : j = k
      · subst h
        simpa [part, List.count_cons, closes] using ih
      · simpa [part, List.count_cons, closes, h] using ih

/-- **A ledger is balanced exactly when each party's part is**, however the parts are interleaved. -/
theorem balanced_iff_part {log : List (Event (κ × ρ))} : Balanced log ↔ ∀ k, Balanced (part k log) := by
  constructor
  · intro h k
    refine ⟨List.nodup_iff_count_le_one.mpr fun r => ?_, List.perm_iff_count.mpr fun r => ?_⟩
    · rw [count_opens_part]
      exact List.nodup_iff_count_le_one.mp h.once (k, r)
    · rw [count_opens_part, count_closes_part]
      exact List.perm_iff_count.mp h.closed (k, r)
  · intro h
    refine ⟨List.nodup_iff_count_le_one.mpr fun ⟨k, r⟩ => ?_, List.perm_iff_count.mpr fun ⟨k, r⟩ => ?_⟩
    · rw [← count_opens_part]
      exact List.nodup_iff_count_le_one.mp (h k).once r
    · rw [← count_opens_part, ← count_closes_part]
      exact List.perm_iff_count.mp (h k).closed r

end Part

/-! ### What is left open -/

/-- Every resource is opened at most once; those not in `left` are closed exactly once, and no other is.
-/
structure Leaves (log : List (Event ρ)) (left : List ρ) : Prop where
  once : (opens log).Nodup
  perm : (closes log ++ left).Perm (opens log)

section Leaves

variable {log : List (Event ρ)} {left left' : List ρ} {r : ρ}

theorem Leaves.nil : Leaves ([] : List (Event ρ)) [] := ⟨List.nodup_nil, .refl _⟩

theorem Leaves.congr (h : Leaves log left) (hp : left.Perm left') : Leaves log left' :=
  ⟨h.once, (hp.append_left _).symm.trans h.perm⟩

theorem Leaves.opened (h : Leaves log left) (hr : r ∉ opens log) :
    Leaves (log ++ [.opened r]) (r :: left) := by
  constructor
  · rw [opens_append, opens_cons_opened, opens_nil]
    exact List.nodup_append.mpr ⟨h.once, List.nodup_singleton r, fun a ha b hb =>
      fun hab => hr (List.mem_singleton.mp hb ▸ hab ▸ ha)⟩
  · rw [opens_append, closes_append, opens_cons_opened, opens_nil, closes_cons_opened, closes_nil,
      List.append_nil]
    calc (closes log ++ r :: left).Perm (r :: (closes log ++ left)) := List.perm_middle
      _ |>.Perm (r :: opens log) := h.perm.cons r
      _ |>.Perm (opens log ++ [r]) := (List.perm_append_singleton r _).symm

theorem Leaves.closed (h : Leaves log (r :: left)) : Leaves (log ++ [.closed r]) left := by
  constructor
  · rw [opens_append, opens_cons_closed, opens_nil, List.append_nil]
    exact h.once
  · rw [opens_append, closes_append, opens_cons_closed, opens_nil, closes_cons_closed, closes_nil,
      List.append_nil, List.append_assoc]
    exact h.perm

theorem Leaves.balanced_iff (h : Leaves log left) : Balanced log ↔ left = [] := by
  constructor
  · intro hb
    have hlen := h.perm.length_eq
    rw [List.length_append, hb.length_eq] at hlen
    exact List.eq_nil_of_length_eq_zero (by omega)
  · rintro rfl
    refine ⟨h.once, ?_⟩
    rw [← List.append_nil (closes log)]
    exact h.perm

end Leaves

/-! ### Reverse order -/

section Nested

variable [DecidableEq ρ] (sib : ρ → ρ → Bool)

/-- Takes `r` from a stack; only siblings of `r` may lie above it. -/
def remove (r : ρ) : List ρ → Option (List ρ)
  | [] => none
  | x :: xs => if x = r then some xs else if sib x r then (remove r xs).map (x :: ·) else none

/-- The resources held after the events, latest first, `none` if one was opened while held, closed while
not held, or closed before a later one that is not its sibling. -/
def held : List ρ → List (Event ρ) → Option (List ρ)
  | stack, [] => some stack
  | stack, .opened r :: log => if r ∈ stack then none else held (r :: stack) log
  | stack, .closed r :: log => (remove sib r stack).bind fun stack => held stack log

/-- Everything opened is closed, in the reverse order up to siblings. -/
def Nested (log : List (Event ρ)) : Prop := held sib [] log = some []

variable {sib} {r : ρ} {stack stack' : List ρ} {log log' : List (Event ρ)}

theorem held_append : held sib stack (log ++ log') =
    (held sib stack log).bind fun st => held sib st log' := by
  induction log generalizing stack with
  | nil => rfl
  | cons e log ih =>
    cases e with
    | opened r =>
      rw [List.cons_append, held, held]
      split
      · rfl
      · exact ih
    | closed r =>
      rw [List.cons_append, held, held, Option.bind_assoc]
      exact congrArg _ (funext fun st => ih)

theorem held_opened (h : held sib stack log = some stack') (hr : r ∉ stack') :
    held sib stack (log ++ [.opened r]) = some (r :: stack') := by
  rw [held_append, h, Option.bind_some, held, if_neg hr, held]

theorem held_closed (h : held sib stack log = some stack') {st : List ρ}
    (hr : remove sib r stack' = some st) :
    held sib stack (log ++ [.closed r]) = some st := by
  rw [held_append, h, Option.bind_some, held, hr, Option.bind_some, held]

theorem remove_cons_self : remove sib r (r :: stack) = some stack := by
  rw [remove, if_pos rfl]

theorem remove_append {xs : List ρ} (hr : r ∈ xs) (hsib : ∀ x ∈ xs, sib x r = true) :
    remove sib r (xs ++ stack) = some (xs.erase r ++ stack) := by
  induction xs with
  | nil => exact absurd hr List.not_mem_nil
  | cons x xs ih =>
    rw [List.cons_append, remove]
    by_cases hx : x = r
    · rw [if_pos hx, hx, List.erase_cons_head]
    · rw [if_neg hx, if_pos (hsib x List.mem_cons_self),
        ih ((List.mem_cons.mp hr).resolve_left (Ne.symm hx)) fun y hy => hsib y (List.mem_cons_of_mem x hy),
        List.erase_cons_tail (by simpa using hx), Option.map_some, List.cons_append]

theorem remove_perm (h : remove sib r stack = some stack') : stack.Perm (r :: stack') := by
  induction stack generalizing stack' with
  | nil => cases h
  | cons x xs ih =>
    rw [remove] at h
    by_cases hx : x = r
    · rw [if_pos hx, Option.some.injEq] at h
      rw [hx, h]
    · rw [if_neg hx] at h
      split at h
      · obtain ⟨st, hst, rfl⟩ := Option.map_eq_some_iff.mp h
        exact ((ih hst).cons x).trans (.swap r x st)
      · cases h

theorem held_perm (h : held sib stack log = some stack') :
    (closes log ++ stack').Perm (opens log ++ stack) := by
  induction log generalizing stack with
  | nil =>
    rw [held, Option.some.injEq] at h
    rw [closes_nil, opens_nil, h]
  | cons e log ih =>
    cases e with
    | opened r =>
      rw [held] at h
      split at h
      · cases h
      · rw [closes_cons_opened, opens_cons_opened]
        exact (ih h).trans List.perm_middle
    | closed r =>
      rw [held] at h
      obtain ⟨st, hst, h⟩ := Option.bind_eq_some_iff.mp h
      rw [closes_cons_closed, opens_cons_closed]
      calc (r :: closes log ++ stack').Perm (r :: (opens log ++ st)) := (ih h).cons r
        _ |>.Perm (opens log ++ r :: st) := List.perm_middle.symm
        _ |>.Perm (opens log ++ stack) := (remove_perm hst).symm.append_left _

/-- **Nested events close exactly what they open.** -/
theorem Nested.perm (h : Nested sib log) : (closes log).Perm (opens log) := by
  have hp := held_perm h
  rwa [List.append_nil, List.append_nil] at hp

end Nested

end Ledger
