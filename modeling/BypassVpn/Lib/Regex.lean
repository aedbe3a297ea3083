import Mathlib.Data.List.Basic

/-!
# Sequence expressions

Regular expressions that are sequences of single characters and greedy repetitions of a class, with
capturing groups around repetitions, searched from left to right with backtracking.

* `Item`, `matchAt`, `find`: an expression, a match at the front of a text, the first match in it.
* `matchAt_lits`: a literal is matched as a prefix. **`matchAt_many_one`**: a repetition in front of a
  character outside its class needs no backtracking.
* `find_skip`: text in which the first item never matches is passed over.
-/

namespace Regex

variable {α : Type*}

/-- One character of a class, or a greedy repetition, which may be captured. -/
inductive Item (α : Type*) where
  | one (p : α → Bool)
  | many (p : α → Bool) (capture : Bool)

/-- The captured groups of a match at the front of a text; a repetition gives back one character after
the other until the rest matches. -/
def matchAt : List (Item α) → List α → Option (List (List α))
  | [], _ => some []
  | .one _ :: _, [] => none
  | .one p :: items, c :: s => if p c then matchAt items s else none
  | .many p capture :: items, s =>
    (List.range ((s.takeWhile p).length + 1)).reverse.findSome? fun k =>
      (matchAt items (s.drop k)).map fun groups => if capture then s.take k :: groups else groups

/-- The captured groups of the first match. -/
def find (items : List (Item α)) : List α → Option (List (List α))
  | [] => matchAt items []
  | c :: s => (matchAt items (c :: s)).or (find items s)

/-- A literal character. -/
def lit [DecidableEq α] (c : α) : Item α := .one fun x => x = c

/-- A literal. -/
def lits [DecidableEq α] (t : List α) : List (Item α) := t.map lit

section
variable [DecidableEq α]

theorem matchAt_lit (c : α) (items : List (Item α)) (s : List α) :
    matchAt (lit c :: items) (c :: s) = matchAt items s := by
  rw [lit, matchAt, if_pos (by simp)]

theorem matchAt_lit_of_ne {c d : α} (h : d ≠ c) (items : List (Item α)) (s : List α) :
    matchAt (lit c :: items) (d :: s) = none := by
  rw [lit, matchAt, if_neg (by simpa using h)]

/-- **A literal is matched as a prefix.** -/
theorem matchAt_lits (t : List α) (items : List (Item α)) (s : List α) :
    matchAt (lits t ++ items) (t ++ s) = matchAt items s := by
  induction t with
  | nil => rfl
  | cons c t ih => rw [lits, List.map_cons, List.cons_append, List.cons_append, matchAt_lit, ← lits, ih]

theorem matchAt_lits_of_not_prefix {t s : List α} (h : ¬ t <+: s) (items : List (Item α)) :
    matchAt (lits t ++ items) s = none := by
  induction t generalizing s with
  | nil => exact absurd List.nil_prefix h
  | cons c t ih =>
    rw [lits, List.map_cons, List.cons_append, ← lits]
    cases s with
    | nil => rfl
    | cons d s =>
      by_cases hd : d = c
      · subst hd
        rw [matchAt_lit]
        exact ih fun hp => h ((List.prefix_cons_inj d).mpr hp)
      · exact matchAt_lit_of_ne hd _ _

end

theorem matchAt_one_of_not {p : α → Bool} {c : α} (h : p c = false) (items : List (Item α)) (s : List α) :
    matchAt (.one p :: items) (c :: s) = none := by
  rw [matchAt, h]
  rfl

/-- **A repetition in front of a character outside its class** takes all it can: what it could give
back does not match. -/
theorem matchAt_many_one {p q : α → Bool} (hpq : ∀ c, p c = true → q c = false) (capture : Bool)
    (items : List (Item α)) (u s : List α) (hu : ∀ c ∈ u, p c = true) (hs : ∀ c ∈ s.head?, p c = false) :
    matchAt (.many p capture :: .one q :: items) (u ++ s) =
      (matchAt (.one q :: items) s).map fun groups => if capture then u :: groups else groups := by
  have hend : s.takeWhile p = [] := by
    cases s with
    | nil => rfl
    | cons c s => rw [List.takeWhile_cons, hs c rfl]; rfl
  have htake : (u ++ s).takeWhile p = u := by rw [List.takeWhile_append_of_pos hu, hend, List.append_nil]
  rw [matchAt, htake, List.range_succ, List.reverse_append, List.reverse_singleton, List.singleton_append,
    List.findSome?_cons, List.drop_left, List.take_left]
  have hback : (List.range u.length).reverse.findSome? (fun k =>
      (matchAt (.one q :: items) ((u ++ s).drop k)).map fun groups =>
        if capture then (u ++ s).take k :: groups else groups) = none := by
    rw [List.findSome?_eq_none_iff]
    intro k hk
    have hk : k < u.length := by simpa using hk
    have hq : q u[k] = false := hpq _ (hu _ (List.getElem_mem hk))
    rw [List.drop_append_of_le_length (Nat.le_of_lt hk), List.drop_eq_getElem_cons hk, List.cons_append,
      matchAt_one_of_not hq, Option.map_none]
  rw [hback]
  cases matchAt (.one q :: items) s <;> rfl

/-- Text in which the first item never matches is passed over. -/
theorem find_skip {p : α → Bool} {items : List (Item α)} {u : List α} (h : ∀ c ∈ u, p c = false)
    (s : List α) : find (.one p :: items) (u ++ s) = find (.one p :: items) s := by
  induction u with
  | nil => rfl
  | cons c u ih =>
    obtain ⟨hc, hu⟩ := List.forall_mem_cons.mp h
    rw [List.cons_append, find, matchAt_one_of_not hc, Option.none_or, ih hu]

end Regex
