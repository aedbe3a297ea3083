import Mathlib.Data.List.Basic

/-!
# Intervals laid end to end

* `Tiles a ivs b`: the half-open intervals `ivs`, some of them perhaps empty, follow each other from `a`
  up to `b`, so that they partition what lies between.
* `Tiles.append`, `Tiles.single`: how they are put together.
-/

namespace Intervals

variable {α : Type*}

/-- The intervals begin at `a`, each begins where the one before it ends, and the last ends at `b`. -/
inductive Tiles [LE α] : α → List (α × α) → α → Prop
  | nil (a : α) : Tiles a [] a
  | cons {a b c : α} {ivs : List (α × α)} : a ≤ b → Tiles b ivs c → Tiles a ((a, b) :: ivs) c

theorem Tiles.single [LE α] {a b : α} (h : a ≤ b) : Tiles a [(a, b)] b := .cons h (.nil b)

theorem Tiles.append [LE α] {a b c : α} {l l' : List (α × α)} (h : Tiles a l b) (h' : Tiles b l' c) :
    Tiles a (l ++ l') c := by
  induction h with
  | nil => exact h'
  | cons hab _ ih => exact .cons hab (ih h')

end Intervals
