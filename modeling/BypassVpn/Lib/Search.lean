import Mathlib.Data.List.Infix
import Mathlib.Data.List.TakeWhile
import Mathlib.Data.List.Triplewise

/-!
# First hits and needles

A table is searched from its front; a needle is searched in texts that are joined by a separator.

* `listed`: the value under a key. **`map_find?_eq_iff`**: when the first hit has the value of a given key.
* `find?_filterMap_eq`: entries that cannot be hit are left out.
* **`infix_intercalate`**: a needle without the separator stands in one of the joined texts.
-/

namespace Search

/-! ### First hits in a table -/

section FirstHit

variable {κ β : Type*}

/-- The value under a key. -/
def listed [DecidableEq κ] (l : List (κ × β)) (k : κ) : Option β := (l.find? fun e => e.1 = k).map Prod.snd

/-- **First hits.** In a table whose equal values stand together, the first key with `p` has the value
of `k` iff no key with `p` and another value stands before `k`. -/
theorem map_find?_eq_iff [DecidableEq κ] {k : κ} {p : κ → Bool} (hp : p k = true) {l : List (κ × β)}
    (hl : l.Triplewise fun a b c => a.2 = c.2 → b.2 = a.2) :
    (l.find? fun e => p e.1).map Prod.snd = listed l k ↔
      ∀ e ∈ l.takeWhile (fun e => e.1 ≠ k), some e.2 ≠ listed l k → p e.1 = false := by
  induction hl with
  | nil => simp [listed]
  | @cons a l htail _ ih =>
    by_cases hk : a.1 = k
    · simp [listed, hk, hp]
    have hlisted : listed (a :: l) k = listed l k := by
      rw [listed, List.find?_cons_of_neg (by simpa using hk), ← listed]
    rw [hlisted, List.takeWhile_cons_of_pos (by simpa using hk), List.forall_mem_cons]
    cases hpa : p a.1 with
    | false =>
      rw [List.find?_cons_of_neg (by simp [hpa]), ih]
      simp
    | true =>
      rw [List.find?_cons_of_pos (by simpa using hpa), Option.map_some]
      refine ⟨fun h => ⟨fun hne => absurd h hne, ?_⟩, fun h => ?_⟩
      · -- what stands before `k` has the value of `a`, as `k` itself has
        intro e he hne
        obtain ⟨c, hc, hac⟩ := Option.map_eq_some_iff.mp h.symm
        have hsplit := List.takeWhile_append_dropWhile (p := fun e : κ × β => decide (e.1 ≠ k)) (l := l)
        have hmem : c ∈ l.dropWhile fun e => decide (e.1 ≠ k) := by
          have hcl := List.mem_of_find?_eq_some hc
          rw [← hsplit, List.mem_append] at hcl
          refine hcl.resolve_left fun htake => ?_
          have := List.mem_takeWhile_imp htake
          have hck := List.find?_some hc
          simp_all
        rw [← hsplit, List.pairwise_append] at htail
        have heq := htail.2.2 e he c hmem hac.symm
        rw [heq] at hne
        exact absurd h hne
      · by_contra hne
        cases h.1 hne

theorem find?_filterMap_eq {α : Type*} {f : α → Option (κ × β)} {p : α → Bool} {q : κ → Bool}
    {g : α → β} (l : List α)
    (hnone : ∀ a ∈ l, f a = none → p a = false)
    (hsome : ∀ a ∈ l, ∀ e, f a = some e → p a = q e.1 ∧ g a = e.2) :
    (l.find? p).map g = ((l.filterMap f).find? fun e => q e.1).map Prod.snd := by
  induction l with
  | nil => rfl
  | cons a l ih =>
    have ih' := ih (fun x hx => hnone x (List.mem_cons_of_mem _ hx)) fun x hx =>
      hsome x (List.mem_cons_of_mem _ hx)
    cases hf : f a with
    | none =>
      rw [List.filterMap_cons_none hf, List.find?_cons_of_neg (by simp [hnone a List.mem_cons_self hf]), ih']
    | some e =>
      obtain ⟨hp, hg⟩ := hsome a List.mem_cons_self e hf
      rw [List.filterMap_cons_some hf]
      by_cases h : q e.1 = true
      · rw [List.find?_cons_of_pos (by rw [hp, h]), List.find?_cons_of_pos (by exact h), Option.map_some,
          Option.map_some, hg]
      · rw [List.find?_cons_of_neg (by rw [hp]; exact h), List.find?_cons_of_neg (by exact h), ih']

end FirstHit

/-! ### Needles in joined texts -/

section Joined

variable {α : Type*} {a : α} {x : List α}

theorem infix_append_cons (ha : a ∉ x) {s t : List α} : x <:+: s ++ a :: t ↔ x <:+: s ∨ x <:+: t := by
  rw [List.infix_append_iff, List.infix_cons_iff]
  have hprefix : ∀ y : List α, a ∉ y → y <+: a :: t → y = [] := by
    intro y hy h
    rcases List.prefix_cons_iff.mp h with rfl | ⟨z, rfl, -⟩
    · rfl
    · exact absurd List.mem_cons_self hy
  constructor
  · rintro (h | (h | h) | ⟨y, z, rfl, hy, hz⟩)
    · exact Or.inl h
    · obtain rfl := hprefix x ha h
      exact Or.inl List.nil_infix
    · exact Or.inr h
    · obtain rfl := hprefix z (fun h => ha (List.mem_append_right y h)) hz
      rw [List.append_nil]
      exact Or.inl hy.isInfix
  · rintro (h | h)
    · exact Or.inl h
    · exact Or.inr (Or.inl (Or.inr h))

/-- A needle without the separator stands in one of the joined texts. -/
theorem infix_intercalate (ha : a ∉ x) (hx : x ≠ []) (texts : List (List α)) :
    x <:+: [a].intercalate texts ↔ ∃ t ∈ texts, x <:+: t := by
  induction texts with
  | nil => simpa using hx
  | cons t texts ih =>
    cases texts with
    | nil => simp
    | cons u texts =>
      rw [List.intercalate_cons_cons, List.append_assoc, List.singleton_append, infix_append_cons ha, ih]
      simp

end Joined

end Search
