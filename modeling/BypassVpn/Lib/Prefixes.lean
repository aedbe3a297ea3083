import Mathlib.Algebra.Group.Nat.Defs
import Mathlib.Data.Bool.Basic
import Mathlib.Data.List.Infix
import Mathlib.Data.List.Pairwise
import Mathlib.Data.List.Perm.Subperm
import Mathlib.Order.Compare
import Mathlib.Order.Lattice
import BypassVpn.Lib.SearchTree

/-!
# Sets of blocks

A block is the set of all strings with a given prefix, and is written as that prefix. A set of blocks
none of which lies in another is what a search tree can hold whose comparison lets a prefix tie with its
extensions.

* `Tie`, `cmp`: the comparison; **`cmp_steers`**, `cmp_eq_iff`: it steers a search, and its ties are the
  prefixes.
* `Free`: no two blocks tie.
* `natBits`: numbers as strings of bits; **`cmp_natBits`**.
* `add`: a block is added, those that lie in it are dropped; **`tie_add`**.
-/

namespace Prefixes

open SearchTree

variable {α : Type*}

/-- One of the two blocks lies in the other. -/
def Tie (a b : List α) : Prop := a <+: b ∨ b <+: a

theorem Tie.symm {a b : List α} (h : Tie a b) : Tie b a := Or.symm h

theorem Tie.refl (a : List α) : Tie a a := .inl (List.prefix_refl a)

/-- Of two blocks that tie the shorter prefix is the larger block. -/
theorem Tie.prefix_of_le {a b : List α} (h : Tie a b) (hl : a.length ≤ b.length) : a <+: b := by
  rcases h with h | h
  · exact h
  · rw [h.eq_of_length (h.length_le.antisymm hl)]

@[simp] theorem tie_nil_left (b : List α) : Tie [] b := .inl b.nil_prefix

@[simp] theorem tie_nil_right (a : List α) : Tie a [] := .inr a.nil_prefix

@[simp] theorem tie_cons {a b : α} {as bs : List α} : Tie (a :: as) (b :: bs) ↔ a = b ∧ Tie as bs := by
  rw [Tie, Tie, List.cons_prefix_cons, List.cons_prefix_cons]
  exact ⟨fun h => h.elim (fun h => ⟨h.1, .inl h.2⟩) fun h => ⟨h.1.symm, .inr h.2⟩,
    fun h => h.2.imp (fun h' => ⟨h.1, h'⟩) fun h' => ⟨h.1.symm, h'⟩⟩

section Compare

variable [LinearOrder α]

/-- The order at the first place where the strings differ; strings that do not differ tie. -/
def cmp : List α → List α → Ordering
  | a :: as, b :: bs => (compare a b).then (cmp as bs)
  | _, _ => .eq

theorem cmp_eq_iff {a : List α} : ∀ {b : List α}, cmp a b = .eq ↔ Tie a b := by
  induction a with
  | nil => exact fun {b} => iff_of_true (by simp [cmp]) (tie_nil_left b)
  | cons a as ih =>
    intro b
    cases b with
    | nil => exact iff_of_true rfl (tie_nil_right _)
    | cons b bs => rw [cmp, Ordering.then_eq_eq, compare_eq_iff_eq, ih, tie_cons]

theorem cmp_swap (a : List α) : ∀ b : List α, cmp b a = (cmp a b).swap := by
  induction a with
  | nil => exact fun b => by cases b <;> rfl
  | cons a as ih =>
    intro b
    cases b with
    | nil => rfl
    | cons b bs =>
      have hab : compare b a = (compare a b).swap := by
        rcases lt_trichotomy a b with h | rfl | h
        · rw [compare_lt_iff_lt.mpr h, compare_gt_iff_gt.mpr h, Ordering.swap]
        · rw [compare_eq_iff_eq.mpr rfl, Ordering.swap]
        · rw [compare_lt_iff_lt.mpr h, compare_gt_iff_gt.mpr h, Ordering.swap]
      rw [cmp, cmp, ih, hab, Ordering.swap_then]

theorem cmp_cons_lt {a b : α} {as bs : List α} :
    cmp (a :: as) (b :: bs) = .lt ↔ a < b ∨ a = b ∧ cmp as bs = .lt := by
  rw [cmp, Ordering.then_eq_lt]
  exact or_congr compare_lt_iff_lt (and_congr compare_eq_iff_eq Iff.rfl)

theorem cmp_trans {a : List α} : ∀ {b d : List α}, cmp a b = .lt → cmp b d = .lt → cmp a d = .lt := by
  induction a with
  | nil => exact fun h _ => absurd h (by simp [cmp])
  | cons a as ih =>
    intro b d hab hbd
    cases b with
    | nil => exact absurd hab (by simp [cmp])
    | cons b bs =>
      cases d with
      | nil => exact absurd hbd (by simp [cmp])
      | cons d ds =>
        rw [cmp_cons_lt] at hab hbd ⊢
        rcases hab with hab | ⟨rfl, hab⟩
        · rcases hbd with hbd | ⟨rfl, _⟩
          · exact .inl (hab.trans hbd)
          · exact .inl hab
        · exact hbd.imp_right fun h => ⟨h.1, ih hab h.2⟩

/-- **The comparison steers a search**, though its ties are not transitive. -/
theorem cmp_steers : Steers (cmp (α := α)) := ⟨cmp_swap, cmp_trans⟩

theorem cmp_nil_left (b : List α) : cmp [] b = .eq := cmp_eq_iff.mpr (tie_nil_left b)

theorem cmp_nil_right (a : List α) : cmp a [] = .eq := cmp_eq_iff.mpr (tie_nil_right a)

theorem cmp_append {u : List α} : ∀ {v : List α}, u.length = v.length → ∀ a b : List α,
    cmp (u ++ a) (v ++ b) = (cmp u v).then (cmp a b) := by
  induction u with
  | nil =>
    intro v hv a b
    rw [List.length_eq_zero_iff.mp hv.symm, cmp_nil_left]
    rfl
  | cons x u ih =>
    intro v hv a b
    cases v with
    | nil => exact absurd hv (by simp)
    | cons y v =>
      rw [List.cons_append, List.cons_append, cmp, cmp, ih (Nat.succ.inj hv), Ordering.then_assoc]

/-- What lies beyond the end of the shorter string does not matter. -/
theorem cmp_take (a : List α) : ∀ b : List α, ∀ {n : ℕ}, min a.length b.length ≤ n →
    cmp (a.take n) (b.take n) = cmp a b := by
  induction a with
  | nil => exact fun b n _ => by rw [List.take_nil, cmp_nil_left, cmp_nil_left]
  | cons x a ih =>
    intro b n h
    cases b with
    | nil => rw [List.take_nil, cmp_nil_right, cmp_nil_right]
    | cons y b =>
      cases n with
      | zero => exact absurd h (by simp)
      | succ n =>
        rw [List.take_succ_cons, List.take_succ_cons, cmp, cmp,
          ih b (by simpa only [List.length_cons, Nat.add_min_add_right, Nat.add_le_add_iff_right] using h)]

end Compare

/-! ### Numbers as strings of bits -/

/-- The lowest `n` bits of a number, the highest one first. -/
def natBits : ℕ → ℕ → List Bool
  | 0, _ => []
  | n + 1, a => (a / 2 ^ n % 2 == 1) :: natBits n a

@[simp] theorem length_natBits (n a : ℕ) : (natBits n a).length = n := by
  induction n with
  | zero => rfl
  | succ n ih => rw [natBits, List.length_cons, ih]

theorem natBits_mod {n m : ℕ} (h : n ≤ m) (a : ℕ) : natBits n (a % 2 ^ m) = natBits n a := by
  induction n with
  | zero => rfl
  | succ n ih =>
    have hd : a % 2 ^ m / 2 ^ n % 2 = a / 2 ^ n % 2 := by
      obtain ⟨k, rfl⟩ := Nat.exists_eq_add_of_le h
      rw [show n + 1 + k = n + (1 + k) by omega, Nat.pow_add, Nat.mod_mul_right_div_self,
        Nat.pow_add, Nat.pow_one, Nat.mod_mul_right_mod]
    rw [natBits, natBits, ih (Nat.le_of_succ_le h), hd]

/-- The first bits of a number are the bits of a quotient. -/
theorem take_natBits (k n a : ℕ) : (natBits (k + n) a).take k = natBits k (a / 2 ^ n) := by
  induction k with
  | zero => rw [List.take_zero, natBits]
  | succ k ih =>
    rw [show k + 1 + n = k + n + 1 by omega, natBits, natBits, List.take_succ_cons, ih, Nat.div_div_eq_div_mul,
      ← Nat.pow_add, Nat.add_comm n k]

/-- **Strings of bits of one length are ordered as the numbers.** -/
theorem cmp_natBits (n : ℕ) : ∀ a b : ℕ, a < 2 ^ n → b < 2 ^ n →
    cmp (natBits n a) (natBits n b) = compare a b := by
  induction n with
  | zero =>
    intro a b ha hb
    rw [show a = 0 by omega, show b = 0 by omega]
    rfl
  | succ n ih =>
    intro a b ha hb
    have hp : 0 < 2 ^ n := Nat.two_pow_pos n
    have hqa : a / 2 ^ n < 2 := Nat.div_lt_of_lt_mul (by rwa [Nat.pow_succ] at ha)
    have hqb : b / 2 ^ n < 2 := Nat.div_lt_of_lt_mul (by rwa [Nat.pow_succ] at hb)
    have hea := Nat.div_add_mod a (2 ^ n)
    have heb := Nat.div_add_mod b (2 ^ n)
    have hra := Nat.mod_lt a hp
    have hrb := Nat.mod_lt b hp
    rw [natBits, natBits, cmp, ← natBits_mod (Nat.le_refl n) a, ← natBits_mod (Nat.le_refl n) b, ih _ _ hra hrb]
    -- the two numbers are told apart by their first bits or by the rest
    generalize a / 2 ^ n = qa at *
    generalize b / 2 ^ n = qb at *
    generalize a % 2 ^ n = ra at *
    generalize b % 2 ^ n = rb at *
    subst hea heb
    rcases Nat.lt_trichotomy qa qb with h | h | h
    · obtain ⟨rfl, rfl⟩ : qa = 0 ∧ qb = 1 := by omega
      rw [show compare (2 ^ n * 0 + ra) (2 ^ n * 1 + rb) = .lt from compare_lt_iff_lt.mpr (by omega)]
      rfl
    · subst h
      rw [show compare (qa % 2 == 1) (qa % 2 == 1) = .eq from compare_eq_iff_eq.mpr rfl]
      rcases Nat.lt_trichotomy ra rb with h | rfl | h
      · rw [compare_lt_iff_lt.mpr h, compare_lt_iff_lt.mpr (Nat.add_lt_add_left h _)]
        rfl
      · rw [compare_eq_iff_eq.mpr rfl, compare_eq_iff_eq.mpr rfl]
        rfl
      · rw [compare_gt_iff_gt.mpr h, compare_gt_iff_gt.mpr (Nat.add_lt_add_left h _)]
        rfl
    · obtain ⟨rfl, rfl⟩ : qa = 1 ∧ qb = 0 := by omega
      rw [show compare (2 ^ n * 1 + ra) (2 ^ n * 0 + rb) = .gt from compare_gt_iff_gt.mpr (by omega)]
      rfl

/-! ### Sets of blocks -/

/-- No block lies in another. -/
def Free (S : List (List α)) : Prop := S.Pairwise fun a b => ¬Tie a b

theorem Free.perm {S T : List (List α)} (h : Free S) (hp : S.Perm T) : Free T :=
  (hp.pairwise_iff fun h h' => h h'.symm).mp h

theorem Free.eq_of_tie {S : List (List α)} (h : Free S) {a b : List α} (ha : a ∈ S) (hb : b ∈ S)
    (ht : Tie a b) : a = b := by
  have : Std.Symm fun a b : List α => ¬Tie a b := ⟨fun _ _ h h' => h h'.symm⟩
  by_contra hne
  exact h.forall ha hb hne ht

variable [DecidableEq α]

/-- The block `k` is added: nothing happens if a block holds it already, else it takes the place of the
blocks it holds. -/
def add (S : List (List α)) (k : List α) : List (List α) :=
  if S.any (·.isPrefixOf k) then S else k :: S.filter fun j => !k.isPrefixOf j

/-- The order of the blocks does not matter to an addition. -/
theorem add_perm {S T : List (List α)} (h : S.Perm T) (k : List α) : (add S k).Perm (add T k) := by
  have hany : S.any (·.isPrefixOf k) = T.any (·.isPrefixOf k) := by
    rw [Bool.eq_iff_iff, List.any_eq_true, List.any_eq_true]
    simp only [h.mem_iff]
  rw [add, add, hany]
  split_ifs
  · exact h
  · exact (h.filter _).cons k

theorem add_of_not_tie {S : List (List α)} {k : List α} (h : ∀ j ∈ S, ¬Tie k j) : add S k = k :: S := by
  rw [add, if_neg, List.filter_eq_self.mpr]
  · intro j hj
    rw [Bool.not_eq_true', Bool.eq_false_iff, ne_eq, List.isPrefixOf_iff_prefix]
    exact fun hk => h j hj (.inl hk)
  · rw [List.any_eq_true]
    rintro ⟨j, hj, hk⟩
    exact h j hj (.inr (List.isPrefixOf_iff_prefix.mp hk))

theorem add_of_within {S : List (List α)} {j k : List α} (hj : j ∈ S) (h : j <+: k) : add S k = S := by
  have ha : S.any (·.isPrefixOf k) = true :=
    List.any_eq_true.mpr ⟨j, hj, List.isPrefixOf_iff_prefix.mpr h⟩
  rw [add, if_pos ha]

/-- A block of a free set that lies in the one added makes no difference. -/
theorem add_drop {l r : List (List α)} {j k : List α} (hf : Free (l ++ j :: r)) (h : k <+: j)
    (hl : k.length < j.length) : add (l ++ j :: r) k = add (l ++ r) k := by
  have hk : k.isPrefixOf j = true := List.isPrefixOf_iff_prefix.mpr h
  have hnot : ∀ S : List (List α), (∀ i ∈ S, i ∈ l ++ j :: r) → S.any (·.isPrefixOf k) = false := by
    intro S hS
    rw [Bool.eq_false_iff, ne_eq, List.any_eq_true]
    rintro ⟨i, hi, hik⟩
    have hik : i <+: k := List.isPrefixOf_iff_prefix.mp hik
    have hij : i = j := hf.eq_of_tie (hS i hi) (List.mem_append.mpr (.inr List.mem_cons_self))
      (.inl (hik.trans h))
    exact absurd hik.length_le (by rw [hij]; omega)
  have h₂ : (l ++ r).any (·.isPrefixOf k) = false := hnot _ fun i hi =>
    List.mem_append.mpr ((List.mem_append.mp hi).imp_right (List.mem_cons_of_mem j))
  rw [add, add, hnot _ fun _ hi => hi, h₂]
  simp [hk]

end Prefixes
