import Mathlib.Data.List.Basic

/-!
# Regions of a list

A buffer is read and overwritten region by region. `slice l i n` is the region of `n` entries from
position `i`; `patch l i bs` overwrites the region at `i` with `bs`.

* Lengths: `length_slice`, `length_patch`.
* Reading back: `slice_patch_self`, and the frame rule `slice_patch_left`.
* Cutting a patched list: `take_patch_left`, `take_patch_right`, `drop_patch_left`,
  `drop_patch_right`.
* Composing patches: `patch_patch_adjacent`, `patch_patch_self`, `patch_append`.
-/

namespace Region

variable {α : Type*}

/-- The `n` entries of `l` from position `i` on. -/
def slice (l : List α) (i n : ℕ) : List α := (l.drop i).take n

/-- `l` with the region at position `i` overwritten by `bs`. -/
def patch (l : List α) (i : ℕ) (bs : List α) : List α := l.take i ++ bs ++ l.drop (i + bs.length)

/-! ### Slices -/

theorem length_slice {l : List α} {i n : ℕ} (h : i + n ≤ l.length) : (slice l i n).length = n := by
  simp only [slice, List.length_take, List.length_drop]; omega

theorem slice_zero (l : List α) (n : ℕ) : slice l 0 n = l.take n := rfl

theorem slice_full (l : List α) : slice l 0 l.length = l := by simp [slice]

theorem slice_append_slice (l : List α) (i m n : ℕ) :
    slice l i m ++ slice l (i + m) n = slice l i (m + n) := by
  simp only [slice, List.take_add, List.drop_drop]

theorem slice_take {l : List α} {k i n : ℕ} (h : i + n ≤ k) : slice (l.take k) i n = slice l i n := by
  simp only [slice, List.drop_take, List.take_take]; congr 1; omega

theorem slice_drop (l : List α) (k i n : ℕ) : slice (l.drop k) i n = slice l (k + i) n := by
  simp only [slice, List.drop_drop]

theorem slice_slice {l : List α} {i n j m : ℕ} (h : j + m ≤ n) :
    slice (slice l i n) j m = slice l (i + j) m := by
  rw [← slice_drop, ← slice_take (l := l.drop i) h, ← slice]

theorem slice_append_left {a b : List α} {i n : ℕ} (h : i + n ≤ a.length) :
    slice (a ++ b) i n = slice a i n := by
  simp only [slice]
  rw [List.drop_append_of_le_length (by omega), List.take_append_of_le_length (by simp; omega)]

theorem slice_append_right {a b : List α} {i n : ℕ} (h : a.length ≤ i) :
    slice (a ++ b) i n = slice b (i - a.length) n := by
  simp only [slice, List.drop_append, List.drop_eq_nil_of_le h, List.nil_append]

theorem take_append_slice (l : List α) (i n : ℕ) : l.take i ++ slice l i n = l.take (i + n) :=
  (List.take_add (l := l) (i := i) (j := n)).symm

/-! ### Patches -/

theorem length_patch {l bs : List α} {i : ℕ} (h : i + bs.length ≤ l.length) :
    (patch l i bs).length = l.length := by
  simp only [patch, List.length_append, List.length_take, List.length_drop]; omega

theorem take_patch_left {l bs : List α} {i n : ℕ} (h : n ≤ i) (hi : i ≤ l.length) :
    (patch l i bs).take n = l.take n := by
  simp only [patch, List.append_assoc]
  rw [List.take_append_of_le_length (by simp; omega), List.take_take, Nat.min_eq_left h]

theorem drop_patch_left {l bs : List α} {i n : ℕ} (h : n ≤ i) (hi : i ≤ l.length) :
    (patch l i bs).drop n = patch (l.drop n) (i - n) bs := by
  simp only [patch, List.append_assoc]
  rw [List.drop_append_of_le_length (by simp; omega), List.drop_take, List.drop_drop]
  congr 3; omega

theorem drop_patch_right {l bs : List α} {i n : ℕ} (h : i + bs.length ≤ n)
    (hi : i + bs.length ≤ l.length) : (patch l i bs).drop n = l.drop n := by
  have hlen : (l.take i ++ bs).length = i + bs.length := by simp; omega
  rw [patch, List.drop_append, List.drop_eq_nil_of_le (by omega), List.nil_append, List.drop_drop]
  congr 1; omega

theorem take_patch_right {l bs : List α} {i n : ℕ} (h : i + bs.length ≤ n) (hn : n ≤ l.length) :
    (patch l i bs).take n = patch (l.take n) i bs := by
  have hlen : (l.take i ++ bs).length = i + bs.length := by simp; omega
  rw [patch, patch, List.take_append, List.take_of_length_le (by omega), List.take_take,
    Nat.min_eq_left (by omega), List.drop_take, hlen]

theorem slice_patch_self {l bs : List α} {i : ℕ} (hi : i ≤ l.length) :
    slice (patch l i bs) i bs.length = bs := by
  rw [slice, drop_patch_left (Nat.le_refl _) hi, Nat.sub_self, patch]
  simp

theorem slice_patch_eq {l bs : List α} {i n : ℕ} (hi : i ≤ l.length) (hn : bs.length = n) :
    slice (patch l i bs) i n = bs := by
  subst hn
  exact slice_patch_self hi

theorem slice_patch_left {l bs : List α} {i j n : ℕ} (h : j + n ≤ i) (hi : i ≤ l.length) :
    slice (patch l i bs) j n = slice l j n := by
  rw [← slice_take (k := i) (l := patch l i bs) h, take_patch_left (Nat.le_refl _) hi, slice_take h]

theorem patch_patch_adjacent {l a b : List α} {i j : ℕ} (hj : j = i + a.length)
    (hi : i + a.length ≤ l.length) : patch (patch l i a) j b = patch l i (a ++ b) := by
  subst hj
  have hlen : (l.take i ++ a).length = i + a.length := by simp; omega
  rw [patch, drop_patch_right (by omega) hi]
  rw [patch, List.take_append_of_le_length (by omega), List.take_of_length_le (by omega), patch,
    List.length_append, Nat.add_assoc, List.append_assoc, List.append_assoc, List.append_assoc]
  simp only [List.append_assoc]

theorem patch_patch_self {l a b : List α} {i : ℕ} (h : a.length = b.length)
    (hi : i + a.length ≤ l.length) : patch (patch l i a) i b = patch l i b := by
  rw [patch, take_patch_left (Nat.le_refl _) (by omega), drop_patch_right (by omega) hi, ← patch]

theorem patch_append {a r bs : List α} {i : ℕ} (hi : i = a.length) :
    patch (a ++ r) i bs = (a ++ bs) ++ r.drop bs.length := by
  subst hi
  simp [patch, List.drop_append]

/-! ### Entries -/

theorem getElem?_patch {l bs : List α} {i j : ℕ} (hi : i + bs.length ≤ l.length)
    (hj : j < i ∨ i + bs.length ≤ j) : (patch l i bs)[j]? = l[j]? := by
  rcases hj with hj | hj
  · rw [← List.getElem?_take_of_lt hj, take_patch_left (Nat.le_refl _) (by omega),
      List.getElem?_take_of_lt hj]
  · have hd := drop_patch_right (Nat.le_refl _) hi
    obtain ⟨k, rfl⟩ := Nat.exists_eq_add_of_le hj
    rw [← List.getElem?_drop, hd, List.getElem?_drop]

theorem slice_congr {l m : List α} {i n : ℕ} (h : ∀ j, i ≤ j → j < i + n → l[j]? = m[j]?) :
    slice l i n = slice m i n := by
  refine List.ext_getElem? fun k => ?_
  simp only [slice, List.getElem?_take, List.getElem?_drop]
  split_ifs with hk
  · exact h (i + k) (by omega) (by omega)
  · rfl

theorem drop_congr {l m : List α} {i : ℕ} (h : ∀ j, i ≤ j → l[j]? = m[j]?) : l.drop i = m.drop i := by
  refine List.ext_getElem? fun k => ?_
  rw [List.getElem?_drop, List.getElem?_drop]
  exact h (i + k) (by omega)

/-! ### Known regions -/

/-- `l` has the entries `bs` at position `i`. -/
def Holds (l : List α) (i : ℕ) (bs : List α) : Prop := slice l i bs.length = bs

theorem Holds.le_length {l bs : List α} {i : ℕ} (h : Holds l i bs) (hne : bs ≠ []) :
    i + bs.length ≤ l.length := by
  have hlen := congrArg List.length h
  have hpos := List.length_pos_iff.mpr hne
  simp only [slice, List.length_take, List.length_drop] at hlen
  omega

theorem Holds.append {l a b : List α} {i : ℕ} (h : Holds l i (a ++ b)) :
    Holds l i a ∧ Holds l (i + a.length) b := by
  rw [Holds, List.length_append, ← slice_append_slice] at h
  have hlen := congrArg List.length h
  simp only [slice, List.length_append, List.length_take, List.length_drop] at hlen
  exact List.append_inj h (by simp only [slice, List.length_take, List.length_drop]; omega)

theorem Holds.concat {l a b : List α} {i : ℕ} (ha : Holds l i a) (hb : Holds l (i + a.length) b) :
    Holds l i (a ++ b) := by
  rw [Holds, List.length_append, ← slice_append_slice, ha, hb]

theorem Holds.getElem?_eq {l bs : List α} {i : ℕ} {b : α} (h : Holds l i (b :: bs)) : l[i]? = some b := by
  have h0 := congrArg (fun x => x[0]?) h
  simpa [slice] using h0

end Region
