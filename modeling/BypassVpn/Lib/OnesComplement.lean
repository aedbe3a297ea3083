import Mathlib.Data.List.Induction
import Mathlib.Algebra.BigOperators.Group.List.Basic
import Mathlib.Tactic.Ring

/-!
# Big-endian octets and the one's-complement sum

* `val`, `be`: the number a string of octets stands for, and the octets of a number.
* `words`: the big-endian 16-bit words of a string of octets, an odd last octet padded with zero.
* `addc`: 16-bit addition with end-around carry; `sum16`: the one's-complement sum of all words.
* `norm16`: the closed form of the sum, `sum16_eq`.
* **`sum16_complement`**: a string whose checksum word is the complement of its sum with that word
  zeroed sums to `0xFFFF`; `sum16_complement_nonzero` is the same when `0` is sent as `0xFFFF`.
-/

namespace OnesComplement

/-! ### Big-endian numbers -/

/-- The number a string of octets stands for, most significant octet first. -/
def val (bs : List UInt8) : ℕ := bs.foldl (fun n b => n * 256 + b.toNat) 0

/-- The `w` low-order octets of `n`, most significant first. -/
def be : ℕ → ℕ → List UInt8
  | 0, _ => []
  | w + 1, n => be w (n / 256) ++ [UInt8.ofNat n]

@[simp] theorem length_be (w n : ℕ) : (be w n).length = w := by
  induction w generalizing n with
  | zero => rfl
  | succ w ih => simp [be, ih]

theorem val_append_singleton (bs : List UInt8) (b : UInt8) :
    val (bs ++ [b]) = val bs * 256 + b.toNat := by
  simp [val]

theorem val_pair (a b : UInt8) : val [a, b] = a.toNat * 256 + b.toNat := by
  simp [val]

theorem val_lt (bs : List UInt8) : val bs < 256 ^ bs.length := by
  induction bs using List.reverseRecOn with
  | nil => simp [val]
  | append_singleton bs b ih =>
    have := b.toNat_lt
    rw [val_append_singleton, List.length_append, List.length_singleton, Nat.pow_succ]
    omega

theorem val_be (w n : ℕ) : val (be w n) = n % 256 ^ w := by
  induction w generalizing n with
  | zero => simp [be, val, Nat.mod_one]
  | succ w ih =>
    rw [be, val_append_singleton, ih, Nat.pow_succ', Nat.mod_mul, UInt8.toNat_ofNat']
    ring

theorem val_be_of_lt {w n : ℕ} (h : n < 256 ^ w) : val (be w n) = n := by
  rw [val_be, Nat.mod_eq_of_lt h]

theorem be_two (n : ℕ) : be 2 n = [UInt8.ofNat (n / 256), UInt8.ofNat n] := rfl

theorem be_four (n : ℕ) : be 4 n = [UInt8.ofNat (n / 256 / 256 / 256), UInt8.ofNat (n / 256 / 256),
    UInt8.ofNat (n / 256), UInt8.ofNat n] := rfl

/-! ### Words and their sums -/

/-- The 16-bit words of a string of octets; an odd last octet is padded with zero. -/
def words : List UInt8 → List ℕ
  | [] => []
  | [a] => [a.toNat * 256]
  | a :: b :: bs => (a.toNat * 256 + b.toNat) :: words bs

/-- 16-bit addition with end-around carry. -/
def addc (x y : ℕ) : ℕ := if x + y < 65536 then x + y else x + y - 65535

/-- The one's-complement sum of the words of `bs`. -/
def sum16 (bs : List UInt8) : ℕ := (words bs).foldl addc 0

/-- The sum of the words, without carrying. -/
def wordSum (bs : List UInt8) : ℕ := (words bs).sum

/-- The 16-bit one's-complement representative of `s`: `0` for `0`, else in `1 … 0xFFFF`. -/
def norm16 (s : ℕ) : ℕ := if s = 0 then 0 else (s - 1) % 65535 + 1

theorem norm16_lt (s : ℕ) : norm16 s < 65536 := by
  unfold norm16; split_ifs <;> omega

theorem norm16_of_lt {s : ℕ} (h : s < 65536) : norm16 s = s := by
  unfold norm16; split_ifs <;> omega

theorem addc_norm16 (s w : ℕ) (hw : w < 65536) : addc (norm16 s) w = norm16 (s + w) := by
  unfold addc norm16; split_ifs <;> omega

theorem words_lt : ∀ (bs : List UInt8), ∀ w ∈ words bs, w < 65536
  | [], w, h => by simp [words] at h
  | [a], w, h => by
    have := a.toNat_lt
    simp only [words, List.mem_singleton] at h; omega
  | a :: b :: bs, w, h => by
    have := a.toNat_lt
    have := b.toNat_lt
    simp only [words, List.mem_cons] at h
    rcases h with rfl | h
    · omega
    · exact words_lt bs w h

theorem foldl_addc_norm16 (ws : List ℕ) (hws : ∀ w ∈ ws, w < 65536) (s : ℕ) :
    ws.foldl addc (norm16 s) = norm16 (s + ws.sum) := by
  induction ws generalizing s with
  | nil => simp
  | cons w ws ih =>
    rw [List.foldl_cons, addc_norm16 s w (hws w List.mem_cons_self),
      ih (fun x hx => hws x (List.mem_cons_of_mem _ hx)), List.sum_cons, Nat.add_assoc]

/-- **Carrying once at the end is carrying at every word.** -/
theorem sum16_eq (bs : List UInt8) : sum16 bs = norm16 (wordSum bs) := by
  have h := foldl_addc_norm16 (words bs) (words_lt bs) 0
  rwa [Nat.zero_add] at h

theorem wordSum_cons_cons (a b : UInt8) (bs : List UInt8) :
    wordSum (a :: b :: bs) = (a.toNat * 256 + b.toNat) + wordSum bs := by
  simp [wordSum, words]

theorem wordSum_append (as bs : List UInt8) (h : as.length % 2 = 0) :
    wordSum (as ++ bs) = wordSum as + wordSum bs := by
  match as, h with
  | [], _ => simp [wordSum, words]
  | [a], h => simp at h
  | a :: b :: as, h =>
    rw [List.cons_append, List.cons_append, wordSum_cons_cons, wordSum_cons_cons,
      wordSum_append as bs (by simp only [List.length_cons] at h; omega)]
    omega

theorem wordSum_be_two {n : ℕ} (h : n < 65536) : wordSum (be 2 n) = n := by
  have := Nat.mod_eq_of_lt (show n / 256 < 256 by omega)
  simp only [be_two, wordSum, words, UInt8.toNat_ofNat', List.sum_cons, List.sum_nil]
  omega

theorem wordSum_around {as cs bs : List UInt8} (h : as.length % 2 = 0) (hc : cs.length = 2) :
    wordSum (as ++ cs ++ bs) = wordSum as + wordSum cs + wordSum bs := by
  rw [wordSum_append _ _ (by rw [List.length_append]; omega), wordSum_append _ _ h]

theorem norm16_add_complement (s : ℕ) : norm16 (s + (65535 - norm16 s)) = 65535 := by
  unfold norm16; split_ifs <;> omega

theorem norm16_add_allOnes (s : ℕ) (h : norm16 s = 65535) : norm16 (s + 65535) = 65535 := by
  unfold norm16 at *
  split_ifs at *
  omega

theorem wordSum_zeros : wordSum [0, 0] = 0 := rfl

theorem sum16_with_checksum {as bs : List UInt8} {c : ℕ} (h : as.length % 2 = 0) (hc : c < 65536) :
    sum16 (as ++ be 2 c ++ bs) = norm16 (wordSum (as ++ [0, 0] ++ bs) + c) := by
  rw [sum16_eq, wordSum_around h (length_be 2 c), wordSum_around h rfl, wordSum_be_two hc,
    wordSum_zeros]
  congr 1; omega

/-- **The complement of the sum makes the string verify.** -/
theorem sum16_complement {as bs : List UInt8} (h : as.length % 2 = 0) :
    sum16 (as ++ be 2 (65535 - sum16 (as ++ [0, 0] ++ bs)) ++ bs) = 0xFFFF := by
  rw [sum16_with_checksum h (by omega), sum16_eq, norm16_add_complement]

theorem sum16_complement_nonzero {as bs : List UInt8} (h : as.length % 2 = 0) :
    sum16 (as ++ be 2 (if 65535 - sum16 (as ++ [0, 0] ++ bs) = 0 then 0xFFFF
      else 65535 - sum16 (as ++ [0, 0] ++ bs)) ++ bs) = 0xFFFF := by
  split_ifs with h0
  · have := norm16_lt (wordSum (as ++ [0, 0] ++ bs))
    rw [sum16_eq] at h0
    rw [sum16_with_checksum h (by omega), norm16_add_allOnes _ (by omega)]
  · exact sum16_complement h

end OnesComplement
