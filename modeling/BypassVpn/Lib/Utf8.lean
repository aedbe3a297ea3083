import Mathlib.Algebra.Group.Nat.Defs
import Mathlib.Data.List.Basic

/-!
# UTF-8 and UTF-16

A decoder that is fed octet by octet and never fails: the longest prefix of a sequence that cannot be
completed becomes one replacement character.

* `Pending`: what is expected of the octets that complete a sequence; `step`, `decode`.
* `utf8`, `utf16`, `units`: the encodings of a string.
* **`decode_ascii`**: an ASCII octet stands for itself, whatever surrounds it. **`decode_utf8`**: text
  that was encoded is read back.
* `length_utf16_lt`: text beyond ASCII has fewer UTF-16 units than octets.
-/

namespace Utf8

/-- A sequence that waits for `missing` more octets; the next one is from `low` to `high`. -/
structure Pending where
  code : ℕ
  missing : ℕ
  low : ℕ
  high : ℕ
  tail : 0x80 ≤ low
  /-- The sequence stands for no ASCII character. -/
  long : 0x80 ≤ (code * 64 + (low - 0x80)) * 64 ^ (missing - 1)

theorem long_next {code missing low n : ℕ} (h : 0x80 ≤ (code * 64 + (low - 0x80)) * 64 ^ (missing - 1))
    (hn : low ≤ n) : 0x80 ≤ ((code * 64 + (n - 0x80)) * 64 + (0x80 - 0x80)) * 64 ^ (missing - 1 - 1) := by
  have hle : code * 64 + (low - 0x80) ≤ code * 64 + (n - 0x80) := by omega
  rw [Nat.sub_self, Nat.add_zero]
  rcases missing with _ | _ | m
  · simp only [Nat.zero_sub, Nat.pow_zero, Nat.mul_one] at h ⊢
    omega
  · simp only [Nat.zero_add, Nat.sub_self, Nat.zero_sub, Nat.pow_zero, Nat.mul_one] at h ⊢
    omega
  · have hm := Nat.mul_le_mul_right (64 ^ (m + 1)) hle
    simp only [Nat.add_sub_cancel] at h ⊢
    rw [Nat.mul_assoc, ← Nat.pow_succ']
    exact Nat.le_trans h hm

/-- The sequence after one more octet. -/
def Pending.next (p : Pending) (n : ℕ) (h : p.low ≤ n) : Pending where
  code := p.code * 64 + (n - 0x80)
  missing := p.missing - 1
  low := 0x80
  high := 0xBF
  tail := Nat.le_refl _
  long := long_next p.long h

/-- What the first octet of a longer sequence asks for. -/
def lead (n : ℕ) : Option Pending :=
  if h : 0xC2 ≤ n ∧ n ≤ 0xDF then some ⟨n - 0xC0, 1, 0x80, 0xBF, by decide, by omega⟩
  else if h : 0xE0 ≤ n ∧ n ≤ 0xEF then
    some ⟨n - 0xE0, 2, if n = 0xE0 then 0xA0 else 0x80, if n = 0xED then 0x9F else 0xBF,
      by split_ifs <;> decide, by split_ifs <;> omega⟩
  else if h : 0xF0 ≤ n ∧ n ≤ 0xF4 then
    some ⟨n - 0xF0, 3, if n = 0xF0 then 0x90 else 0x80, if n = 0xF4 then 0x8F else 0xBF,
      by split_ifs <;> decide, by split_ifs <;> omega⟩
  else none

/-- The replacement character. -/
def replacement : ℕ := 0xFFFD

/-- An octet at the start of a sequence. -/
def fresh (n : ℕ) : Option Pending × List ℕ :=
  if n < 0x80 then (none, [n])
  else match lead n with
    | some p => (some p, [])
    | none => (none, [replacement])

/-- An octet: the sequence it leaves open, and the code points it completes. -/
def step : Option Pending → ℕ → Option Pending × List ℕ
  | none, n => fresh n
  | some p, n =>
    if h : p.low ≤ n ∧ n ≤ p.high then
      if p.missing = 1 then (none, [(p.next n h.1).code]) else (some (p.next n h.1), [])
    else ((fresh n).1, replacement :: (fresh n).2)

/-- The code points of a text. -/
def decode : Option Pending → List UInt8 → List ℕ
  | none, [] => []
  | some _, [] => [replacement]
  | st, b :: bs => (step st b.toNat).2 ++ decode (step st b.toNat).1 bs

/-- The UTF-16 units of a code point. -/
def units (n : ℕ) : List UInt16 :=
  if n < 0x10000 then [UInt16.ofNat n]
  else
    [UInt16.ofNat (0xD800 + (n - 0x10000) / 0x400 % 0x400), UInt16.ofNat (0xDC00 + (n - 0x10000) % 0x400)]

/-- The octets of a string. -/
def utf8 (s : List Char) : List UInt8 := s.flatMap String.utf8EncodeChar

/-- The UTF-16 units of a string. -/
def utf16 (s : List Char) : List UInt16 := s.flatMap fun c => units c.toNat

/-! ### Decoding -/

theorem decode_cons (st : Option Pending) (b : UInt8) (bs : List UInt8) :
    decode st (b :: bs) = (step st b.toNat).2 ++ decode (step st b.toNat).1 bs := by
  cases st <;> rfl

/-- **An ASCII octet stands for itself**, even where it cuts a sequence short. -/
theorem decode_ascii {b : UInt8} (hb : b.toNat < 0x80) (st : Option Pending) (a bs : List UInt8) :
    decode st (a ++ b :: bs) = decode st a ++ b.toNat :: decode none bs := by
  induction a generalizing st with
  | nil =>
    have hfresh : fresh b.toNat = (none, [b.toNat]) := if_pos hb
    rw [List.nil_append, decode_cons]
    cases st with
    | none =>
      rw [step, hfresh]
      rfl
    | some p =>
      have hlow := p.tail
      rw [step, dif_neg (by omega), hfresh]
      rfl
  | cons x a ih =>
    rw [List.cons_append, decode_cons, decode_cons, ih, List.append_assoc]

theorem decode_none_ascii {b : UInt8} (hb : b.toNat < 0x80) (bs : List UInt8) :
    decode none (b :: bs) = b.toNat :: decode none bs :=
  decode_ascii hb none [] bs

theorem toNat_octet {n : ℕ} (h : n < 256) : (UInt8.ofNat n).toNat = n := by
  rw [UInt8.toNat_ofNat', Nat.mod_eq_of_lt h]

theorem decode_lead {n : ℕ} (h : 0x80 ≤ n) (hn : n < 256) {p : Pending} (hp : lead n = some p)
    (bs : List UInt8) : decode none (UInt8.ofNat n :: bs) = decode (some p) bs := by
  rw [decode_cons, toNat_octet hn, step, fresh, if_neg (by omega), hp, List.nil_append]

theorem decode_tail {p : Pending} {n : ℕ} (hl : p.low ≤ n) (hh : n ≤ p.high) (hn : n < 256)
    (hm : p.missing ≠ 1) (bs : List UInt8) :
    decode (some p) (UInt8.ofNat n :: bs) = decode (some (p.next n hl)) bs := by
  rw [decode_cons, toNat_octet hn, step, dif_pos ⟨hl, hh⟩, if_neg hm, List.nil_append]

theorem decode_last {p : Pending} {n : ℕ} (hl : p.low ≤ n) (hh : n ≤ p.high) (hn : n < 256)
    (hm : p.missing = 1) (bs : List UInt8) :
    decode (some p) (UInt8.ofNat n :: bs) = (p.code * 64 + (n - 0x80)) :: decode none bs := by
  rw [decode_cons, toNat_octet hn, step, dif_pos ⟨hl, hh⟩, if_pos hm]
  rfl

/-- **A character that was encoded is read back**, by the length of its encoding. -/
theorem decode_char (c : Char) (bs : List UInt8) :
    decode none (String.utf8EncodeChar c ++ bs) = c.toNat :: decode none bs := by
  have hvalid : c.toNat < 0xD800 ∨ 0xDFFF < c.toNat ∧ c.toNat < 0x110000 := c.valid
  rw [String.utf8EncodeChar, show c.val.toNat = c.toNat from rfl]
  generalize c.toNat = v at hvalid ⊢
  by_cases h1 : v ≤ 0x7f
  · rw [if_pos h1, List.singleton_append, decode_none_ascii (by rw [toNat_octet (by omega)]; omega),
      toNat_octet (by omega)]
  rw [if_neg h1]
  by_cases h2 : v ≤ 0x7ff
  · rw [if_pos h2, List.cons_append, List.singleton_append,
      decode_lead (by omega) (by omega) (by rw [lead, dif_pos (by omega)]),
      decode_last (by dsimp only; omega) (by dsimp only; omega) (by omega) rfl]
    exact congrArg (· :: decode none bs) (by dsimp only; omega)
  rw [if_neg h2]
  by_cases h3 : v ≤ 0xffff
  · rw [if_pos h3, List.cons_append, List.cons_append, List.singleton_append,
      decode_lead (by omega) (by omega) (by rw [lead, dif_neg (by omega), dif_pos (by omega)]),
      decode_tail (by dsimp only; split_ifs <;> omega) (by dsimp only; split_ifs <;> omega) (by omega)
        (show (2 : ℕ) ≠ 1 by decide),
      decode_last (by dsimp only [Pending.next]; omega) (by dsimp only [Pending.next]; omega) (by omega) rfl]
    exact congrArg (· :: decode none bs) (by dsimp only [Pending.next]; omega)
  · rw [if_neg h3, List.cons_append, List.cons_append, List.cons_append, List.singleton_append,
      decode_lead (by omega) (by omega)
        (by rw [lead, dif_neg (by omega), dif_neg (by omega), dif_pos (by omega)]),
      decode_tail (by dsimp only; split_ifs <;> omega) (by dsimp only; split_ifs <;> omega) (by omega)
        (show (3 : ℕ) ≠ 1 by decide),
      decode_tail (by dsimp only [Pending.next]; omega) (by dsimp only [Pending.next]; omega) (by omega)
        (show (2 : ℕ) ≠ 1 by decide),
      decode_last (by dsimp only [Pending.next]; omega) (by dsimp only [Pending.next]; omega) (by omega) rfl]
    exact congrArg (· :: decode none bs) (by dsimp only [Pending.next]; omega)

/-- No sequence of several octets stands for an ASCII character. -/
theorem mem_of_mem_decode {st : Option Pending} {bs : List UInt8} {n : ℕ} (h : n ∈ decode st bs)
    (hn : n < 0x80) : ∃ b ∈ bs, b.toNat = n := by
  have hfresh : ∀ m, n ∈ (fresh m).2 → m = n := by
    intro m hm
    unfold fresh at hm
    split_ifs at hm with hm'
    · exact (List.mem_singleton.mp hm).symm
    · split at hm
      · cases hm
      · have := List.mem_singleton.mp hm
        unfold replacement at this
        omega
  have hrep : n ≠ replacement := by
    unfold replacement
    omega
  induction bs generalizing st with
  | nil =>
    cases st with
    | none => cases h
    | some p => exact absurd (List.mem_singleton.mp h) hrep
  | cons b bs ih =>
    rw [decode_cons, List.mem_append] at h
    rcases h with h | h
    · refine ⟨b, List.mem_cons_self, ?_⟩
      cases st with
      | none => exact hfresh _ h
      | some p =>
        rw [step] at h
        split_ifs at h with hr hm
        · have hlong := p.long
          have hcode : n = p.code * 64 + (b.toNat - 0x80) := List.mem_singleton.mp h
          rw [hm, Nat.sub_self, Nat.pow_zero, Nat.mul_one] at hlong
          omega
        · cases h
        · rcases List.mem_cons.mp h with h | h
          · exact absurd h hrep
          · exact hfresh _ h
    · obtain ⟨x, hx, hxn⟩ := ih h
      exact ⟨x, List.mem_cons_of_mem _ hx, hxn⟩

theorem decode_ne_nil {st : Option Pending} {bs : List UInt8} (h : st ≠ none ∨ bs ≠ []) :
    decode st bs ≠ [] := by
  induction bs generalizing st with
  | nil =>
    cases st with
    | none => simp at h
    | some p => exact List.cons_ne_nil _ _
  | cons b bs ih =>
    rw [decode_cons]
    intro heq
    obtain ⟨hout, hrest⟩ := List.append_eq_nil_iff.mp heq
    by_cases hst : (step st b.toNat).1 = none
    · have hfresh : ∀ m, (fresh m).1 = none → (fresh m).2 ≠ [] := by
        intro m
        unfold fresh
        split_ifs
        · simp
        · split <;> simp
      cases st with
      | none => exact hfresh _ hst hout
      | some p =>
        rw [step] at hst hout
        split_ifs at hst hout
    · exact ih (.inl hst) hrest

/-- **Text that was encoded is read back.** -/
theorem decode_utf8 (s : List Char) (bs : List UInt8) :
    decode none (utf8 s ++ bs) = s.map Char.toNat ++ decode none bs := by
  induction s with
  | nil => rfl
  | cons c s ih =>
    rw [show utf8 (c :: s) = String.utf8EncodeChar c ++ utf8 s from rfl, List.append_assoc, decode_char, ih]
    rfl

/-! ### Lengths -/

/-- Characters that are encoded in one octet. -/
def Ascii (s : List Char) : Prop := ∀ c ∈ s, c.toNat < 0x80

theorem length_units_le (c : Char) : (units c.toNat).length ≤ (String.utf8EncodeChar c).length := by
  rw [units, String.utf8EncodeChar, show c.val.toNat = c.toNat from rfl]
  split_ifs <;> simp
  omega

theorem length_units_lt {c : Char} (h : 0x80 ≤ c.toNat) :
    (units c.toNat).length < (String.utf8EncodeChar c).length := by
  rw [units, String.utf8EncodeChar, show c.val.toNat = c.toNat from rfl,
    if_neg (show ¬ c.toNat ≤ 0x7f by omega)]
  split_ifs <;> simp
  omega

theorem length_utf16_le (s : List Char) : (utf16 s).length ≤ (utf8 s).length := by
  induction s with
  | nil => exact Nat.le_refl 0
  | cons c s ih =>
    have hc := length_units_le c
    simp only [utf16, utf8, List.flatMap_cons, List.length_append] at ih ⊢
    omega

/-- **Text beyond ASCII has fewer units than octets.** -/
theorem length_utf16_lt {s : List Char} (h : ¬ Ascii s) : (utf16 s).length < (utf8 s).length := by
  induction s with
  | nil => exact absurd (fun c hc => absurd hc List.not_mem_nil) h
  | cons c s ih =>
    have hle := length_units_le c
    have hle' := length_utf16_le s
    simp only [utf16, utf8, List.flatMap_cons, List.length_append] at ih hle' ⊢
    by_cases hc : c.toNat < 0x80
    · have hs : ¬ Ascii s := fun hs => h (List.forall_mem_cons.mpr ⟨hc, hs⟩)
      have := ih hs
      omega
    · have := length_units_lt (Nat.le_of_not_lt hc)
      omega

theorem eq_nil_of_utf16 {s : List Char} (h : utf16 s = []) : s = [] := by
  cases s with
  | nil => rfl
  | cons c s =>
    rw [utf16, List.flatMap_cons] at h
    have hc := (List.append_eq_nil_iff.mp h).1
    unfold units at hc
    split_ifs at hc

theorem utf8_of_ascii {s : List Char} (h : Ascii s) : utf8 s = s.map fun c => UInt8.ofNat c.toNat := by
  induction s with
  | nil => rfl
  | cons c s ih =>
    obtain ⟨hc, hs⟩ := List.forall_mem_cons.mp h
    rw [show utf8 (c :: s) = String.utf8EncodeChar c ++ utf8 s from rfl, ih hs, String.utf8EncodeChar,
      if_pos (show c.val.toNat ≤ 0x7f from Nat.le_of_lt_succ hc)]
    rfl

end Utf8
