import Mathlib.Data.Bool.AllAny
import Mathlib.Data.List.Basic
import Mathlib.Data.String.Basic

/-!
# The text of flat JSON objects

Compact texts of objects whose values are strings, integers, booleans and arrays of strings, and a
reader for them.

* `Reads read render`: the reader takes back what was rendered, up to the delimiter behind it.
* `readString_quote`, `readLiteral_word`, **`readList_joined`**: strings with escapes, words, lists with
  commas.
* **`parse_render`**: an object is read back entry by entry.
-/

namespace JsonText

/-- What a flat object may hold. -/
inductive Value where
  | string (s : String)
  | int (n : Int)
  | bool (b : Bool)
  | array (items : List String)
  deriving DecidableEq

/-- A name and its value. -/
abbrev Entry := String × Value

/-- What ends a word. -/
def isDelimiter (c : Char) : Bool := c ∈ "{}[]/\\:,=;# \t\x0C\r\n".toList

/-- A reader takes a rendered value off a text and leaves the delimiter that follows. -/
def Reads {α : Type} (read : List Char → Option (α × List Char)) (render : α → List Char) : Prop :=
  ∀ x c s, isDelimiter c = true → read (render x ++ c :: s) = some (x, c :: s)

/-! ### Strings -/

/-- Four hexadecimal digits. -/
def hex4 (n : ℕ) : List Char :=
  [Nat.digitChar (n / 4096 % 16), Nat.digitChar (n / 256 % 16), Nat.digitChar (n / 16 % 16),
    Nat.digitChar (n % 16)]

/-- A character as it stands in a quoted string. -/
def escape (c : Char) : List Char :=
  if c = '"' ∨ c = '\\' ∨ c = '/' then ['\\', c]
  else if c = '\t' then ['\\', 't']
  else if c = '\x08' then ['\\', 'b']
  else if c = '\n' then ['\\', 'n']
  else if c = '\r' then ['\\', 'r']
  else if c = '\x0C' then ['\\', 'f']
  else if c.toNat ≤ 0x1F then '\\' :: 'u' :: hex4 c.toNat
  else [c]

/-- A quoted string. -/
def quote (s : List Char) : List Char := '"' :: (s.flatMap escape ++ ['"'])

/-- The value of a hexadecimal digit. -/
def hexValue (c : Char) : ℕ := if c.isDigit then c.toNat - 48 else c.toLower.toNat - 87

/-- The character of `\uXXXX`. -/
def unescapeHex (a b c d : Char) : Char :=
  Char.ofNat (hexValue a * 4096 + hexValue b * 256 + hexValue c * 16 + hexValue d)

/-- The character of `\x` for the other `x`. -/
def unescape (c : Char) : Char :=
  if c = 't' then '\t' else if c = 'b' then '\x08' else if c = 'n' then '\n' else if c = 'r' then '\r'
  else if c = 'f' then '\x0C' else c

/-- What follows an opening quote, up to the closing one. -/
def readString : List Char → Option (List Char × List Char)
  | [] => none
  | c :: s =>
    if c = '"' then some ([], s)
    else if c = '\\' then
      match s with
      | [] => none
      | e :: s =>
        if e = 'u' then
          match s with
          | a :: b :: c :: d :: s => (readString s).map fun r => (unescapeHex a b c d :: r.1, r.2)
          | _ => none
        else (readString s).map fun r => (unescape e :: r.1, r.2)
    else (readString s).map fun r => (c :: r.1, r.2)

theorem readString_plain {c : Char} (hq : c ≠ '"') (hb : c ≠ '\\') (s : List Char) :
    readString (c :: s) = (readString s).map fun r => (c :: r.1, r.2) := by
  rw [readString.eq_def]
  dsimp only
  rw [if_neg hq, if_neg hb]

theorem readString_short {e : Char} (he : e ≠ 'u') (s : List Char) :
    readString ('\\' :: e :: s) = (readString s).map fun r => (unescape e :: r.1, r.2) := by
  rw [readString.eq_def]
  dsimp only
  rw [if_neg (by decide), if_pos rfl, if_neg he]

theorem readString_hex (a b c d : Char) (s : List Char) :
    readString ('\\' :: 'u' :: a :: b :: c :: d :: s) =
      (readString s).map fun r => (unescapeHex a b c d :: r.1, r.2) := by
  rw [readString.eq_def]
  dsimp only
  rw [if_neg (by decide), if_pos rfl, if_pos rfl]

theorem readString_escape (c : Char) (s : List Char) :
    readString (escape c ++ s) = (readString s).map fun r => (c :: r.1, r.2) := by
  have hcontrol : ∀ n < 32, unescapeHex (Nat.digitChar (n / 4096 % 16)) (Nat.digitChar (n / 256 % 16))
      (Nat.digitChar (n / 16 % 16)) (Nat.digitChar (n % 16)) = Char.ofNat n := by decide
  by_cases h0 : c = '"' ∨ c = '\\' ∨ c = '/'
  · have hu : c ≠ 'u' ∧ unescape c = c := by rcases h0 with rfl | rfl | rfl <;> decide
    rw [escape, if_pos h0, List.cons_append, List.singleton_append, readString_short hu.1, hu.2]
  by_cases h1 : c = '\t'
  · subst h1; exact readString_short (e := 't') (by decide) s
  by_cases h2 : c = '\x08'
  · subst h2; exact readString_short (e := 'b') (by decide) s
  by_cases h3 : c = '\n'
  · subst h3; exact readString_short (e := 'n') (by decide) s
  by_cases h4 : c = '\r'
  · subst h4; exact readString_short (e := 'r') (by decide) s
  by_cases h5 : c = '\x0C'
  · subst h5; exact readString_short (e := 'f') (by decide) s
  rw [escape, if_neg h0, if_neg h1, if_neg h2, if_neg h3, if_neg h4, if_neg h5]
  obtain ⟨hq, hb, -⟩ : c ≠ '"' ∧ c ≠ '\\' ∧ c ≠ '/' := by simpa [not_or] using h0
  by_cases h6 : c.toNat ≤ 0x1F
  · have h := hcontrol c.toNat (by omega)
    rw [Char.ofNat_toNat] at h
    rw [if_pos h6]
    refine (readString_hex _ _ _ _ s).trans ?_
    rw [h]
  · rw [if_neg h6, List.singleton_append, readString_plain hq hb]

/-- **Strings.** -/
theorem readString_quote (t s : List Char) : readString (t.flatMap escape ++ '"' :: s) = some (t, s) := by
  induction t with
  | nil =>
    rw [List.flatMap_nil, List.nil_append, readString.eq_def]
    exact if_pos rfl
  | cons c t ih => rw [List.flatMap_cons, List.append_assoc, readString_escape, ih, Option.map_some]

/-- A string with its opening quote. -/
def readQuoted : List Char → Option (String × List Char)
  | [] => none
  | c :: s => if c = '"' then (readString s).map fun r => (String.ofList r.1, r.2) else none

theorem readQuoted_quote (t : String) (s : List Char) : readQuoted (quote t.toList ++ s) = some (t, s) := by
  rw [quote, List.cons_append, readQuoted, if_pos rfl, List.append_assoc, List.singleton_append,
    readString_quote, Option.map_some, String.ofList_toList]

/-! ### Words -/

/-- A decimal integer, with a sign or not. -/
def readInt (word : List Char) : Option Int :=
  match word with
  | [] => none
  | c :: digits =>
    if c = '-' then if digits.all Char.isDigit then some (-(Nat.ofDigitChars 10 digits 0 : ℕ)) else none
    else if word.all Char.isDigit then some (Nat.ofDigitChars 10 word 0 : ℕ) else none

/-- An integer, a truth value or `null`. -/
def readLiteral (s : List Char) : Option (Value × List Char) :=
  let word := s.takeWhile fun c => !isDelimiter c
  let rest := s.dropWhile fun c => !isDelimiter c
  if word = "true".toList then some (.bool true, rest)
  else if word = "false".toList then some (.bool false, rest)
  else (readInt word).map fun n => (.int n, rest)

theorem takeWhile_word {w : List Char} (hw : ∀ c ∈ w, isDelimiter c = false) {c : Char}
    (hc : isDelimiter c = true)
    (s : List Char) :
    (w ++ c :: s).takeWhile (fun c => !isDelimiter c) = w ∧
      (w ++ c :: s).dropWhile (fun c => !isDelimiter c) = c :: s := by
  have hpos : ∀ x ∈ w, (!isDelimiter x) = true := by
    intro x hx
    rw [hw x hx, Bool.not_false]
  rw [List.takeWhile_append_of_pos hpos, List.dropWhile_append_of_pos hpos,
    List.takeWhile_cons_of_neg (by simp [hc]), List.dropWhile_cons_of_neg (by simp [hc]), List.append_nil]
  exact ⟨rfl, rfl⟩

theorem isDigit_of_mem {n : ℕ} {c : Char} (hc : c ∈ Nat.toDigits 10 n) : c.isDigit = true :=
  Nat.isDigit_of_mem_toDigits (by omega) (by omega) hc

theorem toList_int (n : Int) :
    n.repr.toList = if 0 ≤ n then Nat.toDigits 10 n.toNat else '-' :: Nat.toDigits 10 (-n).toNat := by
  rw [Int.repr_eq_if]
  split_ifs with hn
  · rw [Nat.toList_repr]
  · rw [String.toList_append, Nat.toList_repr]
    rfl

theorem mem_toList_int {n : Int} {c : Char} (hc : c ∈ n.repr.toList) : c = '-' ∨ c.isDigit = true := by
  rw [toList_int] at hc
  split_ifs at hc with hn
  · exact Or.inr (isDigit_of_mem hc)
  · rcases List.mem_cons.mp hc with h | h
    · exact Or.inl h
    · exact Or.inr (isDigit_of_mem h)

theorem readInt_toList (n : Int) : readInt n.repr.toList = some n := by
  have hdigits : ∀ m, (Nat.toDigits 10 m).all Char.isDigit = true := by
    intro m
    rw [List.all_eq_true]
    exact fun c hc => isDigit_of_mem hc
  rw [toList_int]
  split_ifs with hn
  · have hall := hdigits n.toNat
    have hvalue := Nat.ofDigitChars_ten_toDigits (n := n.toNat)
    have hne := Nat.toDigits_ne_nil (n := n.toNat) (b := 10)
    cases hd : Nat.toDigits 10 n.toNat with
    | nil => exact absurd hd hne
    | cons c digits =>
      have hc : c ≠ '-' := by
        rintro rfl
        have hmem := isDigit_of_mem (hd ▸ List.mem_cons_self : '-' ∈ Nat.toDigits 10 n.toNat)
        revert hmem
        decide
      rw [hd] at hall hvalue
      rw [readInt, if_neg hc, if_pos hall, hvalue, Int.toNat_of_nonneg hn]
  · rw [readInt, if_pos rfl, if_pos (hdigits _), Nat.ofDigitChars_ten_toDigits]
    congr 1
    omega

theorem isDelimiter_digit {c : Char} (hc : c.isDigit = true) : isDelimiter c = false := by
  have hrange : ∀ n < 58, 48 ≤ n → isDelimiter (Char.ofNat n) = false := by decide
  obtain ⟨hge, hle⟩ : 48 ≤ c.toNat ∧ c.toNat ≤ 57 := Char.isDigit_iff_toNat.mp hc
  have h := hrange c.toNat (by omega) hge
  rwa [Char.ofNat_toNat] at h

/-- **Integers.** -/
theorem readLiteral_int (n : Int) {c : Char} (hc : isDelimiter c = true) (s : List Char) :
    readLiteral (n.repr.toList ++ c :: s) = some (.int n, c :: s) := by
  have hw : ∀ x ∈ n.repr.toList, isDelimiter x = false := by
    intro x hx
    rcases mem_toList_int hx with rfl | h
    · decide
    · exact isDelimiter_digit h
  have hne : ∀ t : List Char, 't' ∈ t ∨ 'f' ∈ t → n.repr.toList ≠ t := by
    rintro t ht rfl
    rcases ht with h | h <;> rcases mem_toList_int h with h | h <;> revert h <;> decide
  obtain ⟨hword, hrest⟩ := takeWhile_word hw hc s
  rw [readLiteral, hword, hrest, if_neg (hne _ (by decide)), if_neg (hne _ (by decide)),
    readInt_toList, Option.map_some]

/-- **Booleans.** -/
theorem readLiteral_bool (b : Bool) {c : Char} (hc : isDelimiter c = true) (s : List Char) :
    readLiteral ((toString b).toList ++ c :: s) = some (.bool b, c :: s) := by
  have hw : ∀ x ∈ (toString b).toList, isDelimiter x = false := by
    cases b <;> exact List.all_iff_forall_prop.mp (by decide)
  obtain ⟨hword, hrest⟩ := takeWhile_word hw hc s
  rw [readLiteral, hword, hrest]
  cases b with
  | true => exact if_pos rfl
  | false => rw [if_neg (by decide)]; exact if_pos rfl

/-! ### Lists -/

section Lists

variable {α : Type} (read : List Char → Option (α × List Char)) (close : Char)

/-- Elements with commas between them, up to the closing character. -/
def readElements : ℕ → List Char → Option (List α × List Char)
  | 0, _ => none
  | fuel + 1, s =>
    match read s with
    | none => none
    | some (x, s) =>
      match s with
      | [] => none
      | c :: s =>
        if c = ',' then (readElements fuel s).map fun r => (x :: r.1, r.2)
        else if c = close then some ([x], s) else none

/-- What follows an opening character. -/
def readList : List Char → Option (List α × List Char)
  | [] => none
  | c :: s => if c = close then some ([], s) else readElements read close (s.length + 1) (c :: s)

variable {read close} {render : α → List Char}

theorem readElements_joined (hread : Reads read render) (hclose : isDelimiter close = true)
    (hcomma : close ≠ ',')
    (s : List Char) {xs : List α} (hne : xs ≠ []) {fuel : ℕ} (hfuel : xs.length ≤ fuel) :
    readElements read close fuel ([','].intercalate (xs.map render) ++ close :: s) = some (xs, s) := by
  induction xs generalizing fuel with
  | nil => exact absurd rfl hne
  | cons x xs ih =>
    obtain ⟨fuel, rfl⟩ : ∃ k, fuel = k + 1 := ⟨fuel - 1, by rw [List.length_cons] at hfuel; omega⟩
    rw [readElements]
    cases xs with
    | nil =>
      rw [List.map_cons, List.map_nil, List.intercalate_singleton, hread x close s hclose]
      simp [hcomma]
    | cons y ys =>
      have hrest : (y :: ys).length ≤ fuel := by
        rw [List.length_cons] at hfuel
        omega
      have ih' := ih (List.cons_ne_nil y ys) hrest
      rw [List.map_cons, List.map_cons, List.intercalate_cons_cons, ← List.map_cons, List.append_assoc,
        List.append_assoc, List.singleton_append, hread x ',' _ (by decide)]
      simp only [if_true]
      rw [ih', Option.map_some]

theorem length_le_intercalate (f : α → List Char) (xs : List α) :
    xs.length ≤ ([','].intercalate (xs.map f)).length + 1 := by
  induction xs with
  | nil => simp
  | cons x xs ih =>
    cases xs with
    | nil => simp
    | cons y ys =>
      rw [List.map_cons, List.map_cons, List.intercalate_cons_cons, ← List.map_cons, List.length_append,
        List.length_append, List.length_singleton, List.length_cons]
      omega

/-- **Lists.** -/
theorem readList_joined (hread : Reads read render) (hclose : isDelimiter close = true) (hcomma : close ≠ ',')
    (hhead : ∀ x, ∃ c t, render x = c :: t ∧ c ≠ close) (xs : List α) (s : List Char) :
    readList read close ([','].intercalate (xs.map render) ++ close :: s) = some (xs, s) := by
  cases xs with
  | nil => simp [readList]
  | cons x xs =>
    obtain ⟨c, t, hc, hne⟩ := hhead x
    obtain ⟨t', ht⟩ : ∃ t', [','].intercalate ((x :: xs).map render) ++ close :: s = c :: t' := by
      cases xs with
      | nil => exact ⟨t ++ close :: s, by simp [hc]⟩
      | cons y ys =>
        rw [List.map_cons, List.map_cons, List.intercalate_cons_cons, hc]
        exact ⟨_, rfl⟩
    have hlength := length_le_intercalate render (x :: xs)
    have hcount := congrArg List.length ht
    rw [List.length_append, List.length_cons, List.length_cons] at hcount
    have hfuel : (x :: xs).length ≤ t'.length + 1 := by omega
    have h := readElements_joined hread hclose hcomma s (List.cons_ne_nil x xs) hfuel
    rw [ht] at h ⊢
    rw [readList, if_neg hne, h]

end Lists

/-! ### Objects -/

/-- A list of strings, without its brackets. -/
def renderList (xs : List String) : List Char := [','].intercalate (xs.map fun t => quote t.toList)

/-- The text of a value. -/
def renderValue : Value → List Char
  | .string s => quote s.toList
  | .int n => n.repr.toList
  | .bool b => (toString b).toList
  | .array items => '[' :: (renderList items ++ [']'])

/-- The text of an entry. -/
def renderEntry (e : Entry) : List Char := quote e.1.toList ++ ':' :: renderValue e.2

/-- The text of an object. -/
def render (entries : List Entry) : String :=
  String.ofList ('{' :: ([','].intercalate (entries.map renderEntry) ++ ['}']))

/-- A value and the text behind it. -/
def readValue : List Char → Option (Value × List Char)
  | [] => none
  | c :: s =>
    if c = '"' then (readQuoted (c :: s)).map fun r => (.string r.1, r.2)
    else if c = '[' then (readList readQuoted ']' s).map fun r => (.array r.1, r.2)
    else readLiteral (c :: s)

/-- An entry and the text behind it. -/
def readEntry (s : List Char) : Option (Entry × List Char) :=
  (readQuoted s).bind fun key =>
    match key.2 with
    | [] => none
    | c :: s => if c = ':' then (readValue s).map fun r => ((key.1, r.1), r.2) else none

/-- The entries of an object. -/
def parse (text : String) : Option (List Entry) :=
  match text.toList with
  | [] => none
  | c :: s => if c = '{' then (readList readEntry '}' s).map Prod.fst else none

theorem reads_quoted : Reads readQuoted fun t : String => quote t.toList :=
  fun t c s _ => readQuoted_quote t (c :: s)

theorem readValue_word {w : List Char} {v : Value} {c : Char} {s : List Char} (hne : w ≠ [])
    (hw : ∀ x ∈ w, x ≠ '"' ∧ x ≠ '[') (h : readLiteral (w ++ c :: s) = some (v, c :: s)) :
    readValue (w ++ c :: s) = some (v, c :: s) := by
  cases w with
  | nil => exact absurd rfl hne
  | cons a w =>
    obtain ⟨hq, hb⟩ := hw a List.mem_cons_self
    rw [List.cons_append] at h ⊢
    rw [readValue, if_neg hq, if_neg hb, h]

theorem reads_value : Reads readValue renderValue := by
  intro v c s hc
  cases v with
  | string t =>
    rw [renderValue, quote, List.cons_append, readValue, if_pos rfl, ← List.cons_append, ← quote,
      readQuoted_quote, Option.map_some]
  | int n =>
    refine readValue_word ?_ ?_ (readLiteral_int n hc s)
    · intro h
      have hread := readInt_toList n
      rw [show n.repr.toList = [] from h] at hread
      cases hread
    · intro x hx
      rcases mem_toList_int hx with rfl | hdigit
      · decide
      · constructor <;> (rintro rfl; revert hdigit; decide)
  | bool b =>
    refine readValue_word (by cases b <;> decide) ?_ (readLiteral_bool b hc s)
    cases b <;> exact List.all_iff_forall_prop.mp (by decide)
  | array items =>
    have hread := readList_joined reads_quoted (show isDelimiter ']' = true by decide) (by decide)
      (fun t => ⟨'"', _, rfl, by decide⟩) items (c :: s)
    rw [renderValue, List.cons_append, readValue, if_neg (by decide), if_pos rfl, List.append_assoc,
      List.singleton_append, renderList, hread, Option.map_some]

theorem reads_entry : Reads readEntry renderEntry := by
  rintro ⟨k, v⟩ c s hc
  rw [renderEntry, List.append_assoc, readEntry, readQuoted_quote, Option.bind_some]
  simp only [List.cons_append, if_true]
  rw [reads_value v c s hc, Option.map_some]

/-- **An object is read back entry by entry.** -/
theorem parse_render (entries : List Entry) : parse (render entries) = some entries := by
  have hread := readList_joined reads_entry (show isDelimiter '}' = true by decide) (by decide)
    (fun e => ⟨'"', _, rfl, by decide⟩) entries []
  rw [parse, render, String.toList_ofList]
  simp only [if_true]
  rw [hread, Option.map_some]

end JsonText
