import BypassVpn.Config
import BypassVpn.Lib.Search
import BypassVpn.Profile.JsonProfile

/-!
# `NetworkProfileDetector.presetForIsp`

The first needle of `ISP_PRESET_MAP` that stands anywhere in the joined texts of an operator decides.

* `OPERATOR_NAMES`, `AS_NUMBERS`: the two kinds of needles.
* **`presetForIsp_eq_listed_iff`**: an operator that is known by its AS number only gets the preset of
  this number iff no other number of the table is read out of its texts first.
* `presetName_presetForIsp`: what is suggested is shipped.
-/

namespace BypassVpn.Profile

open Search

/-! ### The source -/

/-- `lowercase()` of one character. A letter outside ASCII stands for its lower case, except for the two
whose lower case begins with an ASCII letter. -/
def lowercaseChar (c : Char) : List Char :=
  if c = '\u0130' then ['i', '\u0307'] else if c = '\u212A' then ['k'] else [c.toLower]

/-- `lowercase` of a text. -/
def lowercase (s : List Char) : List Char := s.flatMap lowercaseChar

/-- `contains` of a text. -/
def contains (s needle : List Char) : Bool := s.tails.any fun t => needle.isPrefixOf t

/-- `ISP_PRESET_MAP`. -/
def ISP_PRESET_MAP : List (String × String) := [
  ("kazakhtelecom", "kz-telecom"),
  ("kcell", "kz-telecom"),
  ("aktivator", "kz-telecom"),
  ("as9198", "kz-telecom"),
  ("mts", "mts-ru"),
  ("as8359", "mts-ru"),
  ("beeline", "beeline-ru"),
  ("vimpelcom", "beeline-ru"),
  ("as3216", "beeline-ru"),
  ("as8386", "beeline-ru"),
  ("rostelecom", "rostelecom"),
  ("as12389", "rostelecom")]

/-- `listOfNotNull(profile.isp, profile.org, profile.asn)`. -/
def IspProfile.texts (profile : IspProfile) : List String :=
  [profile.isp, profile.org, profile.asn].filterMap id

/-- The text that the needles are looked up in. -/
def haystack (profile : IspProfile) : List Char := lowercase (" ".intercalate profile.texts).toList

/-- `presetForIsp`: the first needle that is found. -/
def presetForIsp : Option IspProfile → Option String
  | none => none
  | some profile =>
    if isNotBlank (String.ofList (haystack profile)) then
      (ISP_PRESET_MAP.find? fun e => contains (haystack profile) e.1.toList).map Prod.snd
    else none

/-! ### The two kinds of needles -/

/-- The number of a needle `as<number>`. -/
def asNumber? (needle : String) : Option ℕ :=
  match needle.toList with
  | 'a' :: 's' :: digits =>
    if digits.all Char.isDigit && !digits.isEmpty then some (Nat.ofDigitChars 10 digits 0) else none
  | _ => none

/-- The needles that are names. -/
def OPERATOR_NAMES : List String :=
  (ISP_PRESET_MAP.map Prod.fst).filter fun needle => (asNumber? needle).isNone

/-- The needles that are numbers of autonomous systems. -/
def AS_NUMBERS : List (ℕ × String) := ISP_PRESET_MAP.filterMap fun e => (asNumber? e.1).map fun n => (n, e.2)

/-- `as<number>`. -/
def asNeedle (n : ℕ) : List Char := 'a' :: 's' :: Nat.toDigits 10 n

/-- A needle stands in a text, whatever the case of its letters. -/
def Mentions (needle text : List Char) : Prop := needle <:+: lowercase text

instance (needle text : List Char) : Decidable (Mentions needle text) := by unfold Mentions; infer_instance

/-- The number `n` is read out of the texts of an operator with AS number `number`: its digits begin
those of `number`, or `as<n>` stands in one of the free texts. -/
def IsRead (profile : IspProfile) (number : ℕ) (name : String) (n : ℕ) : Prop :=
  Nat.toDigits 10 n <+: Nat.toDigits 10 number ∨
    ∃ s ∈ name :: [profile.isp, profile.org].filterMap id, Mentions (asNeedle n) s.toList

instance (profile : IspProfile) (number : ℕ) (name : String) (n : ℕ) :
    Decidable (IsRead profile number name n) := by
  unfold IsRead; infer_instance

/-! ### What is found in the joined texts -/

theorem contains_iff {s needle : List Char} : contains s needle = true ↔ needle <:+: s := by
  rw [contains, List.any_eq_true, List.infix_iff_prefix_suffix]
  simp [and_comm]

theorem lowercase_append (s t : List Char) : lowercase (s ++ t) = lowercase s ++ lowercase t :=
  List.flatMap_append

theorem lowercase_intercalate (texts : List (List Char)) :
    lowercase ([' '].intercalate texts) = [' '].intercalate (texts.map lowercase) := by
  induction texts with
  | nil => rfl
  | cons t texts ih =>
    cases texts with
    | nil => simp
    | cons u texts =>
      rw [List.intercalate_cons_cons, lowercase_append, lowercase_append, ih, List.map_cons, List.map_cons,
        List.map_cons, List.intercalate_cons_cons, show lowercase [' '] = [' '] by decide]

theorem lowercase_digits (n : ℕ) : lowercase (Nat.toDigits 10 n) = Nat.toDigits 10 n := by
  have hrange : ∀ n < 58, 48 ≤ n → lowercaseChar (Char.ofNat n) = [Char.ofNat n] := by decide
  have hdigit : ∀ c : Char, c.isDigit = true → lowercaseChar c = [c] := by
    intro c hc
    obtain ⟨hge, hle⟩ : 48 ≤ c.toNat ∧ c.toNat ≤ 57 := Char.isDigit_iff_toNat.mp hc
    have h := hrange c.toNat (by omega) hge
    rwa [Char.ofNat_toNat] at h
  have hall : ∀ s : List Char, (∀ c ∈ s, c.isDigit = true) → lowercase s = s := by
    intro s hs
    induction s with
    | nil => rfl
    | cons c s ih =>
      rw [lowercase, List.flatMap_cons, hdigit c (hs c List.mem_cons_self), ← lowercase,
        ih fun x hx => hs x (List.mem_cons_of_mem c hx), List.singleton_append]
  exact hall _ fun c hc => Nat.isDigit_of_mem_toDigits (by omega) (by omega) hc

/-- A needle without a space stands in the joined texts iff one of the texts mentions it. -/
theorem contains_haystack (profile : IspProfile) {needle : List Char} (hspace : ' ' ∉ needle)
    (hne : needle ≠ []) :
    contains (haystack profile) needle = true ↔ ∃ s ∈ profile.texts, Mentions needle s.toList := by
  rw [contains_iff, haystack, String.toList_intercalate, show " ".toList = [' '] by decide,
    lowercase_intercalate,
    infix_intercalate hspace hne]
  simp [Mentions]

theorem not_mem_digits {c : Char} (hc : c.isDigit = false) (n : ℕ) : c ∉ Nat.toDigits 10 n := by
  intro h
  rw [Nat.isDigit_of_mem_toDigits (by omega) (by omega) h] at hc
  cases hc

theorem asNeedle_infix_iff {m n : ℕ} :
    asNeedle m <:+: asNeedle n ↔ Nat.toDigits 10 m <+: Nat.toDigits 10 n := by
  have ha : 'a' ∉ 's' :: Nat.toDigits 10 n := by
    rw [List.mem_cons, not_or]
    exact ⟨by decide, not_mem_digits (by decide) n⟩
  rw [asNeedle, asNeedle, List.infix_cons_iff, List.cons_prefix_cons, List.cons_prefix_cons]
  constructor
  · rintro (⟨-, -, h⟩ | h)
    · exact h
    · exact absurd (h.subset List.mem_cons_self) ha
  · intro h
    exact Or.inl ⟨rfl, rfl, h⟩

/-- `AS<number> <name>`. -/
def asnText (number : ℕ) (name : String) : String := "AS" ++ toString number ++ " " ++ name

theorem lowercase_asnText (number : ℕ) (name : String) :
    lowercase (asnText number name).toList = asNeedle number ++ ' ' :: lowercase name.toList := by
  have hrepr : (toString number).toList = Nat.toDigits 10 number := Nat.toList_repr
  rw [asnText, String.toList_append, String.toList_append, String.toList_append, hrepr, lowercase_append,
    lowercase_append, lowercase_append, lowercase_digits, show lowercase "AS".toList = ['a', 's'] by decide,
    show lowercase " ".toList = [' '] by decide, asNeedle]
  simp

theorem space_not_mem_asNeedle (n : ℕ) : ' ' ∉ asNeedle n := by
  rw [asNeedle, List.mem_cons, List.mem_cons, not_or, not_or]
  exact ⟨by decide, by decide, not_mem_digits (by decide) n⟩

theorem mentions_asnText {n number : ℕ} {name : String} :
    Mentions (asNeedle n) (asnText number name).toList ↔
      Nat.toDigits 10 n <+: Nat.toDigits 10 number ∨ Mentions (asNeedle n) name.toList := by
  rw [Mentions, lowercase_asnText, infix_append_cons (space_not_mem_asNeedle n), asNeedle_infix_iff, Mentions]

variable {profile : IspProfile} {number : ℕ} {name : String}

theorem contains_asNeedle (hasn : profile.asn = some (asnText number name)) (n : ℕ) :
    contains (haystack profile) (asNeedle n) = true ↔ IsRead profile number name n := by
  rw [contains_haystack profile (space_not_mem_asNeedle n) (List.cons_ne_nil _ _), IsRead]
  have htexts : profile.texts = [profile.isp, profile.org].filterMap id ++ [asnText number name] := by
    rw [IspProfile.texts, hasn]
    cases profile.isp <;> cases profile.org <;> rfl
  rw [htexts, List.exists_mem_cons_iff]
  simp only [List.mem_append, List.mem_singleton, or_and_right, exists_or, exists_eq_left, mentions_asnText]
  rw [or_comm, or_assoc]

theorem isNotBlank_haystack (hasn : profile.asn = some (asnText number name)) :
    isNotBlank (String.ofList (haystack profile)) = true := by
  have h : contains (haystack profile) (asNeedle number) = true :=
    (contains_asNeedle hasn number).mpr (Or.inl List.prefix_rfl)
  rw [isNotBlank, String.toList_ofList, List.any_eq_true]
  exact ⟨'a', (contains_iff.mp h).subset List.mem_cons_self, by decide⟩

/-- Without a name of an operator in the texts, the first AS number that is read decides. -/
theorem presetForIsp_eq (hasn : profile.asn = some (asnText number name))
    (hnames : ∀ needle ∈ OPERATOR_NAMES, ∀ s ∈ profile.texts, ¬ Mentions needle.toList s.toList) :
    presetForIsp (some profile) =
      (AS_NUMBERS.find? fun e => decide (IsRead profile number name e.1)).map Prod.snd := by
  rw [presetForIsp, if_pos (isNotBlank_haystack hasn)]
  refine find?_filterMap_eq (f := fun e => (asNumber? e.1).map fun n => (n, e.2))
    (q := fun n => decide (IsRead profile number name n)) ISP_PRESET_MAP ?_ ?_
  · intro e he hnone
    have hname : asNumber? e.1 = none := by simpa using hnone
    have hmem : e.1 ∈ OPERATOR_NAMES :=
      List.mem_filter.mpr ⟨List.mem_map_of_mem he, by rw [hname]; rfl⟩
    have hword : ∀ needle ∈ OPERATOR_NAMES, ' ' ∉ needle.toList ∧ needle.toList ≠ [] := by decide
    rw [Bool.eq_false_iff, Ne, contains_haystack profile (hword _ hmem).1 (hword _ hmem).2]
    rintro ⟨s, hs, h⟩
    exact hnames _ hmem s hs h
  · intro e he x hx
    obtain ⟨n, hn, rfl⟩ := Option.map_eq_some_iff.mp hx
    have hneedle : ∀ e ∈ ISP_PRESET_MAP, ∀ n ∈ asNumber? e.1, e.1.toList = asNeedle n := by decide
    refine ⟨?_, rfl⟩
    rw [Bool.eq_iff_iff, decide_eq_true_iff, hneedle e he n hn, contains_asNeedle hasn]

/-- **AS numbers.** For an operator `AS<number> <name>` whose texts mention no operator name, the preset
is the one listed for `number` (none, if there is none) iff no number with another preset that comes
before it in the table is read out of the texts. -/
theorem presetForIsp_eq_listed_iff (profile : IspProfile) (number : ℕ) (name : String)
    (hasn : profile.asn = some (asnText number name))
    (hnames : ∀ needle ∈ OPERATOR_NAMES, ∀ s ∈ profile.texts, ¬ Mentions needle.toList s.toList) :
    presetForIsp (some profile) = listed AS_NUMBERS number ↔
      ∀ e ∈ AS_NUMBERS.takeWhile (fun e => e.1 ≠ number), some e.2 ≠ listed AS_NUMBERS number →
        ¬ IsRead profile number name e.1 := by
  have hgroups : AS_NUMBERS.Triplewise fun a b c => a.2 = c.2 → b.2 = a.2 := by
    rw [show AS_NUMBERS = [(9198, "kz-telecom"), (8359, "mts-ru"), (3216, "beeline-ru"), (8386, "beeline-ru"),
      (12389, "rostelecom")] by decide]
    simp [List.triplewise_cons]
  have hown : decide (IsRead profile number name number) = true := by
    rw [decide_eq_true_iff]
    exact Or.inl List.prefix_rfl
  rw [presetForIsp_eq hasn hnames]
  have h := map_find?_eq_iff (p := fun n => decide (IsRead profile number name n)) hown hgroups
  rw [h]
  simp only [decide_eq_false_iff_not]

/-- An operator of which only the `as` field came back. -/
def ofAsn (number : ℕ) (name : String) : IspProfile where
  ip := none
  isp := none
  org := none
  asn := some (asnText number name)
  countryCode := none

theorem presetForIsp_as8386 : presetForIsp (some (ofAsn 8386 "Ventelo")) = some "beeline-ru" :=
  (presetForIsp_eq_listed_iff (ofAsn 8386 "Ventelo") 8386 "Ventelo" rfl (by decide +kernel)).mpr
    (by decide +kernel)

/-- `AS83590` begins with `AS8359`. -/
theorem as83590_read_as_as8359 : ¬ ∀ (profile : IspProfile) (number : ℕ) (name : String),
    profile.asn = some (asnText number name) →
    (∀ needle ∈ OPERATOR_NAMES, ∀ s ∈ profile.texts, ¬ Mentions needle.toList s.toList) →
      presetForIsp (some profile) = listed AS_NUMBERS number := by
  intro h
  have hnone := h (ofAsn 83590 "Ventelo") 83590 "Ventelo" rfl (by decide +kernel)
  revert hnone
  decide +kernel

/-- What is suggested is a shipped preset. -/
theorem presetName_presetForIsp {profile : Option IspProfile} {preset : String}
    (h : presetForIsp profile = some preset) : (loadPreset preset).presetName = preset := by
  have hshipped : ∀ e ∈ ISP_PRESET_MAP, (loadPreset e.2).presetName = e.2 := by decide
  rcases profile with _ | profile
  · cases h
  rw [presetForIsp] at h
  split_ifs at h
  obtain ⟨e, he, rfl⟩ := Option.map_eq_some_iff.mp h
  exact hshipped e (List.mem_of_find?_eq_some he)

end BypassVpn.Profile
