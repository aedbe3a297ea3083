import Mathlib.Data.Bool.AllAny
import BypassVpn.Lib.Regex
import BypassVpn.Packet.Doh

/-!
# `NetworkProfileDetector.parseJsonProfile`

Five searches for `"name"\s*:\s*"([^"]*)"` in the raw text stand in for a JSON parser.

* `fieldRegex`, `field`, `parseJsonProfile`: as in the source.
* `Value`, `Member`, `FlatObject`: flat JSON objects, token by token, with white space anywhere between.
* `matchAt_string`, `find_close`: what a quote that opens a string, and one that closes it, can match.
* **`parseJsonProfile_render`**: the searches read exactly the members.
-/

namespace BypassVpn.Profile

open Regex

/-- `IspProfile`. -/
structure IspProfile where
  ip : Option String
  isp : Option String
  org : Option String
  asn : Option String
  countryCode : Option String
  deriving DecidableEq

/-- `\s`. -/
def isSpace (c : Char) : Bool :=
  c == ' ' || c == '\t' || c == '\n' || c == '\x0B' || c == '\x0C' || c == '\r'

/-- What follows the name: `\s*:\s*"([^"]*)"`. -/
def valueRegex : List (Item Char) :=
  [.many isSpace false, lit ':', .many isSpace false, lit '"', .many (fun c => c ≠ '"') true, lit '"']

/-- `"name"\s*:\s*"([^"]*)"`. -/
def fieldRegex (name : List Char) : List (Item Char) := lit '"' :: (lits name ++ lit '"' :: valueRegex)

/-- `ifBlank { null }`. -/
def ifBlankNull (s : List Char) : Option String :=
  if isNotBlank (String.ofList s) then some (String.ofList s) else none

/-- The `field` of `parseJsonProfile`. -/
def field (json name : String) : Option String :=
  (find (fieldRegex name.toList) json.toList).bind fun groups => groups.head?.bind ifBlankNull

/-- `parseJsonProfile`. -/
def parseJsonProfile (json : String) : IspProfile where
  ip := field json "query"
  isp := field json "isp"
  org := field json "org"
  asn := field json "as"
  countryCode := field json "countryCode"

/-! ### Flat objects -/

/-- White space of JSON. -/
def isJsonSpace (c : Char) : Bool := c == ' ' || c == '\t' || c == '\n' || c == '\r'

/-- White space of JSON. -/
abbrev Spaces := {w : List Char // ∀ c ∈ w, isJsonSpace c = true}

/-- The characters of a string without a quote and without a backslash. -/
abbrev Plain := {s : List Char // ∀ c ∈ s, c ≠ '"' ∧ c ≠ '\\'}

/-- The characters of a number. -/
abbrev Numeral := {t : List Char // t ≠ [] ∧ ∀ c ∈ t, c ∈ "0123456789+-.eE".toList}

/-- A value of a flat object. -/
inductive Value where
  | string (s : Plain)
  | number (t : Numeral)
  | true
  | false
  | null

/-- The text of a value. -/
def Value.render : Value → List Char
  | .string s => '"' :: (s.1 ++ ['"'])
  | .number t => t.1
  | .true => "true".toList
  | .false => "false".toList
  | .null => "null".toList

/-- The characters of a string value. -/
def Value.string? : Value → Option (List Char)
  | .string s => some s.1
  | _ => none

/-- A member with the space around it. -/
structure Member where
  before : Spaces
  key : Plain
  afterKey : Spaces
  beforeValue : Spaces
  value : Value
  after : Spaces

/-- The text of a member. -/
def Member.render (m : Member) : List Char :=
  m.before.1 ++ '"' :: (m.key.1 ++ '"' :: (m.afterKey.1 ++ ':' :: (m.beforeValue.1 ++
    (m.value.render ++ m.after.1))))

/-- The members, separated by commas. -/
def renderMembers : List Member → List Char
  | [] => []
  | [m] => m.render
  | m :: ms => m.render ++ ',' :: renderMembers ms

/-- An object whose keys are distinct and whose values are not nested. -/
structure FlatObject where
  before : Spaces
  inner : Spaces
  members : List Member
  after : Spaces
  distinct : (members.map fun m => m.key.1).Nodup

/-- The text of an object. -/
def FlatObject.render (o : FlatObject) : String :=
  String.ofList (o.before.1 ++ '{' :: (o.inner.1 ++ (renderMembers o.members ++ '}' :: o.after.1)))

/-- The string under a key, if there is one and it is not blank. -/
def FlatObject.nonBlank (o : FlatObject) (name : String) : Option String :=
  ((o.members.find? fun m => m.key.1 = name.toList).bind fun m => m.value.string?).bind ifBlankNull

/-! ### What a quote can match -/

/-- Names that are searched for: no quote, and not the character behind a closing quote. -/
def Searched (name : List Char) : Prop :=
  '"' ∉ name ∧ ∃ c ∈ name.head?, isSpace c = false ∧ c ≠ ':' ∧ c ≠ ',' ∧ c ≠ '}'

theorem isSpace_of_json {c : Char} (h : isJsonSpace c = true) : isSpace c = true ∧ c ≠ '"' := by
  have hcases : c = ' ' ∨ c = '\t' ∨ c = '\n' ∨ c = '\r' := by simpa [isJsonSpace, or_assoc] using h
  rcases hcases with rfl | rfl | rfl | rfl <;> decide

theorem disjoint_lit {c : Char} {p : Char → Bool} (hc : p c = false) :
    ∀ x, p x = true → (decide (x = c)) = false := by
  intro x hx
  rw [decide_eq_false_iff_not]
  rintro rfl
  rw [hc] at hx
  cases hx

/-- White space, and then the character that is looked for or another one. -/
theorem matchAt_spaces (w : Spaces) {c d : Char} (hc : isSpace c = false) (hd : isSpace d = false)
    (items : List (Item Char)) (s : List Char) :
    matchAt (.many isSpace false :: lit c :: items) (w.1 ++ d :: s) =
      if d = c then matchAt items s else none := by
  have hhead : ∀ x ∈ (d :: s).head?, isSpace x = false := by
    intro x hx
    obtain rfl := Option.some.inj hx
    exact hd
  rw [lit, matchAt_many_one (disjoint_lit hc) false items w.1 (d :: s)
    (fun x hx => (isSpace_of_json (w.2 x hx)).1) hhead, ← lit]
  by_cases h : d = c
  · subst h
    rw [if_pos rfl, matchAt_lit]
    cases matchAt items s <;> rfl
  · rw [if_neg h, matchAt_lit_of_ne h]
    rfl

theorem matchAt_value_string (w w' : Spaces) (v : Plain) (s : List Char) :
    matchAt valueRegex (w.1 ++ ':' :: (w'.1 ++ '"' :: (v.1 ++ '"' :: s))) = some [v.1] := by
  have hv : ∀ c ∈ v.1, (decide (c ≠ '"')) = true := fun c hc => decide_eq_true (v.2 c hc).1
  have hend : ∀ x ∈ ('"' :: s).head?, (decide (x ≠ '"')) = false := by
    intro x hx
    obtain rfl := Option.some.inj hx
    decide
  rw [valueRegex, matchAt_spaces w (by decide) (by decide), if_pos rfl,
    matchAt_spaces w' (by decide) (by decide), if_pos rfl, lit,
    matchAt_many_one (disjoint_lit (by decide)) true [] v.1 ('"' :: s) hv hend, ← lit, matchAt_lit]
  rfl

theorem matchAt_value_other (w w' : Spaces) {c : Char} (hc : isSpace c = false) (hq : c ≠ '"')
    (s : List Char) : matchAt valueRegex (w.1 ++ ':' :: (w'.1 ++ c :: s)) = none := by
  rw [valueRegex, matchAt_spaces w (by decide) (by decide), if_pos rfl,
    matchAt_spaces w' (by decide) hc, if_neg hq]

theorem matchAt_value_end (w : Spaces) {c : Char} (hc : isSpace c = false) (hcolon : c ≠ ':')
    (s : List Char) : matchAt valueRegex (w.1 ++ c :: s) = none := by
  rw [valueRegex, matchAt_spaces w (by decide) hc, if_neg hcolon]

/-- **At the quote that opens a string**, the string must be the name. -/
theorem matchAt_string {name : List Char} (hname : '"' ∉ name) (w : Plain) (s : List Char) :
    matchAt (fieldRegex name) ('"' :: (w.1 ++ '"' :: s)) =
      if w.1 = name then matchAt valueRegex s else none := by
  rw [fieldRegex, matchAt_lit]
  by_cases h : w.1 = name
  · rw [if_pos h, h, matchAt_lits, matchAt_lit]
  rw [if_neg h]
  by_cases hp : name <+: w.1 ++ '"' :: s
  · -- the name ends inside the string
    obtain ⟨u, hu⟩ := hp
    rw [← hu, matchAt_lits]
    rcases List.append_eq_append_iff.mp hu with ⟨x, hw, rfl⟩ | ⟨x, hw, hs⟩
    · cases x with
      | nil => exact absurd (hw.trans (List.append_nil _)) h
      | cons c x =>
        have hc : c ∈ w.1 := hw ▸ List.mem_append_right _ List.mem_cons_self
        exact matchAt_lit_of_ne (w.2 c hc).1 _ _
    · cases x with
      | nil => exact absurd (hw.trans (List.append_nil _)).symm h
      | cons c x =>
        obtain rfl := (List.cons.inj hs).1
        exact absurd (hw ▸ List.mem_append_right _ List.mem_cons_self) hname
  · exact matchAt_lits_of_not_prefix hp _

/-! ### The search -/

variable {name : List Char}

/-- **At the quote that closes a string**, no name follows. -/
theorem find_close (hname : Searched name) {c : Char}
    (hc : isSpace c = true ∨ c = ':' ∨ c = ',' ∨ c = '}') (s : List Char) :
    find (fieldRegex name) ('"' :: c :: s) = find (fieldRegex name) (c :: s) := by
  obtain ⟨-, c', hhead, hspace, hcolon, hcomma, hbrace⟩ := hname
  obtain ⟨t, rfl⟩ := List.head?_eq_some_iff.mp hhead
  have hne : c ≠ c' := by
    rintro rfl
    rcases hc with hc | hc | hc | hc
    · rw [hspace] at hc
      cases hc
    · exact hcolon hc
    · exact hcomma hc
    · exact hbrace hc
  rw [find, fieldRegex, matchAt_lit, lits, List.map_cons, List.cons_append, matchAt_lit_of_ne hne]
  exact Option.none_or

theorem find_unquoted {u : List Char} (h : ∀ c ∈ u, c ≠ '"') (s : List Char) :
    find (fieldRegex name) (u ++ s) = find (fieldRegex name) s :=
  find_skip (fun c hc => decide_eq_false (h c hc)) s

theorem find_spaces (w : Spaces) (s : List Char) :
    find (fieldRegex name) (w.1 ++ s) = find (fieldRegex name) s :=
  find_unquoted (fun c hc => (isSpace_of_json (w.2 c hc)).2) s

/-- A string, with white space and a character that is none behind it: matched or passed over. -/
theorem find_string (hname : Searched name) (v : Plain) (w : Spaces) {c : Char}
    (hc : c = ':' ∨ c = ',' ∨ c = '}') (s : List Char) :
    find (fieldRegex name) ('"' :: (v.1 ++ '"' :: (w.1 ++ c :: s))) =
      (if v.1 = name then matchAt valueRegex (w.1 ++ c :: s) else none).or
        (find (fieldRegex name) (c :: s)) := by
  have hclose : find (fieldRegex name) ('"' :: (w.1 ++ c :: s)) = find (fieldRegex name) (w.1 ++ c :: s) := by
    obtain ⟨w, hw⟩ := w
    cases w with
    | nil => exact find_close hname (.inr hc) s
    | cons d w => exact find_close hname (.inl (isSpace_of_json (hw d List.mem_cons_self)).1) _
  rw [find, matchAt_string hname.1, find_unquoted (fun x hx => (v.2 x hx).1), hclose, find_spaces]

theorem render_of_not_string {v : Value} (h : v.string? = none) :
    ∃ c t, v.render = c :: t ∧ isSpace c = false ∧ ∀ x ∈ c :: t, x ≠ '"' := by
  have hnum : ∀ x ∈ "0123456789+-.eE".toList, isSpace x = false ∧ x ≠ '"' :=
    List.all_iff_forall_prop.mp (by decide +kernel)
  cases v with
  | string s => cases h
  | number t =>
    obtain ⟨t, hne, ht⟩ := t
    obtain ⟨c, t, rfl⟩ := List.exists_cons_of_ne_nil hne
    exact ⟨c, t, rfl, (hnum c (ht c List.mem_cons_self)).1, fun x hx => (hnum x (ht x hx)).2⟩
  | true => exact ⟨'t', "rue".toList, rfl, by decide, List.all_iff_forall_prop.mp (by decide +kernel)⟩
  | false => exact ⟨'f', "alse".toList, rfl, by decide, List.all_iff_forall_prop.mp (by decide +kernel)⟩
  | null => exact ⟨'n', "ull".toList, rfl, by decide, List.all_iff_forall_prop.mp (by decide +kernel)⟩

theorem string_or_not (v : Value) : (∃ s, v = .string s) ∨ v.string? = none := by
  cases v with
  | string s => exact .inl ⟨s, rfl⟩
  | number t => exact .inr rfl
  | true => exact .inr rfl
  | false => exact .inr rfl
  | null => exact .inr rfl

/-- **A member is matched exactly if it has the name and a string value.** -/
theorem find_member (hname : Searched name) (m : Member) {c : Char} (hc : c = ',' ∨ c = '}') (s : List Char) :
    find (fieldRegex name) (m.render ++ c :: s) =
      (if m.key.1 = name then m.value.string?.map fun v => [v] else none).or
        (find (fieldRegex name) (c :: s)) := by
  have hspace : isSpace c = false := by rcases hc with rfl | rfl <;> decide
  have hcolon : c ≠ ':' := by rcases hc with rfl | rfl <;> decide
  have hskip : ∀ u, find (fieldRegex name) (':' :: (m.beforeValue.1 ++ u)) = find (fieldRegex name) u := by
    intro u
    rw [← List.singleton_append, find_unquoted (List.forall_mem_singleton.mpr (by decide)), find_spaces]
  rw [Member.render]
  simp only [List.append_assoc, List.cons_append]
  rw [find_spaces, find_string hname m.key m.afterKey (.inl rfl), hskip]
  rcases string_or_not m.value with ⟨v, hv⟩ | hv
  · have hrender : m.value.render ++ (m.after.1 ++ c :: s) =
        '"' :: (v.1 ++ '"' :: (m.after.1 ++ c :: s)) := by
      rw [hv, Value.render]
      simp only [List.append_assoc, List.cons_append, List.nil_append]
    -- as a name, the value is followed by no colon
    have hend : find (fieldRegex name) ('"' :: (v.1 ++ '"' :: (m.after.1 ++ c :: s))) =
        find (fieldRegex name) (c :: s) := by
      rw [find_string hname v m.after (.inr hc), matchAt_value_end m.after hspace hcolon, ite_self,
        Option.none_or]
    rw [hrender, matchAt_value_string, hend, hv]
    rfl
  · obtain ⟨d, t, hrender, hd, hquote⟩ := render_of_not_string hv
    rw [hrender, List.cons_append, matchAt_value_other _ _ hd (hquote d List.mem_cons_self), hv,
      ← List.cons_append, find_unquoted hquote, find_spaces]
    rfl

theorem find_members (hname : Searched name) {ms : List Member} (hms : (ms.map fun m => m.key.1).Nodup)
    (w : Spaces) :
    find (fieldRegex name) (renderMembers ms ++ '}' :: w.1) =
      ((ms.find? fun m => m.key.1 = name).bind fun m => m.value.string?).map fun v => [v] := by
  have hend : find (fieldRegex name) ('}' :: w.1) = none := by
    have hunquoted : ∀ c ∈ '}' :: w.1, c ≠ '"' :=
      List.forall_mem_cons.mpr ⟨by decide, fun c hc => (isSpace_of_json (w.2 c hc)).2⟩
    rw [← List.append_nil ('}' :: w.1), find_unquoted hunquoted]
    rfl
  induction ms with
  | nil => exact hend
  | cons m ms ih =>
    obtain ⟨hfresh, hms⟩ := List.nodup_cons.mp hms
    have ih := ih hms
    have hstep : find (fieldRegex name) (renderMembers (m :: ms) ++ '}' :: w.1) =
        (if m.key.1 = name then m.value.string?.map fun v => [v] else none).or
          (find (fieldRegex name) (renderMembers ms ++ '}' :: w.1)) := by
      cases ms with
      | nil => exact find_member hname m (.inr rfl) w.1
      | cons m' ms =>
        rw [renderMembers, List.append_assoc, List.cons_append, find_member hname m (.inl rfl),
          ← List.singleton_append, find_unquoted (List.forall_mem_singleton.mpr (by decide))]
        exact List.cons_ne_nil _ _
    rw [hstep, ih, List.find?_cons]
    by_cases hkey : m.key.1 = name
    · -- no other member has the name
      have hnone : ms.find? (fun m => m.key.1 = name) = none := by
        rw [List.find?_eq_none]
        intro m' hm' heq
        exact hfresh (List.mem_map.mpr ⟨m', hm', (of_decide_eq_true heq).trans hkey.symm⟩)
      rw [if_pos hkey, hnone, decide_eq_true hkey]
      exact Option.or_none
    · rw [if_neg hkey, decide_eq_false hkey]
      exact Option.none_or

theorem field_render (o : FlatObject) {name : String} (hname : Searched name.toList) :
    field o.render name = o.nonBlank name := by
  have hbrace : ∀ c ∈ ['{'], c ≠ '"' := List.forall_mem_singleton.mpr (by decide)
  rw [field, FlatObject.render, String.toList_ofList, find_spaces, ← List.singleton_append,
    find_unquoted hbrace, find_spaces, find_members hname o.distinct, FlatObject.nonBlank]
  cases (o.members.find? fun m => m.key.1 = name.toList).bind fun m => m.value.string? <;> rfl

/-- **The searches read exactly the members.** Whatever the order of the members is, and whatever their
other values are, each field is the string under its key if that is not blank, and `null` otherwise. -/
theorem parseJsonProfile_render (o : FlatObject) :
    parseJsonProfile o.render = {
      ip := o.nonBlank "query"
      isp := o.nonBlank "isp"
      org := o.nonBlank "org"
      asn := o.nonBlank "as"
      countryCode := o.nonBlank "countryCode" } := by
  have hquery : Searched "query".toList := ⟨by decide, 'q', rfl, by decide⟩
  have hisp : Searched "isp".toList := ⟨by decide, 'i', rfl, by decide⟩
  have horg : Searched "org".toList := ⟨by decide, 'o', rfl, by decide⟩
  have has : Searched "as".toList := ⟨by decide, 'a', rfl, by decide⟩
  have hcountry : Searched "countryCode".toList := ⟨by decide, 'c', rfl, by decide⟩
  rw [parseJsonProfile, field_render o hquery, field_render o hisp, field_render o horg, field_render o has,
    field_render o hcountry]

end BypassVpn.Profile
