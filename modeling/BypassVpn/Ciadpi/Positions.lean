import BypassVpn.Ciadpi.Params

/-!
# Where the techniques are placed

A configuration has a position string for each technique. Between it and the list of parts stand the
fallbacks of `ProxyEngine.start` and of `ciadpi_jni.c`, which take one technique's position for
another's.

* `isPosition`, `denoted`: a position string and what it denotes; `aims`: it has a flag.
* `startedParts`: the parts that `desync` works through; `Placed`: each technique is where its own
  string says; `Independent`: it stays there when the other strings change.
* **`startedParts_placed_iff`**: when that is so.
-/

namespace BypassVpn.Ciadpi

/-! ### Position strings -/

/-- The string begins like a position: a number, `end`, `m` or `r`. -/
def isPosition (s : String) : Bool :=
  digitLed s.toList || ledBy s.toList 'e' 'E' || ledBy s.toList 'm' 'M' || ledBy s.toList 'r' 'R'

/-- The position and the flags that the string denotes by itself. -/
def denoted (abi : Abi) (s : String) : Int × ℕ :=
  (positiveOr (parsePosString abi (some s) 0).1 1, (parsePosString abi (some s) 0).2)

/-- The letters of the string set a flag: `s` or `h` anywhere, `m`, `e` or `r` in a position. -/
def aims (s : String) : Bool :=
  strchr2 s.toList 's' 'S' || strchr2 s.toList 'h' 'H' ||
    (isPosition s && (strchr2 s.toList 'm' 'M' || strchr2 s.toList 'e' 'E' || strchr2 s.toList 'r' 'R'))

theorem strchr2_of_ledBy {s : List Char} {l u : Char} (h : ledBy s l u = true) : strchr2 s l u = true := by
  cases s with
  | nil => simp [ledBy] at h
  | cons c s =>
    have hc : c = l ∨ c = u := by simpa [ledBy] using h
    rcases hc with rfl | rfl
    · simp [strchr2]
    · simp [strchr2]

/-- The string sets no flag exactly when it does not aim. -/
theorem flag_eq_zero_iff (s : String) : leadFlag s.toList ||| letterFlags s.toList = 0 ↔ aims s = false := by
  unfold leadFlag letterFlags aims isPosition
  by_cases hd : digitLed s.toList = true
  · rw [if_pos hd]
    simp only [hd, Nat.or_eq_zero_iff, OFFSET_SNI, OFFSET_HOST, OFFSET_MID, OFFSET_END, OFFSET_RAND]
    simp [and_assoc]
  · rw [if_neg hd]
    by_cases he : ledBy s.toList 'e' 'E' = true
    · simp [he, strchr2_of_ledBy he, Nat.or_eq_zero_iff, OFFSET_END]
    · by_cases hm : ledBy s.toList 'm' 'M' = true
      · simp [he, hm, strchr2_of_ledBy hm, Nat.or_eq_zero_iff, OFFSET_MID]
      · by_cases hr : ledBy s.toList 'r' 'R' = true
        · simp [he, hm, hr, strchr2_of_ledBy hr, Nat.or_eq_zero_iff, OFFSET_RAND]
        · simp [hd, he, hm, hr, Nat.or_eq_zero_iff, OFFSET_SNI, OFFSET_HOST]

theorem posFlag_ne_zero {s : String} (h : aims s = true) :
    leadFlag s.toList ||| letterFlags s.toList ≠ 0 := by
  intro hz
  rw [flag_eq_zero_iff, h] at hz
  cases hz

theorem atoi_of_lt (abi : Abi) {s : List Char} (h : digitsValue s < 2 ^ 31) :
    atoi abi s = digitsValue s := by
  have hmin : min (digitsValue s) abi.LONG_MAX = digitsValue s := by
    have hmax : 2 ^ 31 - 1 ≤ abi.LONG_MAX := by cases abi <;> decide
    omega
  have hnat : (BitVec.ofNat 32 (digitsValue s)).toNat = digitsValue s := by
    rw [BitVec.toNat_ofNat, Nat.mod_eq_of_lt (by omega)]
  unfold atoi
  rw [hmin, BitVec.toInt_eq_toNat_of_lt (by omega), hnat]

/-- Where the number is zero or too large, `ProxyEngine.start` finds no other one in the string. -/
theorem positiveOr_firstNumber (abi : Abi) {s : String} (hd : digitLed s.toList = true)
    (ha : atoi abi s.toList ≤ 0) : positiveOr ((firstNumber s).getD 1) 1 = 1 := by
  have hdrop : (s.toList.dropWhile fun c => !c.isDigit) = s.toList := by
    cases hs : s.toList with
    | nil => rfl
    | cons c cs =>
      rw [hs] at hd
      have hc : c.isDigit = true := by simpa [digitLed] using hd
      rw [List.dropWhile_cons_of_neg (by simp [hc])]
  unfold firstNumber
  dsimp only
  rw [hdrop]
  split
  · rfl
  · rename_i hn
    have hlt : digitsValue s.toList < 2 ^ 31 := by
      have hn2 := (not_or.mp hn).2
      unfold digitsValue
      omega
    rw [atoi_of_lt abi hlt] at ha
    have hzero : digitsValue s.toList = 0 := by omega
    unfold digitsValue at hzero
    rw [Option.getD_some, hzero]
    rfl

/-- The default position does not matter to a position string, unless its number is not positive. -/
theorem positiveOr_leadPos (abi : Abi) {s : String} (hs : isPosition s = true) {d : Int}
    (hd : digitLed s.toList = true → atoi abi s.toList ≤ 0 → positiveOr d 1 = 1) :
    positiveOr (leadPos abi s.toList d) 1 = (denoted abi s).1 := by
  unfold denoted parsePosString leadPos
  dsimp only
  by_cases hdig : digitLed s.toList = true
  · rw [if_pos hdig, if_pos hdig]
    by_cases ha : atoi abi s.toList ≤ 0
    · rw [if_pos ha, if_pos ha, hd hdig ha]
      rfl
    · rw [if_neg ha, if_neg ha]
  · rw [if_neg hdig, if_neg hdig]
    unfold isPosition at hs
    have hled : (ledBy s.toList 'e' 'E' || ledBy s.toList 'm' 'M' || ledBy s.toList 'r' 'R') = true := by
      simpa [hdig, or_assoc] using hs
    rw [if_pos hled, if_pos hled]

/-! ### The places of the parts -/

/-- Where the part is placed: position and flag. -/
def Part.place (p : Part) : Int × ℕ := (p.pos, p.flag)

/-- The places of the parts whose mode is selected. -/
def places (sel : Demode → Bool) (parts : List Part) : List (Int × ℕ) :=
  (parts.filter fun p => sel p.m).map Part.place

/-- The part sends an out-of-band octet. -/
def isOob : Demode → Bool
  | .DESYNC_OOB => true
  | .DESYNC_DISOOB => true
  | _ => false

/-- The part is sent with a low TTL. -/
def isDisorder (m : Demode) : Bool := m == .DESYNC_DISORDER

theorem place_of_mem {ttl : Int} {cfg : JniConfig} {p : Part}
    (hp : p ∈ (initParams ttl cfg).params.dp.parts) : p.place = cfg.mainPart.place := by
  unfold initParams at hp
  dsimp only at hp
  split at hp
  · rcases List.mem_cons.mp hp with rfl | hp
    · rfl
    · rw [List.mem_singleton.mp hp]
  · rw [List.mem_singleton.mp hp]

theorem places_initParams (ttl : Int) {cfg : JniConfig} {sel : Demode → Bool}
    (hfake : sel .DESYNC_FAKE = false) (hmain : sel cfg.mainPart.m = true) :
    places sel (initParams ttl cfg).params.dp.parts = [cfg.mainPart.place] := by
  have hlast : [cfg.mainPart].filter (fun p => sel p.m) = [cfg.mainPart] :=
    List.filter_cons_of_pos (p := fun x : Part => sel x.m) hmain
  unfold initParams places
  dsimp only
  split
  · rw [List.filter_cons_of_neg (by simp [hfake]), hlast]
    rfl
  · rw [hlast]
    rfl

theorem mainPart_of_oob {cfg : JniConfig} (h : cfg.oobEnabled = true) (hpos : 0 < cfg.oobPos) :
    isOob cfg.mainPart.m = true ∧
    cfg.mainPart.place = (cfg.oobPos, if cfg.oobFlag ≠ 0 then cfg.oobFlag else cfg.splitFlag) := by
  unfold JniConfig.mainPart
  rw [if_pos h]
  constructor
  · dsimp only
    split <;> rfl
  · unfold Part.place positiveOr
    rw [if_pos hpos]

theorem mainPart_of_no_oob {cfg : JniConfig} (h : cfg.oobEnabled = false) :
    cfg.mainPart.place = (positiveOr cfg.splitPos 1, cfg.splitFlag) ∧
    (cfg.disorder ≠ 0 → isDisorder cfg.mainPart.m = true) := by
  unfold JniConfig.mainPart
  rw [if_neg (by simp [h])]
  refine ⟨rfl, fun hd => ?_⟩
  dsimp only
  rw [if_pos hd]
  rfl

section Config

variable (abi : Abi) (ttl : Int) (protectPath : String) (ipv6Enabled : Bool) (c : BypassConfig)

/-- The configuration that reaches `init_params`. -/
def jniConfig : JniConfig := ciadpiStart abi (ciadpiArgs c protectPath ipv6Enabled)

/-- The parts that a configuration leads to. -/
def startedParts : List Part := (initParams ttl (jniConfig abi protectPath ipv6Enabled c)).params.dp.parts

/-- The string that is parsed for the split position. -/
def splitSource : String := (c.splitPosition.or c.disorderPosition).getD "1"

/-- The flags that the split position has. -/
def splitFlags : ℕ := leadFlag (splitSource c).toList ||| letterFlags (splitSource c).toList

theorem positiveOr_pos (x : Int) : 0 < positiveOr x 1 := by
  unfold positiveOr
  split <;> omega

theorem positiveOr_idem (x : Int) : positiveOr (positiveOr x 1) 1 = positiveOr x 1 :=
  if_pos (positiveOr_pos x)

variable {c}

/-- The OOB part takes the flags of the split position if it has none. -/
theorem jniConfig_oob {o : String} (ho : c.oobPosition = some o) (hne : isPosition o = true) :
    isOob (jniConfig abi protectPath ipv6Enabled c).mainPart.m = true ∧
    (jniConfig abi protectPath ipv6Enabled c).mainPart.place = ((denoted abi o).1,
      if (denoted abi o).2 ≠ 0 then (denoted abi o).2 else splitFlags c) := by
  have hempty : o.isEmpty = false := by
    by_contra he
    have hnil : o = "" := by simpa using he
    rw [hnil] at hne
    exact absurd hne (by decide)
  have hcfg : (jniConfig abi protectPath ipv6Enabled c).oobEnabled = true ∧
      (jniConfig abi protectPath ipv6Enabled c).oobPos = (denoted abi o).1 ∧
      (jniConfig abi protectPath ipv6Enabled c).oobFlag = (denoted abi o).2 := by
    unfold jniConfig ciadpiStart ciadpiArgs denoted
    simp [ho, hempty]
  obtain ⟨hen, hp, hf⟩ := hcfg
  have hmain := mainPart_of_oob hen (by rw [hp]; exact positiveOr_pos _)
  rw [hp, hf] at hmain
  exact hmain

/-- Without an OOB position the main part has the place of the split position. -/
theorem jniConfig_no_oob (ho : c.oobPosition = none) :
    (jniConfig abi protectPath ipv6Enabled c).mainPart.place =
      (positiveOr (leadPos abi (splitSource c).toList
        (positiveOr ((c.splitPosition.bind firstNumber).getD 1) 1)) 1, splitFlags c) ∧
    (c.disorderPosition ≠ none → isDisorder (jniConfig abi protectPath ipv6Enabled c).mainPart.m = true) := by
  have hen : (jniConfig abi protectPath ipv6Enabled c).oobEnabled = false := by
    unfold jniConfig ciadpiStart ciadpiArgs
    simp [ho]
  have hpos : (jniConfig abi protectPath ipv6Enabled c).splitPos =
      positiveOr (leadPos abi (splitSource c).toList
        (positiveOr ((c.splitPosition.bind firstNumber).getD 1) 1)) 1 := by
    unfold jniConfig ciadpiStart ciadpiArgs
    simp [ho, parsePosString, splitSource]
  obtain ⟨hplace, hdis⟩ := mainPart_of_no_oob hen
  rw [hpos, positiveOr_idem] at hplace
  refine ⟨hplace, fun hd => hdis ?_⟩
  obtain ⟨d, hd⟩ := Option.ne_none_iff_exists'.mp hd
  unfold jniConfig ciadpiStart ciadpiArgs
  simp [hd]

/-- Where the split position `s` comes to stand: without a number at its head, at the first number in
it. -/
def splitDenoted (s : String) : Int × ℕ :=
  (positiveOr (leadPos abi s.toList (positiveOr ((firstNumber s).getD 1) 1)) 1,
    leadFlag s.toList ||| letterFlags s.toList)

theorem splitDenoted_of_isPosition {s : String} (h : isPosition s = true) :
    splitDenoted abi s = denoted abi s :=
  Prod.ext (positiveOr_leadPos abi h fun hd ha =>
    (positiveOr_idem _).trans (positiveOr_firstNumber abi hd ha)) rfl

theorem place_split (ho : c.oobPosition = none) {s : String} (hs : c.splitPosition = some s) :
    (jniConfig abi protectPath ipv6Enabled c).mainPart.place = splitDenoted abi s := by
  have hsrc : splitSource c = s := by
    unfold splitSource
    rw [hs]
    rfl
  rw [(jniConfig_no_oob abi protectPath ipv6Enabled ho).1]
  unfold splitFlags
  rw [hsrc, hs, Option.bind_some]
  rfl

theorem place_disorder (ho : c.oobPosition = none) (hs : c.splitPosition = none) {d : String}
    (hd : c.disorderPosition = some d) (hpos : isPosition d = true) :
    (jniConfig abi protectPath ipv6Enabled c).mainPart.place = denoted abi d := by
  have hsrc : splitSource c = d := by
    unfold splitSource
    rw [hs, hd]
    rfl
  rw [(jniConfig_no_oob abi protectPath ipv6Enabled ho).1]
  unfold splitFlags
  rw [hsrc, hs, Option.bind_none, Option.getD_none]
  exact Prod.ext (positiveOr_leadPos abi hpos fun _ _ => rfl) rfl

/-! ### The placement -/

variable (c)

/-- Each technique is where its own position string says. -/
structure Placed : Prop where
  oob : ∀ o, c.oobPosition = some o → isPosition o = true →
    places isOob (startedParts abi ttl protectPath ipv6Enabled c) = [denoted abi o]
  disorder : c.oobPosition = none → ∀ d, c.disorderPosition = some d → isPosition d = true →
    places isDisorder (startedParts abi ttl protectPath ipv6Enabled c) = [denoted abi d]
  split : c.oobPosition = none → c.disorderPosition = none → ∀ s, c.splitPosition = some s →
    isPosition s = true → ∀ p ∈ startedParts abi ttl protectPath ipv6Enabled c, p.place = denoted abi s

/-- The OOB part and the disorder part stay where they are when the strings of the others change. -/
structure Independent : Prop where
  oob : ∀ o, c.oobPosition = some o → isPosition o = true → ∀ sp dp,
    places isOob (startedParts abi ttl protectPath ipv6Enabled
      { c with splitPosition := sp, disorderPosition := dp }) =
      places isOob (startedParts abi ttl protectPath ipv6Enabled c)
  disorder : c.oobPosition = none → ∀ d, c.disorderPosition = some d → isPosition d = true → ∀ sp,
    places isDisorder (startedParts abi ttl protectPath ipv6Enabled { c with splitPosition := sp }) =
      places isDisorder (startedParts abi ttl protectPath ipv6Enabled c)

variable {c}

theorem places_oob {o : String} (ho : c.oobPosition = some o) (hpos : isPosition o = true) :
    places isOob (startedParts abi ttl protectPath ipv6Enabled c) =
      [((denoted abi o).1, if (denoted abi o).2 ≠ 0 then (denoted abi o).2 else splitFlags c)] := by
  obtain ⟨hm, hplace⟩ := jniConfig_oob abi protectPath ipv6Enabled ho hpos
  rw [← hplace]
  exact places_initParams ttl rfl hm

theorem places_disorder (ho : c.oobPosition = none) (hd : c.disorderPosition ≠ none) :
    places isDisorder (startedParts abi ttl protectPath ipv6Enabled c) =
      [(jniConfig abi protectPath ipv6Enabled c).mainPart.place] :=
  places_initParams ttl rfl ((jniConfig_no_oob abi protectPath ipv6Enabled ho).2 hd)

/-- The OOB part has its own place if its string sets a flag, or the split position has none to lend. -/
theorem places_oob_eq_iff {o : String} (ho : c.oobPosition = some o) (hpos : isPosition o = true) :
    places isOob (startedParts abi ttl protectPath ipv6Enabled c) = [denoted abi o] ↔
      aims o = true ∨ aims (splitSource c) = false := by
  rw [places_oob abi ttl protectPath ipv6Enabled ho hpos, ← flag_eq_zero_iff (splitSource c)]
  by_cases hz : (denoted abi o).2 = 0
  · have haims : aims o = false := (flag_eq_zero_iff o).mp hz
    rw [if_neg (not_not.mpr hz)]
    constructor
    · intro h
      refine .inr ?_
      have hsnd : splitFlags c = (denoted abi o).2 := congrArg Prod.snd (List.cons.inj h).1
      exact hsnd.trans hz
    · rintro (h | h)
      · rw [haims] at h
        cases h
      · exact congrArg (fun p => [p]) (Prod.ext rfl (h.trans hz.symm))
  · rw [if_pos hz]
    refine ⟨fun _ => .inl ?_, fun _ => rfl⟩
    by_contra haims
    exact hz ((flag_eq_zero_iff o).mpr (by simpa using haims))

theorem placed_iff : Placed abi ttl protectPath ipv6Enabled c ↔
    (∀ o, c.oobPosition = some o → isPosition o = true → aims o = true ∨ aims (splitSource c) = false) ∧
    (c.oobPosition = none → ∀ d, c.disorderPosition = some d → isPosition d = true →
      ∀ s, c.splitPosition = some s → splitDenoted abi s = denoted abi d) := by
  constructor
  · intro h
    constructor
    · intro o ho hpos
      exact (places_oob_eq_iff abi ttl protectPath ipv6Enabled ho hpos).mp (h.oob o ho hpos)
    · intro ho d hd hpos s hs
      have hplaces := h.disorder ho d hd hpos
      rw [places_disorder abi ttl protectPath ipv6Enabled ho (by simp [hd]),
        place_split abi protectPath ipv6Enabled ho hs] at hplaces
      exact (List.cons.inj hplaces).1
  · rintro ⟨hoob, hdis⟩
    constructor
    · intro o ho hpos
      exact (places_oob_eq_iff abi ttl protectPath ipv6Enabled ho hpos).mpr (hoob o ho hpos)
    · intro ho d hd hpos
      rw [places_disorder abi ttl protectPath ipv6Enabled ho (by simp [hd])]
      cases hs : c.splitPosition with
      | none => rw [place_disorder abi protectPath ipv6Enabled ho hs hd hpos]
      | some s => rw [place_split abi protectPath ipv6Enabled ho hs, hdis ho d hd hpos s hs]
    · intro ho _ s hs hpos p hp
      rw [place_of_mem hp]
      exact (place_split abi protectPath ipv6Enabled ho hs).trans (splitDenoted_of_isPosition abi hpos)

theorem independent_iff : Independent abi ttl protectPath ipv6Enabled c ↔
    (∀ o, c.oobPosition = some o → isPosition o = true → aims o = true) ∧
    (c.oobPosition = none → ∀ d, c.disorderPosition = some d → isPosition d = false) := by
  constructor
  · intro h
    constructor
    · intro o ho hpos
      by_contra haims
      have hz : (denoted abi o).2 = 0 := (flag_eq_zero_iff o).mpr (by simpa using haims)
      -- the flags of the split position decide
      have hplace : ∀ s, places isOob (startedParts abi ttl protectPath ipv6Enabled
          { c with splitPosition := some s, disorderPosition := none }) =
          [((denoted abi o).1, leadFlag s.toList ||| letterFlags s.toList)] := by
        intro s
        have hs := places_oob (c := { c with splitPosition := some s, disorderPosition := none }) abi ttl
          protectPath ipv6Enabled ho hpos
        rw [if_neg (not_not.mpr hz)] at hs
        exact hs
      have heq := (hplace "1+s").symm.trans ((h.oob o ho hpos (some "1+s") none).trans
        ((h.oob o ho hpos (some "1") none).symm.trans (hplace "1")))
      have hflags := congrArg Prod.snd (List.cons.inj heq).1
      exact absurd hflags (show ¬ (8 : ℕ) = 0 by decide)
    · intro ho d hd
      by_contra hpos
      have hplace : ∀ s, places isDisorder (startedParts abi ttl protectPath ipv6Enabled
          { c with splitPosition := some s }) = [splitDenoted abi s] := by
        intro s
        rw [places_disorder (c := { c with splitPosition := some s }) abi ttl protectPath ipv6Enabled ho
          (by simp [hd]), place_split (c := { c with splitPosition := some s }) abi protectPath
            ipv6Enabled ho rfl]
      have hd' : isPosition d = true := by simpa using hpos
      have heq := (hplace "1+s").symm.trans ((h.disorder ho d hd hd' (some "1+s")).trans
        ((h.disorder ho d hd hd' (some "1")).symm.trans (hplace "1")))
      have hflags := congrArg Prod.snd (List.cons.inj heq).1
      exact absurd hflags (show ¬ (8 : ℕ) = 0 by decide)
  · rintro ⟨hoob, hdis⟩
    constructor
    · intro o ho hpos sp dp
      have hne : (denoted abi o).2 ≠ 0 := posFlag_ne_zero (hoob o ho hpos)
      rw [places_oob abi ttl protectPath ipv6Enabled ho hpos, if_pos hne,
        places_oob (c := { c with splitPosition := sp, disorderPosition := dp }) abi ttl protectPath
          ipv6Enabled
          ho hpos, if_pos hne]
    · intro ho d hd hpos
      rw [hdis ho d hd] at hpos
      cases hpos

/-- **When each technique is placed by its own field.** The OOB position has to set a flag of its own;
the disorder position, where it counts, never decides alone. -/
theorem startedParts_placed_iff :
    (Placed abi ttl protectPath ipv6Enabled c ∧ Independent abi ttl protectPath ipv6Enabled c ↔
      (∀ o, c.oobPosition = some o → isPosition o = true → aims o = true) ∧
      (c.oobPosition = none → ∀ d, c.disorderPosition = some d → isPosition d = false)) ∧
    (Placed abi ttl protectPath ipv6Enabled c ↔
      (∀ o, c.oobPosition = some o → isPosition o = true → aims o = true ∨ aims (splitSource c) = false) ∧
      (c.oobPosition = none → ∀ d, c.disorderPosition = some d → isPosition d = true →
        ∀ s, c.splitPosition = some s → splitDenoted abi s = denoted abi d)) := by
  refine ⟨?_, placed_iff abi ttl protectPath ipv6Enabled⟩
  rw [independent_iff, placed_iff]
  constructor
  · exact fun h => h.2
  · refine fun h => ⟨⟨fun o ho hpos => .inl (h.1 o ho hpos), fun ho d hd hpos => ?_⟩, h⟩
    rw [h.2 ho d hd] at hpos
    cases hpos

end Config

/-- **A preset that misses**: `mts-ru` asks for the disorder at `1` and gets it at its split position
`2`. -/
theorem placed_mtsRu :
    ¬ (∀ abi ttl protectPath ipv6Enabled c, Placed abi ttl protectPath ipv6Enabled c ∧
      Independent abi ttl protectPath ipv6Enabled c) := by
  intro h
  have hplaces := (h .arm64V8a 64 "" true (loadPreset "mts-ru")).1.disorder (by decide) "1"
    (by decide) (by decide)
  exact absurd hplaces (by decide)

end BypassVpn.Ciadpi
