import Mathlib.Algebra.Group.Nat.Defs
import Mathlib.Data.List.Basic

/-!
# Configurations and presets

`BypassConfig` with the defaults of its constructor, the shipped `PRESETS`, the order in which they
are tried automatically and `loadPreset`. Names and descriptions of presets are shown to the user
and read by no modelled function; they are left out.

* `loadPreset_universal_of_unknown`: an unknown id loads the first preset.
* `presetName_loadPreset`: every shipped preset is found under its own id.
-/

namespace BypassVpn

/-- The configuration of the bypass engine. -/
structure BypassConfig where
  presetName : String := "universal"
  socksPort : Int := 1080
  splitPosition : Option String := none
  disorderPosition : Option String := none
  oobPosition : Option String := none
  fakeEnabled : Bool := false
  fakeTtl : Int := 8
  dropSack : Bool := false
  tlsRec : Option String := none
  modHttp : Option String := none
  autoMode : Option String := none
  udpFakeCount : Option Int := none
  allowedApps : List String := []
  dnsInterceptEnabled : Bool := true
  deriving DecidableEq, Repr

/-- A named configuration. -/
structure Preset where
  id : String
  config : BypassConfig
  deriving DecidableEq, Repr

/-- The shipped presets, in source order. -/
def PRESETS : List Preset := [
  { id := "universal", config := {
      presetName := "universal", splitPosition := some "1+s", disorderPosition := some "1",
      oobPosition := some "1+s", fakeEnabled := true, fakeTtl := 6, dropSack := true,
      tlsRec := some "1+s", udpFakeCount := some 1, autoMode := some "n" } },
  { id := "youtube", config := {
      presetName := "youtube", splitPosition := some "1", disorderPosition := some "1",
      oobPosition := some "1+s", fakeEnabled := true, fakeTtl := 8, dropSack := true,
      tlsRec := some "1+s", autoMode := some "r,t,s" } },
  { id := "telegram", config := {
      presetName := "telegram", splitPosition := some "1", disorderPosition := some "1",
      fakeEnabled := true, fakeTtl := 8, modHttp := some "h,d,r", autoMode := some "t,r,s" } },
  { id := "minimal", config := {
      presetName := "minimal", splitPosition := some "1", oobPosition := some "1" } },
  { id := "whatsapp-ru", config := {
      presetName := "whatsapp-ru", splitPosition := some "1+s", disorderPosition := some "1",
      oobPosition := some "2+s", fakeEnabled := true, fakeTtl := 7, dropSack := true,
      tlsRec := some "1+s", autoMode := some "n,r" } },
  { id := "aggressive", config := {
      presetName := "aggressive", splitPosition := some "1+s", disorderPosition := some "1+s",
      fakeEnabled := true, fakeTtl := 8, dropSack := true, modHttp := some "h,d,r",
      tlsRec := some "1+s" } },
  { id := "kz-telecom", config := {
      presetName := "kz-telecom", oobPosition := some "2", disorderPosition := some "1",
      fakeEnabled := true, fakeTtl := 4, dropSack := true, autoMode := some "n,r" } },
  { id := "mts-ru", config := {
      presetName := "mts-ru", splitPosition := some "2", disorderPosition := some "1",
      fakeEnabled := true, fakeTtl := 5, dropSack := true, tlsRec := some "1",
      autoMode := some "r,s" } },
  { id := "beeline-ru", config := {
      presetName := "beeline-ru", oobPosition := some "1+s", fakeEnabled := true, fakeTtl := 6,
      modHttp := some "h,d", autoMode := some "n,t" } },
  { id := "rostelecom", config := {
      presetName := "rostelecom", splitPosition := some "1+s", disorderPosition := some "1+s",
      fakeEnabled := true, fakeTtl := 3, dropSack := true, tlsRec := some "1+s",
      modHttp := some "h,d,r", autoMode := some "r,t,s" } }]

/-- The order of the automatic search through the presets. -/
def AUTO_SWITCH_ORDER : List String :=
  ["universal", "minimal", "telegram", "whatsapp-ru", "youtube", "kz-telecom", "mts-ru",
    "beeline-ru", "rostelecom", "aggressive"]

/-- `PRESETS[0].config`. -/
def defaultConfig : BypassConfig := ((PRESETS.head?).map Preset.config).getD {}

/-- `ConfigManager.loadPreset`: the preset with this id, else the first one. -/
def loadPreset (id : String) : BypassConfig :=
  ((PRESETS.find? fun p => p.id == id).map Preset.config).getD defaultConfig

/-! ### Reading position strings -/

/-- `Regex("\\d+").find(s)?.value?.toIntOrNull()`: the first run of digits, if it fits an `Int`. -/
def firstNumber (s : String) : Option ℕ :=
  let digits := (s.toList.dropWhile fun c => !c.isDigit).takeWhile Char.isDigit
  let n := digits.foldl (fun n c => n * 10 + (c.toNat - '0'.toNat)) 0
  if digits = [] ∨ 2 ^ 31 ≤ n then none else some n

/-- `s.contains(needle, ignoreCase = true)` for a needle of lower-case letters. -/
def containsIgnoreCase (s needle : String) : Bool :=
  (s.toList.map Char.toLower).tails.any fun t => needle.toList.isPrefixOf t

/-- `sp?.contains(needle, true) == true`. -/
def mentions (sp : Option String) (needle : String) : Bool := sp.any fun s => containsIgnoreCase s needle

/-- `!s.isNullOrEmpty()`. -/
def isSet (s : Option String) : Bool := s.any fun s => !s.isEmpty

/-! ### What `ProxyEngine.start` passes on -/

/-- The arguments of `ciadpiStart`. -/
structure CiadpiArgs where
  socksPort : Int
  splitPos : Int
  disorder : Int
  fakeEnabled : Bool
  fakeTtl : Int
  dropSack : Bool
  autoMode : String
  splitPosStr : String
  oobPosStr : String
  tlsRecStr : String
  modHttpStr : String
  udpFakeCount : Int
  protectPath : String
  ipv6Enabled : Bool
  deriving DecidableEq, Repr

/-- The arguments a configuration leads to. -/
def ciadpiArgs (config : BypassConfig) (protectPath : String) (ipv6Enabled : Bool) : CiadpiArgs where
  socksPort := config.socksPort
  splitPos := ((config.splitPosition.bind firstNumber).or (config.oobPosition.bind firstNumber)).getD 1
  disorder := if config.disorderPosition.isSome then 1 else 0
  fakeEnabled := config.fakeEnabled
  fakeTtl := config.fakeTtl
  dropSack := config.dropSack
  autoMode := config.autoMode.getD ""
  splitPosStr := (config.splitPosition.or config.disorderPosition).getD "1"
  oobPosStr := config.oobPosition.getD ""
  tlsRecStr := config.tlsRec.getD ""
  modHttpStr := config.modHttp.getD ""
  udpFakeCount := config.udpFakeCount.getD 0
  protectPath := protectPath
  ipv6Enabled := ipv6Enabled

theorem loadPreset_universal_of_unknown {id : String} (h : ∀ p ∈ PRESETS, p.id ≠ id) :
    loadPreset id = loadPreset "universal" := by
  have hn : PRESETS.find? (fun p => p.id == id) = none := by
    rw [List.find?_eq_none]
    intro p hp
    simpa using h p hp
  rw [loadPreset, hn]
  decide

theorem presetName_loadPreset : ∀ id ∈ AUTO_SWITCH_ORDER, (loadPreset id).presetName = id := by
  decide

end BypassVpn
