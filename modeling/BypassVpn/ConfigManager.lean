import Mathlib.Logic.Function.Basic
import BypassVpn.Config
import BypassVpn.Lib.JsonText

/-!
# `ConfigManager`: how a configuration is stored

* `OrgJson`, `OrgJson.Lawful`: what the code uses of `org.json`, and what it relies on.
* `toJson`, `fromJson`, `saveConfig`, `loadConfig`: as in the source.
* `opt_configObject`: what stands under each name of a stored object.
* **`fromJson_toJson`**: what is stored is read back, but for empty optional strings.
* `compactJson`: an `OrgJson` with the texts of `JsonText`.
* `loadConfig_saveConfig`, `loadConfig_saveConfig_preset`: the same for the preferences and for the
  shipped presets.
-/

namespace BypassVpn

open JsonText (Value)

/-! ### `org.json` -/

/-- `JSONObject` with its text form, and how a stored value is taken at each type. -/
structure OrgJson where
  JSONObject : Type
  empty : JSONObject
  put : JSONObject → String → Value → JSONObject
  opt : JSONObject → String → Option Value
  toString : JSONObject → String
  parse : String → Option JSONObject
  asString : Value → String
  asInt : Value → Option Int
  asBoolean : Value → Option Bool

/-- Parsing inverts `toString`, a name has the value put last, and a value is taken as itself at its own
type. -/
structure OrgJson.Lawful (J : OrgJson) : Prop where
  opt_empty : ∀ k, J.opt J.empty k = none
  opt_put : ∀ o k v j, J.opt (J.put o k v) j = if j = k then some v else J.opt o j
  parse_toString : ∀ o, ∃ o', J.parse (J.toString o) = some o' ∧ ∀ k, J.opt o' k = J.opt o k
  asString_string : ∀ s, J.asString (.string s) = s
  asInt_int : ∀ n, J.asInt (.int n) = some n
  asBoolean_bool : ∀ b, J.asBoolean (.bool b) = some b

namespace OrgJson

variable (J : OrgJson)

/-- `optString`; without a fallback it falls back to the empty string. -/
def optString (o : J.JSONObject) (name : String) (fallback : String) : String :=
  ((J.opt o name).map J.asString).getD fallback

/-- `optInt`. -/
def optInt (o : J.JSONObject) (name : String) (fallback : Int) : Int :=
  ((J.opt o name).bind J.asInt).getD fallback

/-- `optBoolean`. -/
def optBoolean (o : J.JSONObject) (name : String) (fallback : Bool) : Bool :=
  ((J.opt o name).bind J.asBoolean).getD fallback

/-- `JSONObject.has`. -/
def has (o : J.JSONObject) (name : String) : Bool := (J.opt o name).isSome

/-- `getInt`; `none` is a `JSONException`. -/
def getInt (o : J.JSONObject) (name : String) : Option Int := (J.opt o name).bind J.asInt

/-- `optJSONArray`, its items as strings. -/
def optJSONArray (o : J.JSONObject) (name : String) : Option (List String) :=
  match J.opt o name with
  | some (.array items) => some items
  | _ => none

/-- `if (o.has(name)) o.getInt(name) else null`. -/
def intIfPresent (o : J.JSONObject) (name : String) : Option (Option Int) :=
  if J.has o name then (J.getInt o name).map some else some none

/-- `value?.let { o.put(name, it) }`. -/
def putIfPresent (o : J.JSONObject) (name : String) (value : Option Value) : J.JSONObject :=
  match value with
  | none => o
  | some v => J.put o name v

end OrgJson

/-! ### The source -/

section Source

variable (J : OrgJson)

/-- The object that `toJson` builds. -/
def configObject (c : BypassConfig) : J.JSONObject :=
  let o := J.put J.empty "presetName" (.string c.presetName)
  let o := J.put o "socksPort" (.int c.socksPort)
  let o := J.putIfPresent o "splitPosition" (c.splitPosition.map .string)
  let o := J.putIfPresent o "disorderPosition" (c.disorderPosition.map .string)
  let o := J.putIfPresent o "oobPosition" (c.oobPosition.map .string)
  let o := J.put o "fakeEnabled" (.bool c.fakeEnabled)
  let o := J.put o "fakeTtl" (.int c.fakeTtl)
  let o := J.put o "dropSack" (.bool c.dropSack)
  let o := J.putIfPresent o "tlsRec" (c.tlsRec.map .string)
  let o := J.putIfPresent o "modHttp" (c.modHttp.map .string)
  let o := J.putIfPresent o "autoMode" (c.autoMode.map .string)
  let o := J.putIfPresent o "udpFakeCount" (c.udpFakeCount.map .int)
  let o := J.put o "dnsInterceptEnabled" (.bool c.dnsInterceptEnabled)
  J.put o "allowedApps" (.array c.allowedApps)

/-- `BypassConfig.toJson`. -/
def toJson (c : BypassConfig) : String := J.toString (configObject J c)

/-- `ifEmpty { null }`. -/
def ifEmptyNull (s : String) : Option String := if s = "" then none else some s

/-- `fromJson`; `none` is a `JSONException`. -/
def fromJson (json : String) : Option BypassConfig := do
  let o ← J.parse json
  let apps := (J.optJSONArray o "allowedApps").getD []
  let udpFakeCount ← J.intIfPresent o "udpFakeCount"
  pure {
    presetName := J.optString o "presetName" "universal"
    socksPort := J.optInt o "socksPort" 1080
    splitPosition := ifEmptyNull (J.optString o "splitPosition" "")
    disorderPosition := ifEmptyNull (J.optString o "disorderPosition" "")
    oobPosition := ifEmptyNull (J.optString o "oobPosition" "")
    fakeEnabled := J.optBoolean o "fakeEnabled" false
    fakeTtl := J.optInt o "fakeTtl" 8
    dropSack := J.optBoolean o "dropSack" false
    tlsRec := ifEmptyNull (J.optString o "tlsRec" "")
    modHttp := ifEmptyNull (J.optString o "modHttp" "")
    autoMode := ifEmptyNull (J.optString o "autoMode" "")
    udpFakeCount := udpFakeCount
    allowedApps := apps
    dnsInterceptEnabled := J.optBoolean o "dnsInterceptEnabled" true }

/-- The shared preferences `myvpn_prefs`. -/
abbrev Prefs := String → Option String

def PREF_KEY : String := "bypass_config_v3"

/-- `ConfigManager.saveConfig`. -/
def saveConfig (prefs : Prefs) (config : BypassConfig) : Prefs :=
  Function.update prefs PREF_KEY (some (toJson J config))

/-- `ConfigManager.loadConfig`: the default where nothing readable is stored. -/
def loadConfig (prefs : Prefs) : BypassConfig :=
  match prefs PREF_KEY with
  | none => defaultConfig
  | some json => (fromJson J json).getD defaultConfig

end Source

/-! ### What is read back -/

/-- The configuration with `null` for every optional string that is empty. -/
def BypassConfig.emptyToNull (c : BypassConfig) : BypassConfig :=
  { c with
    splitPosition := c.splitPosition.bind ifEmptyNull
    disorderPosition := c.disorderPosition.bind ifEmptyNull
    oobPosition := c.oobPosition.bind ifEmptyNull
    tlsRec := c.tlsRec.bind ifEmptyNull
    modHttp := c.modHttp.bind ifEmptyNull
    autoMode := c.autoMode.bind ifEmptyNull }

/-- The optional strings of a configuration. -/
def BypassConfig.optionalStrings (c : BypassConfig) : List (Option String) :=
  [c.splitPosition, c.disorderPosition, c.oobPosition, c.tlsRec, c.modHttp, c.autoMode]

@[simp] theorem ifEmptyNull_bind (s : Option String) :
    (s.bind ifEmptyNull).bind ifEmptyNull = s.bind ifEmptyNull := by
  cases s with
  | none => rfl
  | some s =>
    by_cases h : s = "" <;> simp [ifEmptyNull, h]

theorem bind_ifEmptyNull_eq_self {s : Option String} (h : s ≠ some "") : s.bind ifEmptyNull = s := by
  cases s with
  | none => rfl
  | some s =>
    rw [Option.bind_some, ifEmptyNull, if_neg fun hs => h (by rw [hs])]

theorem emptyToNull_emptyToNull (c : BypassConfig) : c.emptyToNull.emptyToNull = c.emptyToNull := by
  simp [BypassConfig.emptyToNull]

theorem emptyToNull_eq_self {c : BypassConfig} (h : some "" ∉ c.optionalStrings) : c.emptyToNull = c := by
  simp only [BypassConfig.optionalStrings, List.mem_cons, List.not_mem_nil, or_false, not_or, ← ne_eq] at h
  obtain ⟨h1, h2, h3, h4, h5, h6⟩ := h
  rw [BypassConfig.emptyToNull, bind_ifEmptyNull_eq_self h1.symm, bind_ifEmptyNull_eq_self h2.symm,
    bind_ifEmptyNull_eq_self h3.symm, bind_ifEmptyNull_eq_self h4.symm, bind_ifEmptyNull_eq_self h5.symm,
    bind_ifEmptyNull_eq_self h6.symm]

/-- The names that `toJson` writes, with their values. -/
def configFields (c : BypassConfig) : List (String × Option Value) := [
  ("presetName", some (.string c.presetName)),
  ("socksPort", some (.int c.socksPort)),
  ("splitPosition", c.splitPosition.map .string),
  ("disorderPosition", c.disorderPosition.map .string),
  ("oobPosition", c.oobPosition.map .string),
  ("fakeEnabled", some (.bool c.fakeEnabled)),
  ("fakeTtl", some (.int c.fakeTtl)),
  ("dropSack", some (.bool c.dropSack)),
  ("tlsRec", c.tlsRec.map .string),
  ("modHttp", c.modHttp.map .string),
  ("autoMode", c.autoMode.map .string),
  ("udpFakeCount", c.udpFakeCount.map .int),
  ("dnsInterceptEnabled", some (.bool c.dnsInterceptEnabled)),
  ("allowedApps", some (.array c.allowedApps))]

theorem configFields_nodup (c : BypassConfig) : ((configFields c).map Prod.fst).Nodup := by
  simp only [configFields, List.map_cons, List.map_nil]
  decide

theorem configObject_eq_foldl (J : OrgJson) (c : BypassConfig) :
    configObject J c = (configFields c).foldl (fun o e => J.putIfPresent o e.1 e.2) J.empty := rfl

section RoundTrip

variable {J : OrgJson} (hJ : J.Lawful)
include hJ

theorem opt_putIfPresent_of_ne (o : J.JSONObject) {k j : String} (v : Option Value) (h : j ≠ k) :
    J.opt (J.putIfPresent o k v) j = J.opt o j := by
  cases v with
  | none => rfl
  | some v => rw [OrgJson.putIfPresent, hJ.opt_put, if_neg h]

theorem opt_foldl_of_not_mem {fields : List (String × Option Value)} {k : String}
    (hk : k ∉ fields.map Prod.fst)
    (o : J.JSONObject) : J.opt (fields.foldl (fun o e => J.putIfPresent o e.1 e.2) o) k = J.opt o k := by
  induction fields generalizing o with
  | nil => rfl
  | cons e fields ih =>
    rw [List.map_cons, List.mem_cons, not_or] at hk
    rw [List.foldl_cons, ih hk.2, opt_putIfPresent_of_ne hJ o e.2 hk.1]

/-- Writing distinct names one after the other leaves every value under its name. -/
theorem opt_foldl_of_mem {fields : List (String × Option Value)} (hnodup : (fields.map Prod.fst).Nodup)
    {e : String × Option Value} (he : e ∈ fields) {o : J.JSONObject} (ho : J.opt o e.1 = none) :
    J.opt (fields.foldl (fun o e => J.putIfPresent o e.1 e.2) o) e.1 = e.2 := by
  induction fields generalizing o with
  | nil => cases he
  | cons x fields ih =>
    rw [List.map_cons, List.nodup_cons] at hnodup
    rw [List.foldl_cons]
    rcases List.mem_cons.mp he with rfl | hmem
    · rw [opt_foldl_of_not_mem hJ hnodup.1]
      cases hv : e.2 with
      | none => exact ho
      | some v => rw [OrgJson.putIfPresent, hJ.opt_put, if_pos rfl]
    · have hne : e.1 ≠ x.1 := fun h => hnodup.1 (h ▸ List.mem_map_of_mem hmem)
      exact ih hnodup.2 hmem (by rw [opt_putIfPresent_of_ne hJ o x.2 hne, ho])

theorem opt_configObject (c : BypassConfig) : ∀ e ∈ configFields c, J.opt (configObject J c) e.1 = e.2 := by
  intro e he
  rw [configObject_eq_foldl]
  exact opt_foldl_of_mem hJ (configFields_nodup c) he (hJ.opt_empty e.1)

variable {o : J.JSONObject} {name : String}

theorem optString_eq {s : String} (h : J.opt o name = some (.string s)) (fallback : String) :
    J.optString o name fallback = s := by
  rw [OrgJson.optString, h, Option.map_some, Option.getD_some, hJ.asString_string]

theorem optInt_eq {n : Int} (h : J.opt o name = some (.int n)) (fallback : Int) :
    J.optInt o name fallback = n := by
  rw [OrgJson.optInt, h, Option.bind_some, hJ.asInt_int, Option.getD_some]

theorem optBoolean_eq {b : Bool} (h : J.opt o name = some (.bool b)) (fallback : Bool) :
    J.optBoolean o name fallback = b := by
  rw [OrgJson.optBoolean, h, Option.bind_some, hJ.asBoolean_bool, Option.getD_some]

/-- An omitted name and an empty string are both read as `null`. -/
theorem ifEmptyNull_optString {s : Option String} (h : J.opt o name = s.map .string) :
    ifEmptyNull (J.optString o name "") = s.bind ifEmptyNull := by
  cases s with
  | none =>
    rw [OrgJson.optString, h]
    rfl
  | some s => rw [optString_eq hJ h, Option.bind_some]

theorem intIfPresent_eq {n : Option Int} (h : J.opt o name = n.map .int) :
    J.intIfPresent o name = some n := by
  rw [OrgJson.intIfPresent, OrgJson.has, OrgJson.getInt, h]
  cases n with
  | none => rfl
  | some n => simp [hJ.asInt_int]

theorem fromJson_toJson_eq (c : BypassConfig) : fromJson J (toJson J c) = some c.emptyToNull := by
  obtain ⟨o, hparse, hopt⟩ := hJ.parse_toString (configObject J c)
  have hfields : ∀ e ∈ configFields c, J.opt o e.1 = e.2 := by
    intro e he
    rw [hopt, opt_configObject hJ c e he]
  simp only [configFields, List.forall_mem_cons] at hfields
  obtain ⟨hname, hport, hsplit, hdisorder, hoob, hfake, httl, hsack, htls, hhttp, hauto, hudp, hdns,
      happs, -⟩ := hfields
  have harray : J.optJSONArray o "allowedApps" = some c.allowedApps := by
    rw [OrgJson.optJSONArray, happs]
  rw [fromJson, toJson, hparse, Option.bind_eq_bind, Option.bind_some, harray, intIfPresent_eq hJ hudp,
    Option.bind_eq_bind, Option.bind_some, optString_eq hJ hname, optInt_eq hJ hport, optBoolean_eq hJ hfake,
    optInt_eq hJ httl, optBoolean_eq hJ hsack, optBoolean_eq hJ hdns, ifEmptyNull_optString hJ hsplit,
    ifEmptyNull_optString hJ hdisorder, ifEmptyNull_optString hJ hoob, ifEmptyNull_optString hJ htls,
    ifEmptyNull_optString hJ hhttp, ifEmptyNull_optString hJ hauto]
  rfl

end RoundTrip

/-- **Configurations are stored faithfully.** A stored configuration is read back with `null` for its
empty optional strings; what was read is read again as it is, and a configuration without empty optional
strings is read back unchanged. -/
theorem fromJson_toJson (J : OrgJson) (hJ : J.Lawful) (c : BypassConfig) :
    fromJson J (toJson J c) = some c.emptyToNull ∧
      (∀ c', fromJson J (toJson J c) = some c' → fromJson J (toJson J c') = some c') ∧
      (some "" ∉ c.optionalStrings → fromJson J (toJson J c) = some c) := by
  refine ⟨fromJson_toJson_eq hJ c, fun c' h => ?_, fun h => ?_⟩
  · rw [fromJson_toJson_eq hJ c] at h
    obtain rfl := Option.some.inj h
    rw [fromJson_toJson_eq hJ, emptyToNull_emptyToNull]
  · rw [fromJson_toJson_eq hJ, emptyToNull_eq_self h]

/-! ### Compact texts -/

/-- A name keeps its place when its value is replaced. -/
def putEntry (k : String) (v : Value) : List JsonText.Entry → List JsonText.Entry
  | [] => [(k, v)]
  | e :: es => if e.1 = k then (k, v) :: es else e :: putEntry k v es

/-- The value of a name. -/
def optEntry (es : List JsonText.Entry) (k : String) : Option Value :=
  (es.find? fun e => e.1 = k).map Prod.snd

/-- Objects in the order of their names, with compact texts. -/
def compactJson : OrgJson where
  JSONObject := List JsonText.Entry
  empty := []
  put es k v := putEntry k v es
  opt := optEntry
  toString := JsonText.render
  parse := JsonText.parse
  asString
    | .string s => s
    | v => String.ofList (JsonText.renderValue v)
  asInt
    | .int n => some n
    | .string s => JsonText.readInt s.toList
    | _ => none
  asBoolean
    | .bool b => some b
    | .string s => if s.toLower = "true" then some true else if s.toLower = "false" then some false else none
    | _ => none

theorem optEntry_putEntry (es : List JsonText.Entry) (k : String) (v : Value) (j : String) :
    optEntry (putEntry k v es) j = if j = k then some v else optEntry es j := by
  induction es with
  | nil =>
    by_cases h : j = k
    · simp [optEntry, putEntry, h]
    · simp [optEntry, putEntry, h, Ne.symm h]
  | cons e es ih =>
    rw [optEntry] at ih
    by_cases he : e.1 = k <;> by_cases hj : e.1 = j
    · have h : j = k := by rw [← hj, he]
      simp [optEntry, putEntry, he, h]
    · have h : j ≠ k := fun h => hj (by rw [he, h])
      simp [optEntry, putEntry, he, h, Ne.symm h]
    · have h : j ≠ k := fun h => he (by rw [hj, h])
      simp [optEntry, putEntry, hj, h]
    · simp [optEntry, putEntry, he, hj, ih]

theorem compactJson_lawful : compactJson.Lawful where
  opt_empty _ := rfl
  opt_put es k v j := optEntry_putEntry es k v j
  parse_toString es := ⟨es, JsonText.parse_render es, fun _ => rfl⟩
  asString_string _ := rfl
  asInt_int _ := rfl
  asBoolean_bool _ := rfl

/-- A configuration with an empty optional string. -/
def emptySplit : BypassConfig where
  splitPosition := some ""
  tlsRec := some "1+s"
  udpFakeCount := some 0
  allowedApps := ["org.b", "org.a", "org.b"]

theorem fromJson_toJson_emptySplit :
    fromJson compactJson (toJson compactJson emptySplit) = some { emptySplit with splitPosition := none } :=
  (fromJson_toJson compactJson compactJson_lawful emptySplit).1

/-! ### The preferences -/

section Preferences

variable {J : OrgJson} (hJ : J.Lawful)
include hJ

/-- What was saved last is loaded. -/
theorem loadConfig_saveConfig (prefs : Prefs) (c : BypassConfig) :
    loadConfig J (saveConfig J prefs c) = c.emptyToNull := by
  rw [loadConfig, saveConfig, Function.update_self]
  dsimp only
  rw [fromJson_toJson_eq hJ, Option.getD_some]

/-- Loading and saving again changes nothing that is loaded. -/
theorem loadConfig_saveConfig_loadConfig (prefs : Prefs) (c : BypassConfig) :
    loadConfig J (saveConfig J prefs (loadConfig J (saveConfig J prefs c))) =
      loadConfig J (saveConfig J prefs c) := by
  rw [loadConfig_saveConfig hJ, loadConfig_saveConfig hJ, emptyToNull_emptyToNull]

theorem loadConfig_saveConfig_preset (prefs : Prefs) {p : Preset} (hp : p ∈ PRESETS) :
    loadConfig J (saveConfig J prefs p.config) = p.config := by
  have hset : ∀ p ∈ PRESETS, some "" ∉ p.config.optionalStrings := by decide
  rw [loadConfig_saveConfig hJ, emptyToNull_eq_self (hset p hp)]

end Preferences

end BypassVpn
