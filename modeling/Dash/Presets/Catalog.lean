import Dash.Presets.Settled
import Mathlib.Data.Rat.Defs

/-! The catalog of gameplay presets: the keys it may set, their ranges, and the settings it holds. -/

set_option autoImplicit false

namespace Dash.Presets

open Dash.Python Dash.Foundation Dash.EnvFile List

variable {F : Type}

structure Numbers (F : Type) extends Runtime F where
  /-- `float(text)`; `none` raises. -/
  floatOfText : String → Option F
  /-- `number < bound` -/
  below : F → Rat → Bool
  /-- `number > bound` -/
  above : F → Rat → Bool

def SECTIONS : List (String × String) :=
  [("Sandworm", "/Script/DuneSandbox.SandwormSettings"), ("Storm", "/Script/DuneSandbox.SandStormConfig"),
    ("Building", "/Script/DuneSandbox.BuildingSettings"),
    ("Harvest", "/Script/DuneSandbox.SpiceHarvestingSystem"),
    ("FlourSand", "/Script/DuneSandbox.FlourSandSubsystem"),
    ("TimeOfDay", "/Script/DuneSandbox.TimeOfDaySettings"),
    ("GameMode", "/Script/DuneSandbox.DuneSandboxGameModeBase"),
    ("Hydration", "/Script/DuneSandbox.HydrationSubsystem")]

inductive Spec where
  | float (minimum maximum : Rat)
  | int (minimum maximum : Int)
  | bool

def SPECS : List (String × Spec) :=
  [("ThreatScale", .float 0 5), ("DefaultMaxThreatScore", .int 100 100000),
    ("ThreatDecreaseCooldownInSeconds", .float 0 300), ("WalkingThreatPerSec", .float 0 10000),
    ("RunningThreatPerSec", .float 0 10000), ("CrouchingThreatPerSec", .float 0 10000),
    ("SprintingThreatPerSec", .float 0 10000), ("HyperSprintingThreatPerSec", .float 0 10000),
    ("DashingThreatPerSec", .float 0 10000), ("SuspendingThreatPerSec", .float 0 10000),
    ("ShieldingThreatPerSec", .float 0 10000), ("VehicleShieldingThreatPerSec", .float 0 10000),
    ("DrumsandThreatPerSec", .float 0 10000), ("m_MinDistanceBetweenSandworms", .float 1000 1000000),
    ("m_bGiantWormSystemEnabled", .bool), ("m_GiantWormMinimumPlayersOnSpiceField", .int 1 100),
    ("m_GiantWormMinimumSpiceAmountHarvested", .float 0 10000000),
    ("m_GiantWormSpawningCooldown", .float 0 604800),
    ("m_GiantWormSpawningUpdateFrequency", .float 1 3600), ("m_bCoriolisAutoSpawnEnabled", .bool),
    ("m_bCoriolisDoesDamage", .bool), ("m_CoriolisHeavyDamage", .float 0 1000000),
    ("m_CoriolisLightDamage", .float 0 1000000), ("m_SandStormDebrisSpeed", .float 0 100000),
    ("m_bMitigateAllSandstormDamage", .bool),
    ("m_NodeValueToSpiceResourceRatio", .float (1 / 100) 1000),
    ("m_FlourSandFieldsActivePercentage", .float 0 1), ("m_DefaultRepairCostMultiplier", .float 0 100),
    ("m_DayLengthMinutes", .float 1 1440), ("m_DropAmountOnDefeat", .float 0 1),
    ("m_bHydrationEnabled", .bool)]

def boundText (bound : Rat) : String := if bound = 1 / 100 then "0.01" else toString bound

structure Preset (F : Type) where
  (id label description category : String)
  settings : List Setting
  source : Value F

/-- `re.fullmatch(r"[a-z0-9][a-z0-9-]{1,63}", id)` -/
def isPresetId (id : String) : Bool :=
  let small := fun char : Char => (decide ('a' ≤ char) && decide (char ≤ 'z')) ||
    (decide ('0' ≤ char) && decide (char ≤ '9'))
  id.toList.head?.any small && decide (2 ≤ id.toList.length) && decide (id.toList.length ≤ 64) &&
    id.toList.tail.all fun char => small char || decide (char = '-')

namespace Numbers

variable (rt : Numbers F)

def validateValue (key : String) (value : Value F) : Result String :=
  match SPECS.find? fun entry => entry.1 = key with
  | none => valueError ("preset key is not allowlisted: " ++ key)
  | some (_, spec) =>
    let text := strip (rt.str value)
    match spec with
    | .bool =>
      if rt.lower text ≠ "true" ∧ rt.lower text ≠ "false" then
        valueError (key ++ " must be true or false")
      else .ok (if rt.lower text = "true" then "True" else "False")
    | .int minimum maximum =>
      match rt.intOfText text with
      | none => valueError (key ++ " must be int")
      | some number =>
        if number < minimum ∨ maximum < number then
          valueError (key ++ " must be from " ++ toString minimum ++ " to " ++ toString maximum)
        else .ok (toString number)
    | .float minimum maximum =>
      match rt.floatOfText text with
      | none => valueError (key ++ " must be float")
      | some number =>
        if rt.below number minimum ∨ rt.above number maximum then
          valueError (key ++ " must be from " ++ boundText minimum ++ " to " ++ boundText maximum)
        else .ok (rt.floatText number).repr

def attributeError {α : Type} (message : String) : Result α := .error ⟨.attributeError, message⟩

/-- `raw.get(..) or []`, to be looped over as dictionaries: of what is not empty, only a list can be. -/
def listOr (value : Value F) : Result (List (Value F)) :=
  if rt.truthy value then
    match value with
    | .list items => .ok items
    | .str _ => attributeError "'str' object has no attribute 'get'"
    | .dict _ => attributeError "'str' object has no attribute 'get'"
    | _ => typeError "object is not iterable"
  else .ok []

def loadSetting (item : Value F) : Result Setting := do
  if !item.isDict then attributeError "object has no attribute 'get'" else
  let group := rt.str (rt.orElse (item.get "group") (.str ""))
  match SECTIONS.find? fun entry => entry.1 = group with
  | none => valueError ("unknown preset group: " ++ group)
  | some (_, heading) =>
    let key := strip (rt.str (rt.orElse (item.get "key") (.str "")))
    let value ← rt.validateValue key (item.get "value")
    .ok ⟨heading.toList, key.toList, value.toList⟩

def loadPreset (seen : List String) (raw : Value F) : Result (Preset F) := do
  if !raw.isDict then attributeError "object has no attribute 'get'" else
  let id := strip (rt.str (rt.orElse (raw.get "id") (.str "")))
  if isPresetId id = false ∨ id ∈ seen then valueError ("invalid or duplicate preset id: " ++ id) else
  let items ← rt.listOr (raw.get "settings")
  let settings ← items.mapM rt.loadSetting
  if settings = [] then valueError ("preset " ++ id ++ " has no settings") else
    .ok
      { id := id
        label := clip 200 (rt.str (rt.orElse (raw.get "label") (.str id)))
        description := clip 1000 (rt.str (rt.orElse (raw.get "description") (.str "")))
        category := clip 80 (rt.str (rt.orElse (raw.get "category") (.str "custom")))
        settings := settings
        source := rt.orElse (raw.get "source") (.dict []) }

def loadPresets (seen : List String) : List (Value F) → Result (List (Preset F))
  | [] => .ok []
  | raw :: rest => do
    let preset ← rt.loadPreset seen raw
    let others ← loadPresets (preset.id :: seen) rest
    .ok (preset :: others)

/-- `value == 1` -/
def equalsOne : Value F → Bool
  | .int value => value = 1
  | .bool value => value
  | .float value => !rt.below value 1 && !rt.above value 1
  | _ => false

/-- `load_catalog`, of the text of the file. -/
def loadCatalog (text : String) : Result (List (Preset F)) := do
  let value ← rt.toRuntime.loads text
  if !value.isDict || !rt.equalsOne (value.get "schemaVersion") then
    valueError "gameplay preset catalog must be schemaVersion 1"
  else
    match value.get "presets" with
    | .list presets => rt.loadPresets [] presets
    | _ => valueError "gameplay preset catalog must be schemaVersion 1"

end Numbers

def isValueChar (char : Char) : Bool :=
  char.isAlphanum || char = '-' || char = '+' || char = '.'

theorem valueChar_plain {char : Char} (word : isValueChar char = true) :
    isSpace char = false ∧ isBoundary char = false := by
  have range : 33 ≤ char.toNat ∧ char.toNat ≤ 122 := by
    simp only [isValueChar, Bool.or_eq_true, decide_eq_true_eq] at word
    rcases word with ((alphanum | rfl) | rfl) | rfl
    · have code := alphanum_code alphanum
      omega
    all_goals decide
  constructor
  · simp only [isSpace, Bool.or_eq_false_iff, Bool.and_eq_false_iff, decide_eq_false_iff_not]
    omega
  · simp only [isBoundary, Bool.or_eq_false_iff, Bool.and_eq_false_iff, decide_eq_false_iff_not]
    omega

theorem stripChars_plain {text : List Char} (plain : ∀ char ∈ text, isSpace char = false) : stripChars text = text := by
  have letters : ∀ char ∈ (String.ofList text).toList, isSpace char = false := by
    rwa [String.toList_ofList]
  have same := strip_plain letters
  rw [strip, String.toList_ofList, ← String.toList_inj, String.toList_ofList, String.toList_ofList] at same
  exact same

theorem digit_value {char : Char} (digit : char.isDigit = true) : isValueChar char = true := by
  rw [isValueChar, Char.isAlphanum, digit, Bool.or_true]
  rfl

theorem toDigits_value (number : Nat) : ∀ char ∈ Nat.toDigits 10 number, isValueChar char = true :=
  fun _ member => digit_value (Nat.isDigit_of_mem_toDigits (by decide) (by decide) member)

theorem digits_value (digits : Digits) : ∀ char ∈ digits.val, isValueChar char = true :=
  fun char member => digit_value (digits.property.2 char member)

theorem repr_value (number : Int) : ∀ char ∈ (toString number).toList, isValueChar char = true := by
  cases number with
  | ofNat whole =>
    intro char member
    refine toDigits_value whole char ?_
    simpa [toString, Int.repr, Nat.repr] using member
  | negSucc whole =>
    intro char member
    have text : (toString (Int.negSucc whole)).toList = '-' :: Nat.toDigits 10 (whole + 1) := by
      simp [toString, Int.repr, Nat.repr]
    rw [text] at member
    rcases mem_cons.mp member with rfl | digit
    · decide
    · exact toDigits_value _ char digit

theorem letters_value {text : String} (all : text.toList.all isValueChar = true) :
    ∀ char ∈ text.toList, isValueChar char = true :=
  all_eq_true.mp all

theorem floatRepr_value (number : FloatText) : ∀ char ∈ number.repr.toList, isValueChar char = true := by
  have sign : ∀ negative, ∀ char ∈ signText negative, isValueChar char = true := by
    intro negative char member
    cases negative with
    | true =>
      rw [mem_singleton.mp member]
      decide
    | false => cases member
  have power : ∀ exponent : Exponent, ∀ char ∈ exponent.text, isValueChar char = true := by
    intro exponent char member
    rcases mem_cons.mp member with rfl | rest
    · decide
    · rcases mem_cons.mp rest with rfl | digit
      · split <;> decide
      · exact digits_value _ char digit
  have mark : ∀ mark : Mark, ∀ char ∈ mark.text, isValueChar char = true := by
    intro mark char member
    cases mark with
    | fraction digits =>
      rcases mem_cons.mp member with rfl | digit
      · decide
      · exact digits_value _ char digit
    | exponent exponent => exact power exponent char member
    | both digits exponent =>
      rcases mem_cons.mp member with rfl | rest
      · decide
      · rcases mem_append.mp rest with digit | behind
        · exact digits_value _ char digit
        · exact power exponent char behind
  intro char member
  cases number with
  | nan => exact letters_value (by decide +kernel) char member
  | infinity negative =>
    cases negative with
    | true => exact letters_value (by decide +kernel) char member
    | false => exact letters_value (by decide +kernel) char member
  | decimal negative whole part =>
    change char ∈ (String.ofList (FloatText.text (.decimal negative whole part))).toList at member
    rw [String.toList_ofList, FloatText.text] at member
    rcases mem_append.mp member with first | rest
    · exact sign negative char first
    · rcases mem_append.mp rest with digit | behind
      · exact toDigits_value whole char digit
      · exact mark part char behind

def isKey (key : Line) : Bool :=
  (key.all fun char => !isSpace char && !isBoundary char && !decide (char = '=')) &&
    key.head?.all fun char => !decide (char ∈ [';', '#', '+', '-', '['])

def isHeading (name : Line) : Bool := !name.isEmpty && name.all fun char => !isBoundary char

theorem keys_listed : (SPECS.all fun entry => isKey entry.1.toList) = true := by
  decide +kernel

theorem sections_listed : (SECTIONS.all fun entry => isHeading entry.2.toList) = true := by
  decide +kernel

namespace Numbers

variable (rt : Numbers F)

theorem validateValue_ok {key text : String} {value : Value F} (valid : rt.validateValue key value = .ok text) :
    (∃ spec, (key, spec) ∈ SPECS) ∧ ∀ char ∈ text.toList, isValueChar char = true := by
  unfold validateValue at valid
  split at valid
  · cases valid
  next name spec found =>
  have member := List.mem_of_find?_eq_some found
  have same := List.find?_some found
  rw [decide_eq_true_eq] at same
  subst same
  refine ⟨⟨spec, member⟩, ?_⟩
  dsimp only at valid
  split at valid
  · split at valid
    · cases valid
    · cases valid
      split
      · exact letters_value (by decide +kernel)
      · exact letters_value (by decide +kernel)
  · split at valid
    · cases valid
    · split at valid
      · cases valid
      · cases valid
        exact repr_value _
  · split at valid
    · cases valid
    · split at valid
      · cases valid
      · cases valid
        exact floatRepr_value _

/-- A setting of a catalog is plain, and in one of the listed sections. -/
theorem loadSetting_ok {item : Value F} {setting : Setting} (loaded : rt.loadSetting item = .ok setting) :
    setting.Plain ∧ ∃ entry ∈ SECTIONS, setting.heading = entry.2.toList := by
  unfold loadSetting at loaded
  split at loaded
  · cases loaded
  dsimp only at loaded
  split at loaded
  · cases loaded
  next group heading found =>
  generalize strip (rt.str (rt.orElse (item.get "key") (.str ""))) = key at loaded
  obtain ⟨value, valid, same⟩ := result_bind.mp loaded
  cases same
  obtain ⟨⟨spec, listed⟩, letters⟩ := rt.validateValue_ok valid
  have word := all_eq_true.mp keys_listed _ listed
  simp only [isKey, Bool.and_eq_true, all_eq_true, Option.all_eq_true, Bool.not_eq_true',
    decide_eq_false_iff_not] at word
  obtain ⟨chars, start⟩ := word
  have section_ := List.mem_of_find?_eq_some found
  have name := all_eq_true.mp sections_listed _ section_
  simp only [isHeading, Bool.and_eq_true, all_eq_true, Bool.not_eq_true', isEmpty_eq_false_iff] at name
  obtain ⟨named, clean⟩ := name
  have plain : Setting.Plain ⟨heading.toList, key.toList, value.toList⟩ :=
    { named := named
      heading := clean
      keyLine := fun char member => ⟨(chars char member).1.2, (chars char member).2⟩
      keyStart := start
      keyStripped := stripChars_plain fun char member => (chars char member).1.1
      valueLine := fun char member => (valueChar_plain (letters char member)).2
      valueStripped := stripChars_plain fun char member => (valueChar_plain (letters char member)).1 }
  exact ⟨plain, (group, heading), section_, rfl⟩

theorem loadSettings_ok {items : List (Value F)} {settings : List Setting}
    (loaded : items.mapM rt.loadSetting = .ok settings) :
    ∀ setting ∈ settings, setting.Plain ∧ ∃ entry ∈ SECTIONS, setting.heading = entry.2.toList := by
  induction items generalizing settings with
  | nil =>
    cases loaded
    exact fun _ impossible => nomatch impossible
  | cons item rest ih =>
    rw [mapM_cons] at loaded
    obtain ⟨first, one, loaded⟩ := result_bind.mp loaded
    obtain ⟨others, tail, same⟩ := result_bind.mp loaded
    cases same
    intro setting member
    rcases mem_cons.mp member with rfl | later
    · exact rt.loadSetting_ok one
    · exact ih tail setting later

theorem loadPresets_ok {seen : List String} {raws : List (Value F)} {presets : List (Preset F)}
    (loaded : rt.loadPresets seen raws = .ok presets) : ∀ preset ∈ presets, ∀ setting ∈ preset.settings,
      setting.Plain ∧ ∃ entry ∈ SECTIONS, setting.heading = entry.2.toList := by
  induction raws generalizing seen presets with
  | nil =>
    cases loaded
    exact fun _ impossible => nomatch impossible
  | cons raw rest ih =>
    obtain ⟨first, one, loaded⟩ := result_bind.mp loaded
    obtain ⟨others, tail, same⟩ := result_bind.mp loaded
    cases same
    intro preset member
    rcases mem_cons.mp member with rfl | later
    · unfold loadPreset at one
      split at one
      · cases one
      dsimp only at one
      split at one
      · cases one
      obtain ⟨items, -, one⟩ := result_bind.mp one
      obtain ⟨settings, each, one⟩ := result_bind.mp one
      split at one
      · cases one
      · cases one
        exact rt.loadSettings_ok each
    · exact ih tail preset later

theorem loadCatalog_ok {text : String} {presets : List (Preset F)} (loaded : rt.loadCatalog text = .ok presets) :
    ∀ preset ∈ presets, ∀ setting ∈ preset.settings,
      setting.Plain ∧ ∃ entry ∈ SECTIONS, setting.heading = entry.2.toList := by
  obtain ⟨value, -, loaded⟩ := result_bind.mp loaded
  split at loaded
  · cases loaded
  · split at loaded
    · exact rt.loadPresets_ok loaded
    · cases loaded

end Numbers

end Dash.Presets
