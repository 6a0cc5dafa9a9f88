import Dash.Foundation.Attempts
import Dash.Python.Plain
import Mathlib.Data.Nat.Count

/-! Blueprint archives: how a payload is checked and normalized, and which placeable a pentashield is
attached to.

Dictionaries have string keys. The rows without an id get the first numbers that no row names.
-/

set_option autoImplicit false

namespace Dash.Blueprints

open Foundation Python List

variable {F : Type}

structure Platform (F : Type) extends Runtime F where
  zero : F
  /-- `float(x)` of an integer; one out of range raises. -/
  floatOfInt : Int → Result F
  /-- `float(text)`; `none` raises. -/
  floatOfNumeral : String → Option F
  /-- `math.isfinite(x) and abs(x) <= 100_000_000` -/
  supported : F → Bool
  /-- `building_type in STRUCTURAL_BUILDING_TYPES` -/
  structural : String → Bool
  /-- `\d` of a character -/
  isDigit : Char → Bool
  zero_supported : supported zero = true
  isDigit_digit : ∀ char : Char, char.isDigit = true → isDigit char = true
  isDigit_open : isDigit '(' = false

structure Instance (F : Type) where
  id : Nat
  buildingType : String
  transform : List F
  providesStability : Bool

structure Placeable (F : Type) where
  id : Nat
  buildingType : String
  transform : List F

structure Pentashield where
  placeableId : Int
  scale : List Int

structure Archive (F : Type) where
  name : String
  instances : List (Instance F)
  placeables : List (Placeable F)
  pentashields : List Pentashield

/-- `raise ValueError(message)` for what `int` or `float` refuse. -/
def refused {α : Type} (message : String) : Result α → Result α
  | .error why => if why.type = .valueError ∨ why.type = .typeError then valueError message else .error why
  | outcome => outcome

def sourceId (rt : Runtime F) (key label : String) (row : Value F) : Result (Option Nat) :=
  if (row.get key).isBlank then .ok none
  else do
    let value ← refused (label ++ " id must be a non-negative integer") (rt.int (row.get key))
    if value < 0 then valueError (label ++ " id must be a non-negative integer")
    else return some value.toNat

def offset (sources : List (Option Nat)) : Nat := if some 0 ∈ sources then 1 else 0

/-- The ids that rows have, or that two rows have one. -/
def reserve (label : String) (shift : Nat) : List (Option Nat) → List Nat → Result (List Nat)
  | [], reserved => .ok reserved
  | none :: rest, reserved => reserve label shift rest reserved
  | some source :: rest, reserved =>
    if source + shift ∈ reserved then
      valueError ("blueprint contains duplicate " ++ label ++ " id " ++ toString source)
    else reserve label shift rest ((source + shift) :: reserved)

/-- `while next_id in reserved: next_id += 1`, which ends after one round for each reserved id. -/
def nextFree (reserved : List Nat) : Nat → Nat → Nat
  | 0, next => next
  | fuel + 1, next => if next ∈ reserved then nextFree reserved fuel (next + 1) else next

def assign (shift : Nat) : List (Option Nat) → List Nat → Nat → List Nat
  | [], _, _ => []
  | some source :: rest, reserved, next => (source + shift) :: assign shift rest reserved next
  | none :: rest, reserved, next =>
    nextFree reserved reserved.length next :: assign shift rest
      (nextFree reserved reserved.length next :: reserved) (nextFree reserved reserved.length next + 1)

def mappingOf (sources : List (Option Nat)) : List (Nat × Nat) :=
  (sources.filterMap id).map fun source => (source, source + offset sources)

def resolveIds (rt : Runtime F) (rows : List (Value F)) (key label : String) :
    Result (List Nat × List (Nat × Nat)) := do
  let sources ← rows.mapM (sourceId rt key label)
  let reserved ← reserve label (offset sources) sources []
  return (assign (offset sources) sources reserved 1, mappingOf sources)

namespace Platform

variable (rt : Platform F)

def finiteNumber (value : Value F) (label : String) : Result F :=
  if value.isBlank then .ok rt.zero
  else do
    let result ← refused (label ++ " must be numeric") (match value with
      | .float number => .ok number
      | .int number => rt.floatOfInt number
      | .bool truth => rt.floatOfInt (if truth then 1 else 0)
      | .str text =>
        match rt.floatOfNumeral text with
        | some number => .ok number
        | none => valueError "could not convert string to float"
      | _ => typeError "float() argument must be a string or a real number")
    if rt.supported result then return result
    else valueError (label ++ " is outside the supported coordinate range")

/-- `[A-Za-z0-9_./:-]{1,256}` -/
def isType (text : String) : Bool :=
  text ≠ "" && decide (text.length ≤ 256) && text.toList.all fun char =>
    (decide (char.toNat < 128) && char.isAlphanum) || char ∈ ['_', '.', '/', ':', '-']

def buildingType (value : Value F) : Result String :=
  let text := strip (rt.str (rt.orElse value (.str "")))
  if isType text then .ok text else valueError "building_type is missing or invalid"

def rowsOf (value : Value F) (label : String) : Result (List (Value F)) :=
  match value with
  | .none => .ok []
  | .list items =>
    if 10000 < items.length then valueError (label ++ " exceeds the 10000 row limit")
    else if items.any fun row => !row.isDict then valueError ("every " ++ label ++ " row must be an object")
    else .ok items
  | _ => valueError (label ++ " must be an array")

def numbers (row : Value F) (keys : List (String × String)) : Result (List F) :=
  keys.mapM fun key => rt.finiteNumber (row.get key.1) key.2

def instanceOf (row : Value F × Nat) : Result (Instance F) := do
  let type ← rt.buildingType (row.1.get "building_type")
  let transform ← rt.numbers row.1 [("x", "instance x"), ("y", "instance y"), ("z", "instance z"),
    ("rotation", "instance rotation")]
  return ⟨row.2, type, transform, rt.truthy (getOr row.1 "provides_stability" (.bool (rt.structural type)))⟩

def placeableOf (row : Value F × Nat) : Result (Placeable F) := do
  let type ← rt.buildingType (row.1.get "building_type")
  let transform ← rt.numbers row.1 [("x", "placeable x"), ("y", "placeable y"), ("z", "placeable z"),
    ("rx", "placeable rx"), ("ry", "placeable ry"), ("rz", "placeable rz")]
  return ⟨row.2, type, transform⟩

def scaleOf (raw : Value F) : Result Int := do
  let value ← refused "pentashield scale must contain three integers" (rt.int raw)
  if value < -32768 ∨ 32767 < value then valueError "pentashield scale values must fit smallint"
  else return value

def shieldSource (row : Value F) : Result Int :=
  refused "pentashield placeable_id must be an integer" (rt.int (getOr row "placeable_id" (.int 0)))

/-- `placeable_map.get(source_id, source_id + (1 if 0 in placeable_map else 0))` -/
def target (mapping : List (Nat × Nat)) (source : Int) : Int :=
  match mapping.find? fun entry => (entry.1 : Int) = source with
  | some entry => entry.2
  | none => source + if mapping.any fun entry => entry.1 = 0 then 1 else 0

def pentashieldOf (mapping : List (Nat × Nat)) (row : Value F) : Result Pentashield :=
  match row.get "scale" with
  | .list (first :: second :: third :: _) => do
    let values ← [first, second, third].mapM rt.scaleOf
    let source ← rt.shieldSource row
    return ⟨target mapping source, values⟩
  | _ => valueError "pentashield scale must contain three integers"

/-- `re.sub(r"\s+", " ", text)` -/
def collapse : List Char → List Char
  | [] => []
  | [char] => if isSpace char then [' '] else [char]
  | char :: next :: rest =>
    if isSpace char then if isSpace next then collapse (next :: rest) else ' ' :: collapse (next :: rest)
    else char :: collapse (next :: rest)

def cleaned (value : Value F) : List Char :=
  stripChars (collapse ((rt.str (rt.orElse value (.str "Imported Blueprint"))).toList.map fun char =>
    if char ∈ ['_', '\\', '.'] then ' ' else char))

/-- `\(\d+\)` at the end of a text -/
def hasGroup (text : List Char) : Bool :=
  match text.reverse with
  | ')' :: rest => rest.takeWhile rt.isDigit ≠ [] && (rest.dropWhile rt.isDigit).head? = some '('
  | _ => false

/-- `re.sub(r"\s*\(\d+\)\s*$", "", text)` of a text without a blank at its end -/
def dropGroup (text : List Char) : List Char :=
  if rt.hasGroup text then
    ((((text.reverse.drop 1).dropWhile rt.isDigit).drop 1).dropWhile isSpace).reverse
  else text

def stem (value : Value F) : List Char :=
  let name := stripChars (rt.dropGroup (rt.cleaned value))
  if name = [] then "Imported Blueprint".toList else name

def nameOf (value : Value F) : String := String.ofList ((rt.stem value).take 120)

def checkCounts (instances placeables pentashields : List (Value F)) : Result Unit :=
  if instances.length + placeables.length + pentashields.length = 0 then
    valueError "blueprint has no instances, placeables, or pentashields"
  else if 10000 < instances.length + placeables.length + pentashields.length then
    valueError "blueprint exceeds the 10000 total row limit"
  else .ok ()

/-- The name in the payload, or what stands for it. -/
def rawName (payload fallbackName : Value F) (instances : List (Instance F)) : Value F :=
  let raw := rt.orElse (payload.get "name") (rt.orElse (payload.get "Name")
    (rt.orElse (payload.get "blueprint_name") fallbackName))
  match rt.truthy raw, instances with
  | false, first :: _ => .str first.buildingType
  | _, _ => raw

def validateArchive (payload fallbackName : Value F) : Result (Archive F) :=
  if ¬ payload.isDict then valueError "blueprint must be a JSON object"
  else do
    let instances ← rowsOf (payload.get "instances") "instances"
    let placeables ← rowsOf (payload.get "placeables") "placeables"
    let pentashields ← rowsOf (payload.get "pentashields") "pentashields"
    checkCounts instances placeables pentashields
    let (instanceIds, _) ← resolveIds rt.toRuntime instances "instance_id" "instance"
    let (placeableIds, mapping) ← resolveIds rt.toRuntime placeables "placeable_id" "placeable"
    let normalizedInstances ← (instances.zip instanceIds).mapM rt.instanceOf
    let normalizedPlaceables ← (placeables.zip placeableIds).mapM rt.placeableOf
    let normalizedPentashields ← pentashields.mapM (rt.pentashieldOf mapping)
    return ⟨rt.nameOf (rt.rawName payload fallbackName normalizedInstances), normalizedInstances,
      normalizedPlaceables, normalizedPentashields⟩

end Platform

section Numbering

variable {taken : List Nat} {shift : Nat}

/-- No row names the number. -/
def Vacant (taken : List Nat) (number : Nat) : Prop := 1 ≤ number ∧ number ∉ taken

instance (taken : List Nat) : DecidablePred (Vacant taken) :=
  fun number => inferInstanceAs (Decidable (1 ≤ number ∧ number ∉ taken))

/-- A row that names no number gets the next vacant one; so many were given before. -/
inductive Assigned (taken : List Nat) (shift : Nat) : Nat → List (Option Nat) → List Nat → Prop where
  | nil {given : Nat} : Assigned taken shift given [] []
  | named {given source : Nat} {rest : List (Option Nat)} {ids : List Nat} :
      Assigned taken shift given rest ids →
      Assigned taken shift given (some source :: rest) ((source + shift) :: ids)
  | vacant {given id : Nat} {rest : List (Option Nat)} {ids : List Nat} : Vacant taken id →
      Nat.count (Vacant taken) id = given → Assigned taken shift (given + 1) rest ids →
      Assigned taken shift given (none :: rest) (id :: ids)

/-- The search ends at the first number that is not reserved. -/
theorem nextFree_spec (reserved : List Nat) (fuel next : Nat) (enough : (reserved.filter (next ≤ ·)).length ≤ fuel) :
    next ≤ nextFree reserved fuel next ∧ nextFree reserved fuel next ∉ reserved ∧
      ∀ number, next ≤ number → number < nextFree reserved fuel next → number ∈ reserved := by
  induction fuel generalizing next with
  | zero =>
    refine ⟨le_rfl, fun member => ?_, fun number low high => absurd high (not_lt.mpr low)⟩
    have some_ : next ∈ reserved.filter (next ≤ ·) := mem_filter.mpr ⟨member, by simp⟩
    rw [length_eq_zero_iff.mp (Nat.le_zero.mp enough)] at some_
    cases some_
  | succ fuel ih =>
    unfold nextFree
    split
    next member =>
      have fewer : (reserved.filter (next + 1 ≤ ·)).length < (reserved.filter (next ≤ ·)).length := by
        have again : reserved.filter (next + 1 ≤ ·) = (reserved.filter (next ≤ ·)).filter (next + 1 ≤ ·) := by
          rw [filter_filter]
          refine filter_congr fun number _ => ?_
          rw [Bool.eq_iff_iff]
          simp
          omega
        rw [again, length_filter_lt_length_iff_exists]
        exact ⟨next, mem_filter.mpr ⟨member, by simp⟩, by simp⟩
      obtain ⟨low, free, below⟩ := ih (next + 1) (by omega)
      refine ⟨by omega, free, fun number least high => ?_⟩
      rcases Nat.eq_or_lt_of_le least with rfl | more
      · exact member
      · exact below number more high
    next free => exact ⟨le_rfl, free, fun number low high => absurd high (not_lt.mpr low)⟩

theorem count_between {low high : Nat} (order : low ≤ high)
    (none_ : ∀ number, low ≤ number → number < high → ¬ Vacant taken number) :
    Nat.count (Vacant taken) high = Nat.count (Vacant taken) low := by
  obtain ⟨distance, rfl⟩ := Nat.exists_eq_add_of_le order
  have nothing : Nat.count (fun step => Vacant taken (low + step)) distance = 0 :=
    Nat.count_iff_forall_not.mpr fun step short =>
      none_ (low + step) (Nat.le_add_right ..) (Nat.add_lt_add_left short low)
  rw [Nat.count_add, nothing, Nat.add_zero]

theorem assign_assigned (sources : List (Option Nat)) (reserved : List Nat) (next : Nat)
    (positive : 1 ≤ next) (same : ∀ number, next ≤ number → (number ∈ reserved ↔ number ∈ taken)) :
    Assigned taken shift (Nat.count (Vacant taken) next) sources (assign shift sources reserved next) := by
  induction sources generalizing reserved next with
  | nil => exact .nil
  | cons source rest ih => cases source with
    | some source => exact .named (ih reserved next positive same)
    | none =>
      obtain ⟨low, free, below⟩ := nextFree_spec reserved reserved.length next (length_filter_le ..)
      unfold assign
      generalize nextFree reserved reserved.length next = id at *
      have vacant : Vacant taken id := ⟨positive.trans low, fun there => free ((same id low).mpr there)⟩
      have given : Nat.count (Vacant taken) id = Nat.count (Vacant taken) next :=
        count_between low fun number least high vacant =>
          vacant.2 ((same number least).mp (below number least high))
      refine .vacant vacant given ?_
      have counted : Nat.count (Vacant taken) next + 1 = Nat.count (Vacant taken) (id + 1) := by
        rw [Nat.count_succ, if_pos vacant, given]
      rw [counted]
      refine ih (id :: reserved) (id + 1) (Nat.le_add_left ..) fun number more => ?_
      rw [← same number (low.trans (Nat.le_of_succ_le more)), mem_cons, or_iff_right (Nat.ne_of_gt more)]

variable {given : Nat} {sources : List (Option Nat)} {ids : List Nat}

section

variable (assigned : Assigned taken shift given sources ids)
include assigned

theorem Assigned.length : ids.length = sources.length := by
  induction assigned with
  | nil => rfl
  | named _ ih => simp [ih]
  | vacant _ _ _ ih => simp [ih]

/-- The number of a row. -/
theorem Assigned.pair {source : Option Nat} {id : Nat}
    (member : (source, id) ∈ sources.zip ids) : (∃ number, source = some number ∧ id = number + shift) ∨
      (source = none ∧ Vacant taken id ∧ given ≤ Nat.count (Vacant taken) id ∧
        Nat.count (Vacant taken) id < given + sources.count none) := by
  induction assigned with
  | nil => cases member
  | named _ ih =>
    rcases mem_cons.mp member with same | later
    · cases same
      exact .inl ⟨_, rfl, rfl⟩
    · rw [count_cons_of_ne (by simp)]
      exact ih later
  | vacant vacant counted _ ih =>
    rw [count_cons_self]
    rcases mem_cons.mp member with same | later
    · cases same
      exact .inr ⟨rfl, vacant, by omega, by omega⟩
    · rcases ih later with named | ⟨blank, vacant, low, high⟩
      · exact .inl named
      · exact .inr ⟨blank, vacant, by omega, by omega⟩

/-- The vacant numbers are given in their order. -/
theorem Assigned.filled {number : Nat} (vacant : Vacant taken number) (low : given ≤ Nat.count (Vacant taken) number)
    (high : Nat.count (Vacant taken) number < given + sources.count none) :
    (none, number) ∈ sources.zip ids := by
  induction assigned with
  | nil => exact absurd high (not_lt.mpr low)
  | named _ ih =>
    rw [count_cons_of_ne (by simp)] at high
    exact mem_cons_of_mem _ (ih low high)
  | vacant own counted _ ih =>
    rw [count_cons_self] at high
    rcases Nat.eq_or_lt_of_le low with same | more
    · rw [Nat.count_injective vacant own (same.symm.trans counted.symm)]
      exact mem_cons_self
    · exact mem_cons_of_mem _ (ih more (by omega))

theorem Assigned.row {id : Nat} (member : id ∈ ids) : ∃ source ∈ sources, (source, id) ∈ sources.zip ids := by
  have rows : (sources.zip ids).map Prod.snd = ids := map_snd_zip assigned.length.le
  rw [← rows] at member
  obtain ⟨⟨source, _⟩, there, rfl⟩ := mem_map.mp member
  exact ⟨source, (of_mem_zip there).1, there⟩

theorem Assigned.nodup (named : ∀ source, some source ∈ sources → source + shift ∈ taken)
    (distinct : (sources.filterMap id).Nodup) : ids.Nodup := by
  induction assigned with
  | nil => exact nodup_nil
  | @named given source rest ids assigned ih =>
    obtain ⟨fresh, distinct⟩ := nodup_cons.mp distinct
    refine nodup_cons.mpr ⟨fun member => ?_, ih (fun other there => named other (mem_cons_of_mem _ there)) distinct⟩
    obtain ⟨other, there, pair⟩ := assigned.row member
    rcases assigned.pair pair with ⟨number, rfl, same⟩ | ⟨-, vacant, -⟩
    · rw [Nat.add_right_cancel same] at fresh
      exact fresh (mem_filterMap.mpr ⟨_, there, rfl⟩)
    · exact vacant.2 (named source mem_cons_self)
  | @vacant given id rest ids vacant counted assigned ih =>
    have later := fun other there => named other (mem_cons_of_mem _ there)
    refine nodup_cons.mpr ⟨fun member => ?_, ih later (by simpa using distinct)⟩
    obtain ⟨other, there, pair⟩ := assigned.row member
    rcases assigned.pair pair with ⟨number, rfl, same⟩ | ⟨-, -, low, -⟩
    · exact vacant.2 (same ▸ later number there)
    · omega

end

end Numbering

/-- The numbers that rows name, as they are given. -/
def namedBy (sources : List (Option Nat)) : List Nat := (sources.filterMap id).map (· + offset sources)

variable {sources : List (Option Nat)}

theorem mem_namedBy {number : Nat} :
    number ∈ namedBy sources ↔ ∃ source, some source ∈ sources ∧ number = source + offset sources := by
  simp [namedBy, eq_comm]

theorem reserve_ok {label : String} {shift : Nat} {reserved all : List Nat}
    (distinct : reserve label shift sources reserved = .ok all) :
    (∀ number, number ∈ all ↔ number ∈ reserved ∨ ∃ source, some source ∈ sources ∧ number = source + shift) ∧
      (sources.filterMap id).Nodup ∧ ∀ source, some source ∈ sources → source + shift ∉ reserved := by
  induction sources generalizing reserved with
  | nil =>
    cases distinct
    simp
  | cons source rest ih => cases source with
    | none => simpa using ih distinct
    | some source =>
      obtain ⟨fresh, distinct⟩ := result_refuse.mp distinct
      obtain ⟨members, nodup, apart⟩ := ih distinct
      refine ⟨fun number => ?_, ?_, ?_⟩
      · rw [members, mem_cons]
        simp only [mem_cons, Option.some.injEq, or_and_right, exists_or,
          exists_eq_left]
        tauto
      · refine nodup_cons.mpr ⟨fun member => ?_, nodup⟩
        obtain ⟨_, there, rfl⟩ := mem_filterMap.mp member
        exact apart source there mem_cons_self
      · intro other member
        rcases mem_cons.mp member with same | later
        · cases same
          exact fresh
        · exact fun old => apart other later (mem_cons_of_mem _ old)

theorem resolve_ok {rt : Runtime F} {rows : List (Value F)} {key label : String} {ids : List Nat}
    {mapping : List (Nat × Nat)} (resolved : resolveIds rt rows key label = .ok (ids, mapping)) :
    ∃ sources, rows.mapM (sourceId rt key label) = .ok sources ∧ (sources.filterMap id).Nodup ∧
      Assigned (namedBy sources) (offset sources) 0 sources ids ∧ mapping = mappingOf sources := by
  obtain ⟨sources, read, resolved⟩ := result_bind.mp resolved
  obtain ⟨reserved, distinct, resolved⟩ := result_bind.mp resolved
  cases resolved
  obtain ⟨members, nodup, -⟩ := reserve_ok distinct
  refine ⟨sources, read, nodup, ?_, rfl⟩
  have none_ : Nat.count (Vacant (namedBy sources)) 1 = 0 := by simp [Nat.count_succ, Vacant]
  rw [← none_]
  refine assign_assigned sources reserved 1 le_rfl fun number _ => ?_
  rw [members, mem_namedBy]
  simp

theorem target_mapping (sources : List (Option Nat)) (source : Int) :
    Platform.target (mappingOf sources) source = source + offset sources := by
  unfold Platform.target
  split
  next entry found =>
    obtain ⟨number, -, same⟩ := mem_map.mp (List.mem_of_find?_eq_some found)
    have named := List.find?_some found
    cases same
    rw [← of_decide_eq_true named]
    exact Int.natCast_add ..
  next =>
    have zero : (mappingOf sources).any (fun entry => entry.1 = 0) = decide (some 0 ∈ sources) := by
      rw [Bool.eq_iff_iff, mappingOf, any_map, any_eq_true, decide_eq_true_iff]
      simp [mem_filterMap]
    rw [zero, offset]
    by_cases there : some 0 ∈ sources <;> simp [there]

/-- The ids of rows: different, from 1 on, and those the rows have moved by one shift. -/
structure Numbered (sources : List (Option Nat)) (ids : List Nat) : Prop where
  length : ids.length = sources.length
  distinct : ids.Nodup
  positive : ∀ id ∈ ids, 1 ≤ id
  kept : ∃ shift, ∀ source id, (some source, id) ∈ sources.zip ids → id = source + shift

theorem Assigned.numbered {ids : List Nat} (assigned : Assigned (namedBy sources) (offset sources) 0 sources ids)
    (distinct : (sources.filterMap id).Nodup) : Numbered sources ids where
  length := assigned.length
  distinct := assigned.nodup (fun source there => mem_namedBy.mpr ⟨source, there, rfl⟩) distinct
  positive id member := by
    obtain ⟨source, there, pair⟩ := assigned.row member
    rcases assigned.pair pair with ⟨number, rfl, rfl⟩ | ⟨-, vacant, -⟩
    · rcases Nat.eq_zero_or_pos number with rfl | positive
      · rw [offset, if_pos there]
      · omega
    · exact vacant.1
  kept := ⟨offset sources, fun source id pair => by
    rcases assigned.pair pair with ⟨number, same, rfl⟩ | ⟨same, -⟩
    · cases same
      rfl
    · cases same⟩

namespace Platform

variable (rt : Platform F)

def sourcesIn (payload : Value F) (name key label : String) : Result (List (Option Nat)) := do
  let rows ← rowsOf (payload.get name) name
  rows.mapM (sourceId rt.toRuntime key label)

def placeableSources (payload : Value F) : Result (List (Option Nat)) :=
  rt.sourcesIn payload "placeables" "placeable_id" "placeable"

def shieldSources (payload : Value F) : Result (List Int) := do
  let rows ← rowsOf (payload.get "pentashields") "pentashields"
  rows.mapM rt.shieldSource

/-- The ids are those of the payload, and a pentashield is attached to the placeable it names. -/
def Faithful (payload : Value F) (archive : Archive F) : Prop :=
  ∃ first sources numbers, rt.sourcesIn payload "instances" "instance_id" "instance" = .ok first ∧
    rt.placeableSources payload = .ok sources ∧ rt.shieldSources payload = .ok numbers ∧
    Numbered first (archive.instances.map Instance.id) ∧
    Numbered sources (archive.placeables.map Placeable.id) ∧
    numbers.length = archive.pentashields.length ∧
    ∀ number shield, (number, shield) ∈ numbers.zip archive.pentashields →
      ∀ source placeable, (source, placeable) ∈ sources.zip archive.placeables →
        (shield.placeableId = placeable.id ↔ ∃ named : Nat, source = some named ∧ number = named)

/-- No pentashield's number is, moved as the ids are, among the vacant ones that the placeables without
an id use up. -/
def Unattached (payload : Value F) : Prop :=
  ∀ sources numbers, rt.placeableSources payload = .ok sources →
    rt.shieldSources payload = .ok numbers → ∀ number ∈ numbers, ∀ id : Nat,
      number + offset sources = id → Vacant (namedBy sources) id →
        sources.count none ≤ Nat.count (Vacant (namedBy sources)) id

variable {rt} {payload fallbackName : Value F} {archive : Archive F}

theorem resolved_sources {rows : List (Value F)} {name key label : String} {α : Type}
    {ids : List Nat} {mapping : List (Nat × Nat)} {step : Value F × Nat → Result α} {results : List α}
    {idOf : α → Nat} (read : rowsOf (payload.get name) name = .ok rows)
    (resolved : resolveIds rt.toRuntime rows key label = .ok (ids, mapping))
    (each : ∀ row result, step row = .ok result → idOf result = row.2)
    (done : (rows.zip ids).mapM step = .ok results) :
    ∃ sources, rt.sourcesIn payload name key label = .ok sources ∧ (sources.filterMap id).Nodup ∧
      Assigned (namedBy sources) (offset sources) 0 sources (results.map idOf) ∧
      mapping = mappingOf sources := by
  obtain ⟨sources, found, distinct, assigned, same⟩ := resolve_ok resolved
  refine ⟨sources, ?_, distinct, ?_, same⟩
  · rw [sourcesIn, read]
    exact found
  · rw [Attempts.mapM_map each done, map_snd_zip]
    · exact assigned
    · rw [assigned.length, Attempts.mapM_length found]

theorem instanceOf_id (row : Value F × Nat) (result : Instance F)
    (made : rt.instanceOf row = .ok result) : result.id = row.2 := by
  obtain ⟨_, -, made⟩ := result_bind.mp made
  obtain ⟨_, -, made⟩ := result_bind.mp made
  cases made
  rfl

theorem placeableOf_id (row : Value F × Nat) (result : Placeable F)
    (made : rt.placeableOf row = .ok result) : result.id = row.2 := by
  obtain ⟨_, -, made⟩ := result_bind.mp made
  obtain ⟨_, -, made⟩ := result_bind.mp made
  cases made
  rfl

theorem pentashieldOf_source (mapping : List (Nat × Nat)) (row : Value F) (result : Pentashield)
    (made : rt.pentashieldOf mapping row = .ok result) :
    ∃ source, rt.shieldSource row = .ok source ∧ result.placeableId = target mapping source := by
  unfold pentashieldOf at made
  split at made
  · obtain ⟨_, -, made⟩ := result_bind.mp made
    obtain ⟨source, found, made⟩ := result_bind.mp made
    cases made
    exact ⟨source, found, rfl⟩
  · cases made

/-- The steps of an accepted check. -/
theorem validate_parts (accepted : rt.validateArchive payload fallbackName = .ok archive) :
    ∃ instances placeables pentashields instanceIds placeableIds other mapping,
      rowsOf (payload.get "instances") "instances" = .ok instances ∧
      rowsOf (payload.get "placeables") "placeables" = .ok placeables ∧
      rowsOf (payload.get "pentashields") "pentashields" = .ok pentashields ∧
      checkCounts instances placeables pentashields = .ok () ∧
      resolveIds rt.toRuntime instances "instance_id" "instance" = .ok (instanceIds, other) ∧
      resolveIds rt.toRuntime placeables "placeable_id" "placeable" = .ok (placeableIds, mapping) ∧
      (instances.zip instanceIds).mapM rt.instanceOf = .ok archive.instances ∧
      (placeables.zip placeableIds).mapM rt.placeableOf = .ok archive.placeables ∧
      pentashields.mapM (rt.pentashieldOf mapping) = .ok archive.pentashields ∧
      archive.name = rt.nameOf (rt.rawName payload fallbackName archive.instances) := by
  obtain ⟨-, accepted⟩ := result_refuse.mp accepted
  obtain ⟨instances, readInstances, accepted⟩ := result_bind.mp accepted
  obtain ⟨placeables, readPlaceables, accepted⟩ := result_bind.mp accepted
  obtain ⟨pentashields, readPentashields, accepted⟩ := result_bind.mp accepted
  obtain ⟨⟨⟩, counted, accepted⟩ := result_bind.mp accepted
  obtain ⟨⟨instanceIds, other⟩, resolved, accepted⟩ := result_bind.mp accepted
  obtain ⟨⟨placeableIds, mapping⟩, placed, accepted⟩ := result_bind.mp accepted
  obtain ⟨_, made, accepted⟩ := result_bind.mp accepted
  obtain ⟨_, stood, accepted⟩ := result_bind.mp accepted
  obtain ⟨_, shielded, accepted⟩ := result_bind.mp accepted
  obtain rfl := Except.ok.inj accepted
  exact ⟨instances, placeables, pentashields, instanceIds, placeableIds, other, mapping, readInstances,
    readPlaceables, readPentashields, counted, resolved, placed, made, stood, shielded, rfl⟩

theorem validate_ok (accepted : rt.validateArchive payload fallbackName = .ok archive) :
    ∃ first sources numbers, rt.sourcesIn payload "instances" "instance_id" "instance" = .ok first ∧
      rt.placeableSources payload = .ok sources ∧ rt.shieldSources payload = .ok numbers ∧
      Numbered first (archive.instances.map Instance.id) ∧ (sources.filterMap id).Nodup ∧
      Assigned (namedBy sources) (offset sources) 0 sources (archive.placeables.map Placeable.id) ∧
      archive.pentashields.map Pentashield.placeableId = numbers.map (· + (offset sources : Int)) := by
  obtain ⟨instances, placeables, pentashields, instanceIds, placeableIds, other, mapping, readInstances,
    readPlaceables, readPentashields, -, resolved, placed, made, stood, shielded, -⟩ :=
    validate_parts accepted
  obtain ⟨first, foundFirst, distinctFirst, assignedFirst, -⟩ :=
    resolved_sources readInstances resolved instanceOf_id made
  obtain ⟨sources, found, distinct, assigned, rfl⟩ :=
    resolved_sources readPlaceables placed placeableOf_id stood
  obtain ⟨numbers, read, same⟩ :=
    Attempts.mapM_through rt.shieldSource (target _) (pentashieldOf_source _) shielded
  refine ⟨first, sources, numbers, foundFirst, found, ?_, assignedFirst.numbered distinctFirst, distinct, assigned, ?_⟩
  · rw [shieldSources, readPentashields]
    exact read
  · rw [same]
    exact map_congr_left fun number _ => target_mapping sources number

/-- The ids always are those of the payload; whether the pentashields are attached to what they name
depends on the numbers that the placeables without an id get. -/
theorem resolution_faithful_iff (accepted : rt.validateArchive payload fallbackName = .ok archive) :
    rt.Faithful payload archive ↔ rt.Unattached payload := by
  obtain ⟨first, sources, numbers, foundFirst, found, read, numbered, distinct, assigned, targets⟩ :=
    validate_ok accepted
  have many : numbers.length = archive.pentashields.length := by
    rw [← length_map Pentashield.placeableId, targets, length_map]
  have target : ∀ number shield, (number, shield) ∈ numbers.zip archive.pentashields →
      shield.placeableId = number + offset sources := by
    intro number shield pair
    have mapped : (number, shield.placeableId) ∈ numbers.zip (numbers.map (· + (offset sources : Int))) := by
      rw [← targets, zip_map_right]
      exact mem_map.mpr ⟨_, pair, rfl⟩
    rw [← map_prod_left_eq_zip] at mapped
    obtain ⟨_, -, same⟩ := mem_map.mp mapped
    rw [← (Prod.mk.inj same).2, (Prod.mk.inj same).1]
  have row : ∀ source placeable, (source, placeable) ∈ sources.zip archive.placeables →
      (source, placeable.id) ∈ sources.zip (archive.placeables.map Placeable.id) := by
    intro source placeable pair
    rw [zip_map_right]
    exact mem_map.mpr ⟨_, pair, rfl⟩
  constructor
  · rintro ⟨_, _, _, -, foundAgain, readAgain, -, -, -, attached⟩ _ _ foundToo readToo number member id moved vacant
    cases Except.ok.inj (found.symm.trans foundAgain)
    cases Except.ok.inj (found.symm.trans foundToo)
    cases Except.ok.inj (read.symm.trans readAgain)
    cases Except.ok.inj (read.symm.trans readToo)
    by_contra few
    -- a placeable without an id has the number the pentashield is moved to
    have filled := assigned.filled vacant (Nat.zero_le _) (by omega)
    rw [zip_map_right] at filled
    obtain ⟨⟨_, placeable⟩, pair, same⟩ := mem_map.mp filled
    cases same
    have rows : (numbers.zip archive.pentashields).map Prod.fst = numbers := map_fst_zip many.le
    rw [← rows] at member
    obtain ⟨⟨_, shield⟩, there, rfl⟩ := mem_map.mp member
    obtain ⟨_, impossible, -⟩ := (attached _ shield there _ placeable pair).mp ((target _ shield there).trans moved)
    cases impossible
  · intro unattached
    refine ⟨first, sources, numbers, foundFirst, found, read, numbered, assigned.numbered distinct, many,
      fun number shield pair source placeable place => ?_⟩
    rw [target number shield pair]
    rcases assigned.pair (row source placeable place) with ⟨named, rfl, same⟩ | ⟨rfl, vacant, -, used⟩
    · rw [same]
      constructor
      · exact fun moved => ⟨named, rfl, by omega⟩
      · rintro ⟨_, same, rfl⟩
        cases same
        exact (Int.natCast_add ..).symm
    · refine iff_of_false (fun moved => ?_) (by simp)
      have room := unattached sources numbers found read number (of_mem_zip pair).1 placeable.id moved vacant
      omega

end Platform

def plain : Platform Int where
  toRuntime := wholeRuntime
  zero := 0
  floatOfInt := .ok
  floatOfNumeral _ := none
  supported _ := true
  structural _ := false
  isDigit := Char.isDigit
  zero_supported := rfl
  isDigit_digit _ digit := digit
  isDigit_open := rfl

/-- One placeable and one pentashield. -/
def pair (placeable : List (String × Value Int)) : Value Int :=
  .object [("placeables", .list [.object (("building_type", .str "Gate") :: placeable)]),
    ("pentashields", .list [.object [("placeable_id", .int 1), ("scale", .list [.int 1, .int 1, .int 1])]])]

def gate : Archive Int := ⟨"Imported Blueprint", [], [⟨1, "Gate", [0, 0, 0, 0, 0, 0]⟩], [⟨1, [1, 1, 1]⟩]⟩

theorem faithful_named : plain.Faithful (pair [("placeable_id", .int 1)]) gate ↔
    plain.Unattached (pair [("placeable_id", .int 1)]) :=
  Platform.resolution_faithful_iff (show plain.validateArchive (pair [("placeable_id", .int 1)]) .none = .ok gate by rfl)

theorem pentashield_attached_unnamed :
    plain.validateArchive (pair []) .none = .ok gate ∧ ¬ plain.Faithful (pair []) gate := by
  refine ⟨by rfl, ?_⟩
  rintro ⟨first, sources, numbers, -, found, read, -, -, -, attached⟩
  cases found
  cases read
  obtain ⟨_, impossible, -⟩ := (attached 1 ⟨1, [1, 1, 1]⟩ (by simp [gate]) none
    ⟨1, "Gate", [0, 0, 0, 0, 0, 0]⟩ (by simp [gate])).mp rfl
  cases impossible

end Dash.Blueprints
