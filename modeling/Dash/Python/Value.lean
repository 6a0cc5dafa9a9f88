import Dash.Python.DocumentText
import Dash.Python.Text
import Mathlib.Data.List.Sort
import Mathlib.Data.String.Basic

/-! Python values as `json` knows them, their conversions, `==` of them and what they raise; `json.dumps` with
sorted keys and compact separators, `json.loads`, and when encoding again what was read gives the same text.

Floats are a parameter: a `Runtime` says how they are written and read, and the operations on them
that modules call have no laws. Strings are sequences of Unicode scalar values. Keys are sorted as Python
objects and only then written as strings, so a second encoding, of string keys, sorts by another order when
the first one had keys of another type, and merges keys with one spelling.
-/

set_option autoImplicit false

namespace Dash.Python

inductive ExceptionType where
  | valueError | typeError | overflowError | attributeError | permissionError | runtimeError | jsonDecodeError
  | integrityError | interfaceError | keyError
  deriving DecidableEq, Repr

structure Exception where
  type : ExceptionType
  message : String
  deriving DecidableEq, Repr

abbrev Result (α : Type) : Type := Except Exception α

def valueError {α : Type} (message : String) : Result α := .error ⟨.valueError, message⟩

def typeError {α : Type} (message : String) : Result α := .error ⟨.typeError, message⟩

@[simp] theorem result_bind {α β : Type} {first : Result α} {next : α → Result β} {value : β} :
    (first >>= next) = .ok value ↔ ∃ middle, first = .ok middle ∧ next middle = .ok value := by
  cases first with
  | error why =>
    constructor
    · intro impossible
      cases impossible
    · rintro ⟨_, impossible, _⟩
      cases impossible
  | ok middle =>
    constructor
    · exact fun rest => ⟨middle, rfl, rest⟩
    · rintro ⟨_, same, rest⟩
      cases same
      exact rest

theorem result_bind_error {α β : Type} {first : Result α} {next : α → Result β} {why : Exception} :
    (first >>= next) = .error why ↔
      first = .error why ∨ ∃ value, first = .ok value ∧ next value = .error why := by
  cases first with
  | error other =>
    constructor
    · intro same
      cases same
      exact .inl rfl
    · rintro (same | ⟨_, impossible, _⟩)
      · cases same
        rfl
      · cases impossible
  | ok value =>
    constructor
    · exact fun rest => .inr ⟨value, rfl, rest⟩
    · rintro (impossible | ⟨_, same, rest⟩)
      · cases impossible
      · cases same
        exact rest

theorem result_guard {α : Type} {condition : Prop} [Decidable condition] {why : Exception} {rest : Result α} {value : α} :
    (if condition then .error why else rest) = .ok value ↔ ¬ condition ∧ rest = .ok value := by
  by_cases condition <;> simp_all

@[simp] theorem result_refuse {α : Type} {condition : Prop} [Decidable condition]
    {message : String} {rest : Result α} {value : α} :
    (if condition then valueError message else rest) = .ok value ↔
      ¬ condition ∧ rest = .ok value := result_guard

/-- The keys a dictionary may have to be written as JSON. -/
inductive Key (F : Type) where
  | none
  | bool (value : Bool)
  | int (value : Int)
  | float (value : F)
  | str (value : String)

inductive Value (F : Type) where
  | none
  | bool (value : Bool)
  | int (value : Int)
  | float (value : F)
  | str (value : String)
  | list (items : List (Value F))
  | dict (entries : List (Key F × Value F))

/-- What the interpreter does that nothing here depends on, and the one law of
float literals that does matter: reading what `repr` wrote gives it back. -/
structure Runtime (F : Type) where
  floatText : F → FloatText
  floatOf : FloatText → F
  floatOf_text : ∀ value, floatOf (floatText value) = value
  /-- `bool(x)` of a float. -/
  nonzero : F → Bool
  /-- `int(x)` of a float; NaN and the infinities raise. -/
  intOfFloat : F → Result Int
  /-- `int(text)`; `none` raises. -/
  intOfText : String → Option Int
  /-- The order of numbers as dictionary keys. -/
  numberLe : Key F → Key F → Bool
  /-- `repr` of a string. -/
  quoted : String → String
  lower : String → String
  upper : String → String

variable {F : Type}

namespace Value

def object (fields : List (String × Value F)) : Value F :=
  .dict (fields.map fun field => (.str field.1, field.2))

def isDict : Value F → Bool
  | .dict _ => true
  | _ => false

def isNone : Value F → Bool
  | .none => true
  | _ => false

/-- `value in (None, "")` -/
def isBlank : Value F → Bool
  | .none => true
  | .str text => text = ""
  | _ => false

def ofOption (text : Option String) : Value F :=
  match text with
  | some text => .str text
  | Option.none => .none

end Value

def Key.named (name : String) : Key F → Bool
  | .str key => key = name
  | _ => false

/-- `value.get(name)`; a value that is no dictionary has no entries. -/
def Value.get? (value : Value F) (name : String) : Option (Value F) :=
  match value with
  | .dict entries => (entries.find? fun entry => entry.1.named name).map Prod.snd
  | _ => Option.none

def Value.get (value : Value F) (name : String) : Value F := (value.get? name).getD .none

/-- `value.get(name, other)` -/
def getOr (value : Value F) (name : String) (other : Value F) : Value F :=
  (value.get? name).getD other

def FloatText.repr : FloatText → String
  | .nan => "nan"
  | .infinity negative => if negative then "-inf" else "inf"
  | value => String.ofList value.text

namespace Runtime

variable (rt : Runtime F)

def keyRepr : Key F → String
  | .none => "None"
  | .bool value => if value then "True" else "False"
  | .int value => toString value
  | .float value => (rt.floatText value).repr
  | .str value => rt.quoted value

mutual
def repr : Value F → String
  | .none => "None"
  | .bool value => if value then "True" else "False"
  | .int value => toString value
  | .float value => (rt.floatText value).repr
  | .str value => rt.quoted value
  | .list items => "[" ++ (join ", " (reprItems items) ++ "]")
  | .dict entries => "\x7b" ++ (join ", " (reprEntries entries) ++ "\x7d")

def reprItems : List (Value F) → List String
  | [] => []
  | item :: rest => repr item :: reprItems rest

def reprEntries : List (Key F × Value F) → List String
  | [] => []
  | (key, item) :: rest => (rt.keyRepr key ++ ": " ++ repr item) :: reprEntries rest
end

/-- `str(value)` -/
def str : Value F → String
  | .str value => value
  | value => rt.repr value

/-- `bool(value)` -/
def truthy : Value F → Bool
  | .none => false
  | .bool value => value
  | .int value => value ≠ 0
  | .float value => rt.nonzero value
  | .str value => value ≠ ""
  | .list items => !items.isEmpty
  | .dict entries => !entries.isEmpty

/-- `value or other` -/
def orElse (value other : Value F) : Value F := if rt.truthy value then value else other

/-- `int(value)` -/
def int : Value F → Result Int
  | .int value => .ok value
  | .bool value => .ok (if value then 1 else 0)
  | .float value => rt.intOfFloat value
  | .str value =>
    match rt.intOfText value with
    | some number => .ok number
    | none => valueError ("invalid literal for int() with base 10: " ++ rt.quoted value)
  | .none => typeError "int() argument must be a string or a real number, not 'NoneType'"
  | .list _ => typeError "int() argument must be a string or a real number, not 'list'"
  | .dict _ => typeError "int() argument must be a string or a real number, not 'dict'"

end Runtime

structure FloatOps (F : Type) where
  ofInt : Int → F
  /-- `float(text)`; `none` raises. -/
  ofText : String → Option F
  less : F → F → Bool
  lessEq : F → F → Bool
  sub : F → F → F
  mul : F → F → F
  div : F → F → F
  sum : List F → F
  /-- `x ** 2`; a result out of range raises. -/
  square : F → Result F
  /-- `x ** 0.5` -/
  root : F → F
  /-- `round(x)`; NaN and the infinities raise. -/
  round : F → Result Int

namespace FloatOps

variable (ops : FloatOps F)

/-- `min(first, second)` keeps the first unless the second is less. -/
def min (first second : F) : F := if ops.less second first then second else first

def max (first second : F) : F := if ops.less first second then second else first

end FloatOps

structure Equality (F : Type) where
  sameFloat : F → F → Bool
  /-- The float is equal to the integer. -/
  floatIs : F → Int → Bool

namespace Equality

variable (eq : Equality F)

def truth (value : Bool) : Int := if value then 1 else 0

def sameKey : Key F → Key F → Bool
  | .none, .none => true
  | .str first, .str second => first = second
  | .bool first, .bool second => first = second
  | .int first, .int second => first = second
  | .float first, .float second => eq.sameFloat first second
  | .bool first, .int second | .int second, .bool first => truth first = second
  | .bool first, .float second | .float second, .bool first => eq.floatIs second (truth first)
  | .int first, .float second | .float second, .int first => eq.floatIs second first
  | _, _ => false

mutual
def same : Value F → Value F → Bool
  | .none, .none => true
  | .str first, .str second => first = second
  | .bool first, .bool second => first = second
  | .int first, .int second => first = second
  | .float first, .float second => eq.sameFloat first second
  | .bool first, .int second | .int second, .bool first => truth first = second
  | .bool first, .float second | .float second, .bool first => eq.floatIs second (truth first)
  | .int first, .float second | .float second, .int first => eq.floatIs second first
  | .list first, .list second => sameItems first second
  | .dict first, .dict second => decide (first.length = second.length) && sameEntries first second
  | _, _ => false

def sameItems : List (Value F) → List (Value F) → Bool
  | [], [] => true
  | first :: rest, second :: others => same first second && sameItems rest others
  | _, _ => false

def sameEntries : List (Key F × Value F) → List (Key F × Value F) → Bool
  | [], _ => true
  | (key, first) :: rest, others =>
    (match others.find? fun entry => eq.sameKey key entry.1 with
    | some entry => same first entry.2
    | none => false) && sameEntries rest others
end

end Equality

def Key.isStr : Key F → Bool
  | .str _ => true
  | _ => false

def Key.isNumber : Key F → Bool
  | .bool _ => true
  | .int _ => true
  | .float _ => true
  | _ => false

/-- Whether `sorted` can compare the keys with each other. -/
def sortable (keys : List (Key F)) : Bool :=
  decide (keys.length ≤ 1) || keys.all Key.isStr || keys.all Key.isNumber

def insertEntry (entries : List (Key F × Value F)) (pair : String × Value F) : List (Key F × Value F) :=
  if entries.any fun entry => entry.1.named pair.1 then
    entries.map fun entry => if entry.1.named pair.1 then (entry.1, pair.2) else entry
  else entries ++ [(.str pair.1, pair.2)]

def dictOf (pairs : List (String × Value F)) : List (Key F × Value F) :=
  pairs.foldl insertEntry []

namespace Runtime

variable (rt : Runtime F)

def keyText : Key F → String
  | .none => "null"
  | .bool value => if value then "true" else "false"
  | .int value => toString value
  | .float value => String.ofList (rt.floatText value).text
  | .str value => value

def keyLe : Key F → Key F → Bool
  | .str first, .str second => decide (first ≤ second)
  | first, second => rt.numberLe first second

def sortEntries {α : Type} (entries : List (Key F × α)) : List (Key F × α) :=
  entries.insertionSort fun first second => rt.keyLe first.1 second.1 = true

mutual
/-- The document `json.dumps` writes with `sort_keys`. -/
def jsonable : Value F → Result Document
  | .none => .ok .null
  | .bool value => .ok (.bool value)
  | .int value => .ok (.int value)
  | .float value => .ok (.float (rt.floatText value))
  | .str value => .ok (.str value)
  | .list items => (jsonables items).map .array
  | .dict entries =>
    if sortable (entries.map Prod.fst) then
      (jsonableEntries entries).map fun written =>
        .object ((rt.sortEntries written).map fun entry => (rt.keyText entry.1, entry.2))
    else typeError "'<' not supported between instances of the keys"

def jsonables : List (Value F) → Result (List Document)
  | [] => .ok []
  | item :: rest =>
    match jsonable item, jsonables rest with
    | .ok first, .ok others => .ok (first :: others)
    | .error why, _ => .error why
    | _, .error why => .error why

def jsonableEntries : List (Key F × Value F) → Result (List (Key F × Document))
  | [] => .ok []
  | (key, item) :: rest =>
    match jsonable item, jsonableEntries rest with
    | .ok first, .ok others => .ok ((key, first) :: others)
    | .error why, _ => .error why
    | _, .error why => .error why
end

mutual
def ofDocument : Document → Value F
  | .null => .none
  | .bool value => .bool value
  | .int value => .int value
  | .float value => .float (rt.floatOf value)
  | .str value => .str value
  | .array items => .list (ofItems items)
  | .object members => .dict (dictOf (ofMembers members))

def ofItems : List Document → List (Value F)
  | [] => []
  | item :: rest => ofDocument item :: ofItems rest

def ofMembers : List (String × Document) → List (String × Value F)
  | [] => []
  | (name, item) :: rest => (name, ofDocument item) :: ofMembers rest
end

/-- `json.dumps(value, sort_keys=True, separators=(",", ":"), ensure_ascii=ascii)` -/
def dumps (ascii : Bool) (value : Value F) : Result String :=
  (rt.jsonable value).map fun document => String.ofList (document.text ascii)

/-- `json.loads(text)` -/
def loads (text : String) : Result (Value F) :=
  match parse text.toList with
  | some document => .ok (rt.ofDocument document)
  | none => .error ⟨.jsonDecodeError, "invalid JSON"⟩

theorem jsonable_object {fields : List (String × Value F)}
    (written : ∀ field ∈ fields, ∃ document, rt.jsonable field.2 = .ok document) :
    ∃ document, rt.jsonable (.object fields) = .ok document := by
  have entries : ∃ members, rt.jsonableEntries (fields.map fun field => (Key.str field.1, field.2)) = .ok members := by
    induction fields with
    | nil => exact ⟨[], rfl⟩
    | cons field rest ih =>
      obtain ⟨first, one⟩ := written field List.mem_cons_self
      obtain ⟨others, more⟩ := ih fun other member => written other (List.mem_cons_of_mem _ member)
      exact ⟨_, by rw [List.map_cons, jsonableEntries, one, more]⟩
  obtain ⟨members, encoded⟩ := entries
  have named : sortable ((fields.map fun field => ((Key.str field.1 : Key F), field.2)).map Prod.fst) = true := by
    simp [sortable, Key.isStr]
  simp only [Value.object, jsonable, if_pos named, encoded]
  exact ⟨_, rfl⟩

variable {ascii : Bool} {value : Value F} {text : String}

theorem dumps_ok : rt.dumps ascii value = .ok text ↔ ∃ document, rt.jsonable value = .ok document ∧
        text = String.ofList (document.text ascii) := by
  unfold dumps
  cases rt.jsonable value with
  | error why => simp [Except.map]
  | ok document => simp [Except.map, eq_comm]

mutual
/-- A value that cannot be written is one of the wrong type. -/
theorem jsonable_error : ∀ {value : Value F} {why : Exception}, rt.jsonable value = .error why → why.type = .typeError
  | .none, _, failed => nomatch failed
  | .bool _, _, failed => nomatch failed
  | .int _, _, failed => nomatch failed
  | .float _, _, failed => nomatch failed
  | .str _, _, failed => nomatch failed
  | .list items, why, failed => by
    rw [jsonable] at failed
    cases written : rt.jsonables items with
    | ok documents => simp [written, Except.map] at failed
    | error other =>
      obtain rfl : other = why := by simpa [written, Except.map] using failed
      exact jsonables_error written
  | .dict entries, why, failed => by
    rw [jsonable] at failed
    split at failed
    next =>
      cases written : rt.jsonableEntries entries with
      | ok documents => simp [written, Except.map] at failed
      | error other =>
        obtain rfl : other = why := by simpa [written, Except.map] using failed
        exact jsonableEntries_error written
    next =>
      cases failed
      rfl

theorem jsonables_error : ∀ {items : List (Value F)} {why : Exception},
    rt.jsonables items = .error why → why.type = .typeError
  | [], _, failed => nomatch failed
  | item :: rest, why, failed => by
    rw [jsonables] at failed
    split at failed
    next => cases failed
    next other first =>
      cases failed
      exact jsonable_error first
    next other later _ =>
      cases failed
      exact jsonables_error later

theorem jsonableEntries_error : ∀ {entries : List (Key F × Value F)} {why : Exception},
    rt.jsonableEntries entries = .error why → why.type = .typeError
  | [], _, failed => nomatch failed
  | (key, item) :: rest, why, failed => by
    rw [jsonableEntries] at failed
    split at failed
    next => cases failed
    next other first =>
      cases failed
      exact jsonable_error first
    next other later _ =>
      cases failed
      exact jsonableEntries_error later
end

theorem dumps_error {why : Exception} (failed : rt.dumps ascii value = .error why) : why.type = .typeError := by
  unfold dumps at failed
  cases written : rt.jsonable value with
  | ok document => simp [written, Except.map] at failed
  | error other =>
    obtain rfl : other = why := by simpa [written, Except.map] using failed
    exact rt.jsonable_error written

theorem loads_error {why : Exception} (failed : rt.loads text = .error why) : why.type = .jsonDecodeError := by
  unfold loads at failed
  split at failed
  next => cases failed
  next =>
    cases failed
    rfl

theorem loads_text (ascii : Bool) (document : Document) :
    rt.loads (String.ofList (document.text ascii)) = .ok (rt.ofDocument document) := by
  simp [loads, parse_text]

theorem loads_dumps (written : rt.dumps ascii value = .ok text) :
    ∃ document, rt.jsonable value = .ok document ∧ rt.loads text = .ok (rt.ofDocument document) := by
  obtain ⟨document, encoded, rfl⟩ := (rt.dumps_ok).mp written
  exact ⟨document, encoded, rt.loads_text ascii document⟩

theorem ofList_text_injective (ascii : Bool) {first second : Document}
    (same : String.ofList (first.text ascii) = String.ofList (second.text ascii)) :
    first = second := by
  have texts := congrArg String.toList same
  simp only [String.toList_ofList] at texts
  exact text_injective ascii texts

end Runtime

end Dash.Python
