import Mathlib.Data.List.TakeWhile

/-! JSON documents, the text `json.dumps` writes for them and the scanner of
`json.loads`.

A document keeps its members in the order they are written and may repeat a
name, as a text may. Text is a list of characters; a character is a Unicode
scalar value, so an escape that spells a lone surrogate is not scanned.
-/

set_option autoImplicit false

namespace Dash.Python

def Digits : Type := { digits : List Char // digits ≠ [] ∧ ∀ digit ∈ digits, digit.isDigit = true }

instance : DecidableEq Digits := inferInstanceAs (DecidableEq (Subtype _))

structure Exponent where
  negative : Bool
  digits : Digits
  deriving DecidableEq

inductive Mark where
  | fraction (digits : Digits)
  | exponent (power : Exponent)
  | both (digits : Digits) (power : Exponent)
  deriving DecidableEq

/-- A float as `float.__repr__` and the JSON constants write it. -/
inductive FloatText where
  | nan
  | infinity (negative : Bool)
  | decimal (negative : Bool) (whole : Nat) (mark : Mark)
  deriving DecidableEq

inductive Document where
  | null
  | bool (value : Bool)
  | int (value : Int)
  | float (value : FloatText)
  | str (value : String)
  | array (items : List Document)
  | object (members : List (String × Document))

def signText (negative : Bool) : List Char := if negative then ['-'] else []

def Exponent.text (power : Exponent) : List Char :=
  'e' :: (if power.negative then '-' else '+') :: power.digits.val

def Mark.text : Mark → List Char
  | .fraction digits => '.' :: digits.val
  | .exponent power => power.text
  | .both digits power => '.' :: (digits.val ++ power.text)

def FloatText.text : FloatText → List Char
  | .nan => ['N', 'a', 'N']
  | .infinity negative => signText negative ++ ['I', 'n', 'f', 'i', 'n', 'i', 't', 'y']
  | .decimal negative whole mark => signText negative ++ (Nat.toDigits 10 whole ++ mark.text)

def intText (value : Int) : List Char :=
  signText (decide (value < 0)) ++ Nat.toDigits 10 value.natAbs

def hexText (unit : Nat) : List Char :=
  [Nat.digitChar (unit / 4096 % 16), Nat.digitChar (unit / 256 % 16),
    Nat.digitChar (unit / 16 % 16), Nat.digitChar (unit % 16)]

def unicodeEscape (unit : Nat) : List Char := '\\' :: 'u' :: hexText unit

def shortEscapes : List (Char × Char) :=
  [('"', '"'), ('\\', '\\'), ('\n', 'n'), ('\r', 'r'), ('\t', 't'), (Char.ofNat 12, 'f'), (Char.ofNat 8, 'b')]

def letterOf (char : Char) : Option Char :=
  (shortEscapes.find? fun entry => entry.1 = char).map Prod.snd

/-- One character of a string; `ascii` is the `ensure_ascii` option. -/
def escape (ascii : Bool) (char : Char) : List Char :=
  match letterOf char with
  | some letter => ['\\', letter]
  | none =>
    if char.toNat < 32 then unicodeEscape char.toNat
    else if ascii && decide (126 < char.toNat) then
      if char.toNat < 65536 then unicodeEscape char.toNat
      else unicodeEscape (55296 + (char.toNat - 65536) / 1024) ++
        unicodeEscape (56320 + (char.toNat - 65536) % 1024)
    else [char]

def escapeAll (ascii : Bool) : List Char → List Char
  | [] => []
  | char :: rest => escape ascii char ++ escapeAll ascii rest

def quote (ascii : Bool) (value : String) : List Char :=
  '"' :: (escapeAll ascii value.toList ++ ['"'])

mutual
/-- The compact text: separators "," and ":" with no blanks. -/
def Document.text (ascii : Bool) : Document → List Char
  | .null => ['n', 'u', 'l', 'l']
  | .bool true => ['t', 'r', 'u', 'e']
  | .bool false => ['f', 'a', 'l', 's', 'e']
  | .int value => intText value
  | .float value => value.text
  | .str value => quote ascii value
  | .array [] => ['[', ']']
  | .array (first :: rest) => '[' :: (first.text ascii ++ itemsText ascii rest)
  | .object [] => ['{', '}']
  | .object ((name, first) :: rest) =>
    '{' :: (quote ascii name ++ ':' :: (first.text ascii ++ membersText ascii rest))

def itemsText (ascii : Bool) : List Document → List Char
  | [] => [']']
  | item :: rest => ',' :: (item.text ascii ++ itemsText ascii rest)

def membersText (ascii : Bool) : List (String × Document) → List Char
  | [] => ['}']
  | (name, item) :: rest =>
    ',' :: (quote ascii name ++ ':' :: (item.text ascii ++ membersText ascii rest))
end

def isBlank (char : Char) : Bool := char = ' ' || char = '\t' || char = '\n' || char = '\r'

def skip (text : List Char) : List Char := text.dropWhile isBlank

def hexValue (char : Char) : Option Nat :=
  if '0' ≤ char ∧ char ≤ '9' then some (char.toNat - 48)
  else if 'a' ≤ char ∧ char ≤ 'f' then some (char.toNat - 87)
  else if 'A' ≤ char ∧ char ≤ 'F' then some (char.toNat - 55)
  else none

def scanHex : List Char → Option (Nat × List Char)
  | a :: b :: c :: d :: rest =>
    match hexValue a, hexValue b, hexValue c, hexValue d with
    | some a, some b, some c, some d => some (4096 * a + 256 * b + 16 * c + d, rest)
    | _, _, _, _ => none
  | _ => none

def isHigh (unit : Nat) : Bool := decide (55296 ≤ unit) && decide (unit < 56320)

def isLow (unit : Nat) : Bool := decide (56320 ≤ unit) && decide (unit < 57344)

def scanLow : List Char → Option (Nat × List Char)
  | '\\' :: 'u' :: rest =>
    match scanHex rest with
    | some (unit, rest) => if isLow unit then some (unit - 56320, rest) else none
    | none => none
  | _ => none

def scanUnicode (text : List Char) : Option (Char × List Char) :=
  match scanHex text with
  | none => none
  | some (unit, rest) =>
    if isHigh unit then
      match scanLow rest with
      | some (low, rest) => some (Char.ofNat (65536 + (unit - 55296) * 1024 + low), rest)
      | none => none
    else if isLow unit then none
    else some (Char.ofNat unit, rest)

/-- The scanner also knows `\/`, which is never written. -/
def charOf (letter : Char) : Option Char :=
  if letter = '/' then some '/'
  else (shortEscapes.find? fun entry => entry.2 = letter).map Prod.fst

def scanChar : List Char → Option (Char × List Char)
  | [] => none
  | char :: rest =>
    if char = '\\' then
      match rest with
      | [] => none
      | mark :: rest =>
        if mark = 'u' then scanUnicode rest else (charOf mark).map (·, rest)
    else if char.toNat < 32 then none
    else some (char, rest)

def scanChars : Nat → List Char → Option (List Char × List Char)
  | 0, _ => none
  | _ + 1, [] => none
  | fuel + 1, char :: rest =>
    if char = '"' then some ([], rest)
    else
      match scanChar (char :: rest) with
      | none => none
      | some (first, rest) => (scanChars fuel rest).map fun (more, rest) => (first :: more, rest)

def scanString (text : List Char) : Option (String × List Char) :=
  (scanChars text.length text).map fun (chars, rest) => (String.ofList chars, rest)

def scanDigits (text : List Char) : Option Digits × List Char :=
  if present : text.takeWhile Char.isDigit ≠ [] then
    (some ⟨text.takeWhile Char.isDigit, present, fun _ member => List.mem_takeWhile_imp member⟩,
      text.dropWhile Char.isDigit)
  else (none, text)

def scanSign : List Char → Bool × List Char
  | [] => (false, [])
  | head :: rest => if head = '-' then (true, rest) else (false, head :: rest)

/-- `0|[1-9][0-9]*` -/
def scanWhole : List Char → Option (Nat × List Char)
  | [] => none
  | head :: rest =>
    if head = '0' then some (0, rest)
    else
      match scanDigits (head :: rest) with
      | (some digits, rest) => some (Nat.ofDigitChars 10 digits.val 0, rest)
      | (none, _) => none

def scanFraction : List Char → Option Digits × List Char
  | [] => (none, [])
  | head :: rest =>
    if head = '.' then
      match scanDigits rest with
      | (some digits, rest) => (some digits, rest)
      | (none, _) => (none, head :: rest)
    else (none, head :: rest)

def scanPower : List Char → Bool × List Char
  | [] => (false, [])
  | head :: rest =>
    if head = '-' then (true, rest) else if head = '+' then (false, rest) else (false, head :: rest)

def scanExponent : List Char → Option Exponent × List Char
  | [] => (none, [])
  | mark :: rest =>
    if mark = 'e' ∨ mark = 'E' then
      match scanDigits (scanPower rest).2 with
      | (some digits, more) => (some ⟨(scanPower rest).1, digits⟩, more)
      | (none, _) => (none, mark :: rest)
    else (none, mark :: rest)

def number (negative : Bool) (whole : Nat) : Option Digits → Option Exponent → Document
  | none, none => .int (if negative then -(whole : Int) else whole)
  | some digits, none => .float (.decimal negative whole (.fraction digits))
  | none, some power => .float (.decimal negative whole (.exponent power))
  | some digits, some power => .float (.decimal negative whole (.both digits power))

def scanNumber (text : List Char) : Option (Document × List Char) :=
  match scanWhole (scanSign text).2 with
  | none => none
  | some (whole, rest) =>
    let fraction := scanFraction rest
    let exponent := scanExponent fraction.2
    some (number (scanSign text).1 whole fraction.1 exponent.1, exponent.2)

section
variable (scan : List Char → Option (Document × List Char))

def scanItems : Nat → List Char → Option (List Document × List Char)
  | 0, _ => none
  | fuel + 1, text =>
    match scan text with
    | none => none
    | some (item, rest) =>
      match skip rest with
      | ']' :: rest => some ([item], rest)
      | ',' :: rest => (scanItems fuel (skip rest)).map fun (items, rest) => (item :: items, rest)
      | _ => none

def scanMember : List Char → Option ((String × Document) × List Char)
  | '"' :: rest =>
    match scanString rest with
    | none => none
    | some (name, rest) =>
      match skip rest with
      | ':' :: rest => (scan (skip rest)).map fun (item, rest) => ((name, item), rest)
      | _ => none
  | _ => none

def scanMembers : Nat → List Char → Option (List (String × Document) × List Char)
  | 0, _ => none
  | fuel + 1, text =>
    match scanMember scan text with
    | none => none
    | some (member, rest) =>
      match skip rest with
      | '}' :: rest => some ([member], rest)
      | ',' :: rest =>
        (scanMembers fuel (skip rest)).map fun (members, rest) => (member :: members, rest)
      | _ => none

def scanArray (fuel : Nat) : List Char → Option (Document × List Char)
  | [] => none
  | head :: rest =>
    if head = ']' then some (.array [], rest)
    else (scanItems scan fuel (head :: rest)).map fun (items, rest) => (.array items, rest)

def scanObject (fuel : Nat) : List Char → Option (Document × List Char)
  | [] => none
  | head :: rest =>
    if head = '}' then some (.object [], rest)
    else (scanMembers scan fuel (head :: rest)).map fun (members, rest) => (.object members, rest)
end

def scanWord (letters : List Char) (document : Document) (text : List Char) : Option (Document × List Char) :=
  if letters.isPrefixOf text then some (document, text.drop letters.length) else none

def scanScalar : List Char → Option (Document × List Char)
  | [] => none
  | head :: rest =>
    if head = 'n' then scanWord ['u', 'l', 'l'] .null rest
    else if head = 't' then scanWord ['r', 'u', 'e'] (.bool true) rest
    else if head = 'f' then scanWord ['a', 'l', 's', 'e'] (.bool false) rest
    else if head = 'N' then scanWord ['a', 'N'] (.float .nan) rest
    else if head = 'I' then
      scanWord ['n', 'f', 'i', 'n', 'i', 't', 'y'] (.float (.infinity false)) rest
    else if head = '-' ∧ ['I'].isPrefixOf rest = true then
      scanWord ['I', 'n', 'f', 'i', 'n', 'i', 't', 'y'] (.float (.infinity true)) rest
    else scanNumber (head :: rest)

def scanDocument : Nat → List Char → Option (Document × List Char)
  | 0, _ => none
  | _ + 1, [] => none
  | fuel + 1, char :: rest =>
    if char = '"' then (scanString rest).map fun (value, rest) => (.str value, rest)
    else if char = '[' then scanArray (scanDocument fuel) fuel (skip rest)
    else if char = '{' then scanObject (scanDocument fuel) fuel (skip rest)
    else scanScalar (char :: rest)

def parse (text : List Char) : Option Document :=
  match scanDocument text.length (skip text) with
  | some (document, rest) => if skip rest = [] then some document else none
  | none => none

example : (parse "\x7b\"b\":[1,-2.50e3],\"a\":\"x\\u00e9\"\x7d ".toList).map (Document.text false) =
    some "\x7b\"b\":[1,-2.50e+3],\"a\":\"xé\"\x7d".toList := by decide

end Dash.Python
