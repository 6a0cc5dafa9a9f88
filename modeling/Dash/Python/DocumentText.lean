import Dash.Python.Document

/-! The scanner reads back what was written.

`parse_text` is the round trip; `text_injective` follows, so two documents with
the same text are the same document whichever `ensure_ascii` option wrote it.
-/

set_option autoImplicit false

namespace Dash.Python

open List
open Option (map_some)

theorem hexValue_digitChar {digit : Nat} (small : digit < 16) : hexValue (Nat.digitChar digit) = some digit := by
  have all : ∀ digit : Fin 16, hexValue (Nat.digitChar digit) = some digit.val := by decide
  exact all ⟨digit, small⟩

theorem scanHex_hexText {unit : Nat} (small : unit < 65536) (rest : List Char) :
    scanHex (hexText unit ++ rest) = some (unit, rest) := by
  have value : 4096 * (unit / 4096 % 16) + 256 * (unit / 256 % 16) +
      16 * (unit / 16 % 16) + unit % 16 = unit := by omega
  simp [hexText, scanHex, hexValue_digitChar (Nat.mod_lt _ (by decide : 0 < 16)), value]

theorem toNat_scalar (char : Char) : char.toNat < 55296 ∨ (57343 < char.toNat ∧ char.toNat < 1114112) := char.valid

variable {char : Char}

theorem scanUnicode_escape (basic : char.toNat < 65536) (rest : List Char) :
    scanUnicode (hexText char.toNat ++ rest) = some (char, rest) := by
  have scalar := toNat_scalar char
  have high : isHigh char.toNat = false := by
    simp only [isHigh, Bool.and_eq_false_iff, decide_eq_false_iff_not]; omega
  have low : isLow char.toNat = false := by
    simp only [isLow, Bool.and_eq_false_iff, decide_eq_false_iff_not]; omega
  simp [scanUnicode, scanHex_hexText basic, high, low, Char.ofNat_toNat]

theorem scanUnicode_pair {high low : Nat} (highSmall : high < 1024) (lowSmall : low < 1024) (rest : List Char) :
    scanUnicode (hexText (55296 + high) ++ (unicodeEscape (56320 + low) ++ rest)) =
      some (Char.ofNat (65536 + high * 1024 + low), rest) := by
  have highUnit : isHigh (55296 + high) = true := by
    simp only [isHigh, Bool.and_eq_true, decide_eq_true_eq]; omega
  have lowUnit : isLow (56320 + low) = true := by
    simp only [isLow, Bool.and_eq_true, decide_eq_true_eq]; omega
  have first := scanHex_hexText (show 55296 + high < 65536 by omega) (unicodeEscape (56320 + low) ++ rest)
  have second := scanHex_hexText (show 56320 + low < 65536 by omega) rest
  have lowScanned : scanLow (unicodeEscape (56320 + low) ++ rest) = some (low, rest) := by
    simp [unicodeEscape, scanLow, second, lowUnit, Nat.add_sub_cancel_left]
  simp [scanUnicode, first, highUnit, lowScanned, Nat.add_sub_cancel_left]

variable {rest : List Char}

theorem scanChar_unicode {unit : Nat} :
    scanChar (unicodeEscape unit ++ rest) = scanUnicode (hexText unit ++ rest) := rfl

theorem shortEscapes_scanned : ∀ entry ∈ shortEscapes, entry.2 ≠ 'u' ∧ charOf entry.2 = some entry.1 := by decide

theorem letterOf_some {char letter : Char} (found : letterOf char = some letter) :
    letter ≠ 'u' ∧ charOf letter = some char := by
  obtain ⟨entry, lookup, rfl⟩ := Option.map_eq_some_iff.mp found
  have same : entry.1 = char := by simpa using List.find?_some lookup
  exact same ▸ shortEscapes_scanned entry (List.mem_of_find?_eq_some lookup)

theorem letterOf_none (missing : letterOf char = none) : char ≠ '"' ∧ char ≠ '\\' := by
  constructor <;> (rintro rfl; exact absurd missing (by decide))

variable (ascii : Bool)

theorem scanChar_escape (char : Char) (rest : List Char) :
    scanChar (escape ascii char ++ rest) = some (char, rest) := by
  unfold escape
  cases found : letterOf char with
  | some letter =>
    obtain ⟨unicode, scanned⟩ := letterOf_some found
    simp [scanChar, unicode, scanned]
  | none =>
    dsimp only
    by_cases control : char.toNat < 32
    · rw [if_pos control, scanChar_unicode]
      exact scanUnicode_escape (by omega) rest
    by_cases wide : (ascii && decide (126 < char.toNat)) = true
    · rw [if_neg control, if_pos wide]
      by_cases basic : char.toNat < 65536
      · rw [if_pos basic, scanChar_unicode]
        exact scanUnicode_escape basic rest
      · have scalar := toNat_scalar char
        have value : 65536 + (char.toNat - 65536) / 1024 * 1024 + (char.toNat - 65536) % 1024 =
            char.toNat := by omega
        rw [if_neg basic, append_assoc, scanChar_unicode,
          scanUnicode_pair (by omega) (by omega), value, Char.ofNat_toNat]
    · rw [if_neg control, if_neg wide]
      simp [scanChar, (letterOf_none found).2, control]

theorem escape_head (char : Char) : ∃ head tail, escape ascii char = head :: tail ∧ head ≠ '"' := by
  have backslash : ('\\' : Char) ≠ '"' := by decide
  unfold escape
  cases found : letterOf char with
  | some letter => exact ⟨'\\', [letter], rfl, backslash⟩
  | none =>
    dsimp only
    by_cases control : char.toNat < 32
    · exact ⟨'\\', _, if_pos control, backslash⟩
    rw [if_neg control]
    by_cases wide : (ascii && decide (126 < char.toNat)) = true
    · rw [if_pos wide]
      by_cases basic : char.toNat < 65536
      · exact ⟨'\\', _, if_pos basic, backslash⟩
      · exact ⟨'\\', _, if_neg basic, backslash⟩
    · exact ⟨char, [], if_neg wide, (letterOf_none found).1⟩

theorem scanChars_escapeAll (chars rest : List Char) (fuel : Nat) (enough : chars.length < fuel) :
    scanChars fuel (escapeAll ascii chars ++ '"' :: rest) = some (chars, rest) := by
  induction chars generalizing fuel with
  | nil =>
    obtain ⟨fuel, rfl⟩ := Nat.exists_eq_add_one_of_ne_zero (Nat.ne_of_gt enough)
    rfl
  | cons char chars ih =>
    obtain ⟨fuel, rfl⟩ := Nat.exists_eq_add_one_of_ne_zero (Nat.ne_of_gt (Nat.zero_lt_of_lt enough))
    have shorter : chars.length < fuel := by simpa using enough
    obtain ⟨head, tail, shape, open_⟩ := escape_head ascii char
    have scanned := scanChar_escape ascii char (escapeAll ascii chars ++ '"' :: rest)
    rw [shape, cons_append] at scanned
    simp [escapeAll, shape, scanChars, open_, scanned, ih fuel shorter]

theorem length_escape (char : Char) : 1 ≤ (escape ascii char).length := by
  obtain ⟨head, tail, shape, -⟩ := escape_head ascii char
  simp [shape]

theorem length_escapeAll (chars : List Char) : chars.length ≤ (escapeAll ascii chars).length := by
  induction chars with
  | nil => simp [escapeAll]
  | cons char chars ih =>
    have := length_escape ascii char
    simp only [escapeAll, length_append, length_cons]
    omega

theorem scanString_quote (value : String) (rest : List Char) :
    scanString (escapeAll ascii value.toList ++ '"' :: rest) = some (value, rest) := by
  have enough : value.toList.length < (escapeAll ascii value.toList ++ '"' :: rest).length := by
    have := length_escapeAll ascii value.toList
    simp only [length_append, length_cons]
    omega
  simp only [scanString, scanChars_escapeAll ascii value.toList rest _ enough, map_some, String.ofList_toList]

theorem quote_append (value : String) (rest : List Char) :
    quote ascii value ++ rest = '"' :: (escapeAll ascii value.toList ++ '"' :: rest) := by
  simp [quote]

def Stops (rest : List Char) : Prop :=
  ∀ char ∈ rest.head?, char.isDigit = false ∧ char ≠ '.' ∧ char ≠ 'e' ∧ char ≠ 'E'

def NoDigit (rest : List Char) : Prop := ∀ char ∈ rest.head?, char.isDigit = false

theorem Stops.noDigit (stops : Stops rest) : NoDigit rest :=
  fun char member => (stops char member).1

theorem noDigit_cons (other : char.isDigit = false) : NoDigit (char :: rest) := by
  intro first member
  cases Option.some.inj member
  exact other

theorem scanDigits_append (digits : Digits) (stops : NoDigit rest) :
    scanDigits (digits.val ++ rest) = (some digits, rest) := by
  obtain ⟨digits, present, numeric⟩ := digits
  have stop : rest.takeWhile Char.isDigit = [] ∧ rest.dropWhile Char.isDigit = rest := by
    cases rest with
    | nil => exact ⟨rfl, rfl⟩
    | cons char rest => simp [stops char rfl]
  have taken : (digits ++ rest).takeWhile Char.isDigit = digits := by
    rw [takeWhile_append_of_pos numeric, stop.1, append_nil]
  have dropped : (digits ++ rest).dropWhile Char.isDigit = rest := by
    rw [dropWhile_append_of_pos numeric, stop.2]
  simp only [scanDigits, taken, dropped, present, ne_eq, not_false_eq_true, dite_true]

def wholeDigits (whole : Nat) : Digits :=
  ⟨Nat.toDigits 10 whole, Nat.toDigits_ne_nil,
    fun _ member => Nat.isDigit_of_mem_toDigits (by decide) (by decide) member⟩

theorem toDigits_head (whole : Nat) : ∃ head tail, Nat.toDigits 10 whole = head :: tail ∧ head.isDigit = true ∧
      (head = '0' → whole = 0 ∧ tail = []) := by
  induction whole using Nat.strong_induction_on with
  | h whole ih =>
    by_cases small : whole < 10
    · refine ⟨whole.digitChar, [], Nat.toDigits_of_lt_base small, ?_, ?_⟩
      · exact (wholeDigits whole).property.2 _ (by simp [wholeDigits, Nat.toDigits_of_lt_base small])
      · have all : ∀ digit : Fin 10, digit.val.digitChar = '0' → digit.val = 0 := by decide
        exact fun zero => ⟨all ⟨whole, small⟩ zero, rfl⟩
    · obtain ⟨head, tail, shape, digit, leading⟩ := ih (whole / 10) (by omega)
      refine ⟨head, tail ++ [(whole % 10).digitChar], ?_, digit, ?_⟩
      · rw [Nat.toDigits_of_base_le (by decide) (by omega), shape, cons_append]
      · intro zero
        have := (leading zero).1
        omega

theorem scanWhole_toDigits (whole : Nat) (stops : NoDigit rest) :
    scanWhole (Nat.toDigits 10 whole ++ rest) = some (whole, rest) := by
  obtain ⟨head, tail, shape, -, leading⟩ := toDigits_head whole
  by_cases zero : head = '0'
  · obtain ⟨rfl, rfl⟩ := leading zero
    simp [shape, zero, scanWhole]
  · have scanned := scanDigits_append (wholeDigits whole) stops
    have value : Nat.ofDigitChars 10 (head :: tail) 0 = whole := by
      rw [← shape, Nat.ofDigitChars_ten_toDigits]
    simp only [wholeDigits, shape, cons_append] at scanned
    simp [shape, scanWhole, zero, scanned, value]

theorem scanExponent_text (power : Exponent) (stops : NoDigit rest) :
    scanExponent (power.text ++ rest) = (some power, rest) := by
  obtain ⟨negative, digits⟩ := power
  have scanned := scanDigits_append digits stops
  cases negative <;>
    simp [Exponent.text, scanExponent, scanPower, scanned]

theorem scanExponent_stop (stops : Stops rest) : scanExponent rest = (none, rest) := by
  cases rest with
  | nil => rfl
  | cons char rest =>
    obtain ⟨-, -, lower, upper⟩ := stops char rfl
    simp [scanExponent, lower, upper]

theorem scanFraction_text (digits : Digits) (stops : NoDigit rest) :
    scanFraction ('.' :: (digits.val ++ rest)) = (some digits, rest) := by
  simp [scanFraction, scanDigits_append digits stops]

theorem scanFraction_stop (other : ∀ char ∈ rest.head?, char ≠ '.') : scanFraction rest = (none, rest) := by
  cases rest with
  | nil => rfl
  | cons char rest => simp [scanFraction, other char rfl]

theorem scanSign_text (negative : Bool) {text : List Char} (unsigned : ∀ char ∈ text.head?, char ≠ '-') :
    scanSign (signText negative ++ text) = (negative, text) := by
  cases negative with
  | true => rfl
  | false =>
    cases text with
    | nil => rfl
    | cons char text =>
      simp [signText, scanSign, unsigned char rfl]

theorem unsigned_of_digit (digit : char.isDigit = true) : char ≠ '-' := by
  rintro rfl
  exact absurd digit (by decide)

theorem toDigits_unsigned (whole : Nat) (rest : List Char) :
    ∀ char ∈ (Nat.toDigits 10 whole ++ rest).head?, char ≠ '-' := by
  obtain ⟨head, tail, shape, digit, -⟩ := toDigits_head whole
  intro char member
  rw [shape] at member
  cases Option.some.inj member
  exact unsigned_of_digit digit

theorem scanNumber_int (value : Int) (stops : Stops rest) :
    scanNumber (intText value ++ rest) = some (.int value, rest) := by
  have sign := scanSign_text (decide (value < 0)) (toDigits_unsigned value.natAbs rest)
  have whole := scanWhole_toDigits value.natAbs stops.noDigit
  have fraction := scanFraction_stop fun char member => (stops char member).2.1
  have signed : (if decide (value < 0) = true then -(value.natAbs : Int) else value.natAbs) = value := by
    by_cases negative : value < 0 <;> simp only [negative, decide_true, decide_false, if_true,
      Bool.false_eq_true, if_false] <;> omega
  simp only [scanNumber, intText, append_assoc, sign, whole, fraction, scanExponent_stop stops, number, signed]

theorem Mark.text_stops (mark : Mark) (rest : List Char) : NoDigit (mark.text ++ rest) := by
  cases mark <;> exact noDigit_cons (by decide)

theorem scanNumber_decimal (negative : Bool) (whole : Nat) (mark : Mark) (stops : Stops rest) :
    scanNumber ((FloatText.decimal negative whole mark).text ++ rest) =
      some (.float (.decimal negative whole mark), rest) := by
  have sign := scanSign_text negative (toDigits_unsigned whole (mark.text ++ rest))
  have digits := scanWhole_toDigits whole (mark.text_stops rest)
  have afterSign : scanNumber ((FloatText.decimal negative whole mark).text ++ rest) =
      some (number negative whole (scanFraction (mark.text ++ rest)).1
        (scanExponent (scanFraction (mark.text ++ rest)).2).1,
        (scanExponent (scanFraction (mark.text ++ rest)).2).2) := by
    simp [scanNumber, FloatText.text, sign, digits]
  rw [afterSign]
  cases mark with
  | fraction fraction =>
    simp [Mark.text, scanFraction_text fraction stops.noDigit, scanExponent_stop stops, number]
  | exponent power =>
    have none : scanFraction (power.text ++ rest) = (none, power.text ++ rest) :=
      scanFraction_stop fun char member => by
        cases Option.some.inj member
        decide
    simp [Mark.text, none, scanExponent_text power stops.noDigit, number]
  | both fraction power =>
    have after : NoDigit (power.text ++ rest) := noDigit_cons (by decide)
    simp [Mark.text, scanFraction_text fraction after, scanExponent_text power stops.noDigit, number]

variable {head : Char}

/-- A number starts with a digit or with a minus sign and a digit, like no constant. -/
theorem scanScalar_number {negative : Bool} {text : List Char} (digit : head.isDigit = true) :
    scanScalar (signText negative ++ head :: text) = scanNumber (signText negative ++ head :: text) := by
  have letter : ∀ char : Char, char.isDigit = false → head ≠ char := by
    rintro char other rfl
    exact absurd digit (by simp [other])
  cases negative with
  | true =>
    have finite : ['I'].isPrefixOf (head :: text) = false := by
      simp only [List.isPrefixOf, beq_false_of_ne (letter 'I' (by decide)).symm, Bool.false_and]
    simp only [signText, if_true, cons_append, nil_append, scanScalar,
      if_neg (by decide : ¬ ('-' : Char) = 'n'), if_neg (by decide : ¬ ('-' : Char) = 't'),
      if_neg (by decide : ¬ ('-' : Char) = 'f'), if_neg (by decide : ¬ ('-' : Char) = 'N'),
      if_neg (by decide : ¬ ('-' : Char) = 'I'), finite, Bool.false_eq_true, and_false,
      if_false]
  | false =>
    simp [signText, scanScalar, letter 'n' (by decide), letter 't' (by decide), letter 'f' (by decide),
      letter 'N' (by decide), letter 'I' (by decide), letter '-' (by decide)]

theorem scanScalar_int (value : Int) (stops : Stops rest) :
    scanScalar (intText value ++ rest) = some (.int value, rest) := by
  obtain ⟨head, tail, shape, digit, -⟩ := toDigits_head value.natAbs
  have scanned := scanNumber_int value stops
  simp only [intText, shape, append_assoc, cons_append] at scanned ⊢
  rw [scanScalar_number digit, scanned]

theorem scanScalar_float (value : FloatText) (stops : Stops rest) :
    scanScalar (value.text ++ rest) = some (.float value, rest) := by
  cases value with
  | nan => rfl
  | infinity negative => cases negative <;> rfl
  | decimal negative whole mark =>
    obtain ⟨head, tail, shape, digit, -⟩ := toDigits_head whole
    have scanned := scanNumber_decimal negative whole mark stops
    simp only [FloatText.text, shape, append_assoc, cons_append] at scanned ⊢
    rw [scanScalar_number digit, scanned]

def Document.weight : Document → Nat
  | .array items => weights items + 1
  | .object members => memberWeights members + 1
  | _ => 1
where
  weights : List Document → Nat
    | [] => 0
    | item :: rest => item.weight + 1 + weights rest
  memberWeights : List (String × Document) → Nat
    | [] => 0
    | (_, item) :: rest => item.weight + 1 + memberWeights rest

theorem length_intText (value : Int) : 1 ≤ (intText value).length := by
  obtain ⟨head, tail, shape, -, -⟩ := toDigits_head value.natAbs
  simp only [intText, shape, length_append, length_cons]
  omega

theorem length_floatText (value : FloatText) : 1 ≤ value.text.length := by
  cases value with
  | nan => decide
  | infinity negative => cases negative <;> decide
  | decimal negative whole mark =>
    obtain ⟨head, tail, shape, -, -⟩ := toDigits_head whole
    simp only [FloatText.text, shape, length_append, length_cons]
    omega

theorem length_quote (value : String) : 2 ≤ (quote ascii value).length := by
  simp [quote]

mutual
theorem weight_le (ascii : Bool) : ∀ document : Document, document.weight ≤ (document.text ascii).length
  | .null => by simp [Document.weight, Document.text]
  | .bool true => by simp [Document.weight, Document.text]
  | .bool false => by simp [Document.weight, Document.text]
  | .int value => by simpa [Document.weight, Document.text] using length_intText value
  | .float value => by simpa [Document.weight, Document.text] using length_floatText value
  | .str value => by
    have := length_quote ascii value
    simp only [Document.weight, Document.text]
    omega
  | .array [] => by simp [Document.weight, Document.weight.weights, Document.text]
  | .array (first :: rest) => by
    have head := weight_le ascii first
    have tail := weights_le ascii rest
    simp only [Document.weight, Document.weight.weights, Document.text, length_cons, length_append]
    omega
  | .object [] => by simp [Document.weight, Document.weight.memberWeights, Document.text]
  | .object ((name, first) :: rest) => by
    have head := weight_le ascii first
    have tail := memberWeights_le ascii rest
    have := length_quote ascii name
    simp only [Document.weight, Document.weight.memberWeights, Document.text, length_cons, length_append]
    omega

theorem weights_le (ascii : Bool) : ∀ items : List Document,
    Document.weight.weights items + 1 ≤ (itemsText ascii items).length
  | [] => by simp [Document.weight.weights, itemsText]
  | item :: rest => by
    have head := weight_le ascii item
    have tail := weights_le ascii rest
    simp only [Document.weight.weights, itemsText, length_cons, length_append]
    omega

theorem memberWeights_le (ascii : Bool) : ∀ members : List (String × Document),
    Document.weight.memberWeights members + 1 ≤ (membersText ascii members).length
  | [] => by simp [Document.weight.memberWeights, membersText]
  | (name, item) :: rest => by
    have head := weight_le ascii item
    have tail := memberWeights_le ascii rest
    simp only [Document.weight.memberWeights, membersText, length_cons, length_append]
    omega
end

theorem stops_cons (other : char.isDigit = false ∧ char ≠ '.' ∧ char ≠ 'e' ∧ char ≠ 'E') : Stops (char :: rest) := by
  intro first member
  cases Option.some.inj member
  exact other

theorem itemsText_stops (ascii : Bool) (items : List Document) (rest : List Char) :
    Stops (itemsText ascii items ++ rest) := by
  cases items <;> exact stops_cons (by decide)

theorem membersText_stops (ascii : Bool) (members : List (String × Document))
    (rest : List Char) : Stops (membersText ascii members ++ rest) := by
  cases members <;> exact stops_cons (by decide)

def Opens (head : Char) : Prop := isBlank head = false ∧ head ≠ ']' ∧ head ≠ '}'

def Plain (head : Char) : Prop := head ≠ '"' ∧ head ≠ '[' ∧ head ≠ '{'

theorem opens_of_digit (digit : head.isDigit = true) : Opens head ∧ Plain head := by
  have other : ∀ char : Char, char.isDigit = false → head ≠ char := by
    rintro char letter rfl
    exact absurd digit (by simp [letter])
  refine ⟨⟨?_, other _ (by decide), other _ (by decide)⟩, other _ (by decide), other _ (by decide), other _ (by decide)⟩
  simp [isBlank, other ' ' (by decide), other '\t' (by decide), other '\n' (by decide), other '\r' (by decide)]

theorem signed_head (negative : Bool) (whole : Nat) (text : List Char) :
    ∃ head tail, signText negative ++ (Nat.toDigits 10 whole ++ text) = head :: tail ∧ Opens head ∧ Plain head := by
  obtain ⟨head, tail, shape, digit, -⟩ := toDigits_head whole
  cases negative with
  | true => exact ⟨'-', _, rfl, by unfold Opens Plain; decide⟩
  | false => exact ⟨head, tail ++ text, by rw [shape]; rfl, opens_of_digit digit⟩

theorem text_head (ascii : Bool) (document : Document) :
    ∃ head tail, document.text ascii = head :: tail ∧ Opens head := by
  unfold Opens
  cases document with
  | null => exact ⟨'n', _, rfl, by decide⟩
  | bool value => cases value <;> exact ⟨_, _, rfl, by decide⟩
  | int value =>
    obtain ⟨head, tail, shape, opens⟩ := signed_head (decide (value < 0)) value.natAbs []
    exact ⟨head, tail, by simpa [Document.text, intText] using shape, opens.1⟩
  | float value =>
    cases value with
    | nan => exact ⟨'N', _, rfl, by decide⟩
    | infinity negative => cases negative <;> exact ⟨_, _, rfl, by decide⟩
    | decimal negative whole mark =>
      obtain ⟨head, tail, shape, opens⟩ := signed_head negative whole mark.text
      exact ⟨head, tail, shape, opens.1⟩
  | str value => exact ⟨'"', _, rfl, by decide⟩
  | array items => cases items <;> exact ⟨'[', _, rfl, by decide⟩
  | object members => cases members <;> exact ⟨'{', _, rfl, by decide⟩

theorem skip_text (ascii : Bool) (document : Document) (rest : List Char) :
    skip (document.text ascii ++ rest) = document.text ascii ++ rest := by
  obtain ⟨head, tail, shape, opens⟩ := text_head ascii document
  simp only [shape, cons_append, skip, dropWhile_cons, opens.1, Bool.false_eq_true, if_false]

variable {fuel : Nat}

theorem scanDocument_scalar {tail rest : List Char} {document : Document} (plain : Plain head) :
    scanScalar (head :: tail) = some (document, rest) →
      scanDocument (fuel + 1) (head :: tail) = some (document, rest) := by
  obtain ⟨quote, bracket, brace⟩ := plain
  simp [scanDocument, quote, bracket, brace]

theorem scanDocument_int (value : Int) (stops : Stops rest) :
    scanDocument (fuel + 1) (intText value ++ rest) = some (.int value, rest) := by
  obtain ⟨head, tail, shape, -, plain⟩ := signed_head (decide (value < 0)) value.natAbs rest
  have scanned := scanScalar_int value stops
  rw [intText, append_assoc, shape] at scanned ⊢
  exact scanDocument_scalar plain scanned

theorem scanDocument_float (value : FloatText) (stops : Stops rest) :
    scanDocument (fuel + 1) (value.text ++ rest) = some (.float value, rest) := by
  have scanned := scanScalar_float value stops
  cases value with
  | nan => exact scanDocument_scalar (by unfold Plain; decide) scanned
  | infinity negative =>
    cases negative <;> exact scanDocument_scalar (by unfold Plain; decide) scanned
  | decimal negative whole mark =>
    obtain ⟨head, tail, shape, -, plain⟩ := signed_head negative whole (mark.text ++ rest)
    rw [FloatText.text, append_assoc, append_assoc, shape] at scanned ⊢
    exact scanDocument_scalar plain scanned

def itemsFrom (ascii : Bool) : List Document → List Char
  | [] => []
  | item :: rest => item.text ascii ++ itemsText ascii rest

def membersFrom (ascii : Bool) : List (String × Document) → List Char
  | [] => []
  | (name, item) :: rest =>
    quote ascii name ++ ':' :: (item.text ascii ++ membersText ascii rest)

theorem scanArray_items {scan : List Char → Option (Document × List Char)}
    (ascii : Bool) (first : Document) (text : List Char) :
    scanArray scan fuel (first.text ascii ++ text) = (scanItems scan fuel (first.text ascii ++ text)).map
        fun (items, rest) => (.array items, rest) := by
  obtain ⟨head, tail, shape, opens⟩ := text_head ascii first
  simp [shape, scanArray, opens.2.1]

mutual
theorem scanDocument_text (ascii : Bool) : ∀ (document : Document) (fuel : Nat)
    (rest : List Char), document.weight ≤ fuel → Stops rest →
    scanDocument fuel (document.text ascii ++ rest) = some (document, rest)
  | document, 0, _, enough, _ => by
    cases document <;> simp [Document.weight] at enough
  | .null, fuel + 1, rest, _, _ => scanDocument_scalar (by unfold Plain; decide) rfl
  | .bool true, fuel + 1, rest, _, _ => scanDocument_scalar (by unfold Plain; decide) rfl
  | .bool false, fuel + 1, rest, _, _ => scanDocument_scalar (by unfold Plain; decide) rfl
  | .int value, fuel + 1, rest, _, stops => scanDocument_int value stops
  | .float value, fuel + 1, rest, _, stops => scanDocument_float value stops
  | .str value, fuel + 1, rest, _, _ => by
    simp [Document.text, quote_append, scanDocument, scanString_quote]
  | .array [], fuel + 1, rest, _, _ => rfl
  | .array (first :: items), fuel + 1, rest, enough, _ => by
    have small : Document.weight.weights (first :: items) ≤ fuel := by
      simpa [Document.weight] using enough
    have scanned := scanItems_text ascii (first :: items) fuel fuel rest small small (cons_ne_nil _ _)
    rw [itemsFrom, append_assoc] at scanned
    simp [Document.text, scanDocument, skip_text, scanArray_items, scanned]
  | .object [], fuel + 1, rest, _, _ => rfl
  | .object ((name, first) :: members), fuel + 1, rest, enough, _ => by
    have small : Document.weight.memberWeights ((name, first) :: members) ≤ fuel := by
      simpa [Document.weight] using enough
    have scanned := scanMembers_text ascii ((name, first) :: members) fuel fuel rest small small (cons_ne_nil _ _)
    simp only [membersFrom, append_assoc, cons_append, quote_append] at scanned
    simp only [Document.text, cons_append, append_assoc, quote_append, scanDocument,
      if_neg (by decide : ¬ ('{' : Char) = '"'), if_neg (by decide : ¬ ('{' : Char) = '['),
      if_true]
    change scanObject _ _ ('"' :: _) = _
    simp [scanObject, scanned]

theorem scanItems_text (ascii : Bool) : ∀ (items : List Document) (depth fuel : Nat)
    (rest : List Char), Document.weight.weights items ≤ depth →
    Document.weight.weights items ≤ fuel → items ≠ [] →
    scanItems (scanDocument depth) fuel (itemsFrom ascii items ++ rest) = some (items, rest)
  | [], _, _, _, _, _, present => absurd rfl present
  | _ :: _, _, 0, _, _, enough, _ => by simp [Document.weight.weights] at enough
  | [item], depth, fuel + 1, rest, deep, _, _ => by
    simp only [Document.weight.weights] at deep
    have scanned := scanDocument_text ascii item depth (itemsText ascii [] ++ rest) (by omega)
      (itemsText_stops ascii [] rest)
    simp only [itemsFrom, append_assoc, scanItems, scanned]
    rfl
  | item :: next :: more, depth, fuel + 1, rest, deep, enough, _ => by
    have rests := scanItems_text ascii (next :: more) depth fuel rest
      (by simp only [Document.weight.weights] at deep ⊢; omega)
      (by simp only [Document.weight.weights] at enough ⊢; omega) (cons_ne_nil _ _)
    have scanned := scanDocument_text ascii item depth (itemsText ascii (next :: more) ++ rest)
      (by simp only [Document.weight.weights] at deep; omega)
      (itemsText_stops ascii (next :: more) rest)
    have comma : skip (itemsText ascii (next :: more) ++ rest) = ',' :: (itemsFrom ascii (next :: more) ++ rest) := rfl
    have blank : skip (itemsFrom ascii (next :: more) ++ rest) = itemsFrom ascii (next :: more) ++ rest := by
      simp [itemsFrom, skip_text]
    rw [itemsFrom, append_assoc]
    simp [scanItems, scanned, comma, blank, rests]

theorem scanMembers_text (ascii : Bool) : ∀ (members : List (String × Document))
    (depth fuel : Nat) (rest : List Char), Document.weight.memberWeights members ≤ depth →
    Document.weight.memberWeights members ≤ fuel → members ≠ [] →
    scanMembers (scanDocument depth) fuel (membersFrom ascii members ++ rest) = some (members, rest)
  | [], _, _, _, _, _, present => absurd rfl present
  | (_, _) :: _, _, 0, _, _, enough, _ => by simp [Document.weight.memberWeights] at enough
  | [(name, item)], depth, fuel + 1, rest, deep, _, _ => by
    simp only [Document.weight.memberWeights] at deep
    have scanned := scanDocument_text ascii item depth (membersText ascii [] ++ rest) (by omega)
      (membersText_stops ascii [] rest)
    have colon : ∀ text, skip (':' :: text) = ':' :: text := fun _ => rfl
    simp only [membersFrom, append_assoc, cons_append, quote_append, scanMembers,
      scanMember, scanString_quote, colon, skip_text, scanned, map_some]
    rfl
  | (name, item) :: (nextName, next) :: more, depth, fuel + 1, rest, deep, enough, _ => by
    have rests := scanMembers_text ascii ((nextName, next) :: more) depth fuel rest
      (by simp only [Document.weight.memberWeights] at deep ⊢; omega)
      (by simp only [Document.weight.memberWeights] at enough ⊢; omega) (cons_ne_nil _ _)
    have scanned := scanDocument_text ascii item depth (membersText ascii ((nextName, next) :: more) ++ rest)
      (by simp only [Document.weight.memberWeights] at deep; omega)
      (membersText_stops ascii ((nextName, next) :: more) rest)
    have colon : ∀ text, skip (':' :: text) = ':' :: text := fun _ => rfl
    have comma : skip (membersText ascii ((nextName, next) :: more) ++ rest) =
        ',' :: (membersFrom ascii ((nextName, next) :: more) ++ rest) := by
      simp only [membersText, membersFrom, cons_append, append_assoc]
      rfl
    have blank : skip (membersFrom ascii ((nextName, next) :: more) ++ rest) =
        membersFrom ascii ((nextName, next) :: more) ++ rest := by
      simp only [membersFrom, quote_append]
      rfl
    rw [membersFrom]
    simp only [append_assoc, cons_append, quote_append, scanMembers, scanMember,
      scanString_quote, colon, skip_text, scanned, map_some, comma, blank, rests]
end

theorem parse_text (ascii : Bool) (document : Document) : parse (document.text ascii) = some document := by
  have skipped := skip_text ascii document []
  have scanned := scanDocument_text ascii document (document.text ascii).length []
    (weight_le ascii document) (fun _ member => absurd member (by simp))
  rw [append_nil] at skipped scanned
  have blank : skip [] = [] := rfl
  simp [parse, skipped, scanned, blank]

theorem text_injective (ascii : Bool) : Function.Injective (Document.text ascii) := by
  intro first second same
  have parsed := parse_text ascii first
  rw [same, parse_text] at parsed
  exact (Option.some.inj parsed).symm

end Dash.Python
