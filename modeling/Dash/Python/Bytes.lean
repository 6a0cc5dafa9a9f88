import Dash.Python.Value

/-! Texts as bytes, `json.loads` of bytes, `base64.urlsafe_b64encode` without its padding, and the lenient
decoder behind `urlsafe_b64decode`, which skips what is not in the alphabet.

The decoders of UTF-16 and UTF-32 are a parameter.
-/

set_option autoImplicit false

namespace Dash.Python

variable {F : Type}

/-- `text.encode()` -/
def utf8 (text : String) : List UInt8 := text.toList.flatMap String.utf8EncodeChar

/-- `detect_encoding` finds an encoding other than UTF-8. -/
def detectsWide : List UInt8 → Bool
  | [first, second] =>
    (first = 254 && second = 255) || (first = 255 && second = 254) || first = 0 || second = 0
  | [first, second, _] => (first = 254 && second = 255) || (first = 255 && second = 254)
  | first :: second :: _ :: _ :: _ =>
    (first = 254 && second = 255) || (first = 255 && second = 254) || first = 0 || second = 0
  | _ => false

/-- The byte order mark that `utf-8-sig` drops. -/
def dropMark : List UInt8 → List UInt8
  | 239 :: 187 :: 191 :: rest => rest
  | bytes => bytes

/-- `bytes.decode(detect_encoding(bytes))` -/
def decodeText (decodeWide : List UInt8 → Option String) (bytes : List UInt8) : Option String :=
  if detectsWide bytes then decodeWide bytes
  else String.fromUTF8? (dropMark bytes).toByteArray

/-- `json.loads(bytes)` -/
def Runtime.loadsBytes (rt : Runtime F) (decodeWide : List UInt8 → Option String)
    (bytes : List UInt8) : Result (Value F) :=
  match decodeText decodeWide bytes with
  | some text => rt.loads text
  | none => valueError "invalid encoding"

theorem fromUTF8_utf8 (text : String) : String.fromUTF8? (utf8 text).toByteArray = some text := by
  have same : (utf8 text).toByteArray = text.toByteArray := by
    rw [← String.utf8Encode_toList]
    rfl
  rw [same, String.fromUTF8?, dif_pos text.isValidUTF8]
  rfl

theorem decodeText_utf8 (decodeWide : List UInt8 → Option String) (rest : List Char) :
    decodeText decodeWide (utf8 (String.ofList ('\x7b' :: '"' :: rest))) =
      some (String.ofList ('\x7b' :: '"' :: rest)) := by
  have bytes : utf8 (String.ofList ('\x7b' :: '"' :: rest)) = 123 :: 34 :: rest.flatMap String.utf8EncodeChar := by
    rw [utf8, String.toList_ofList, List.flatMap_cons, List.flatMap_cons]
    rfl
  have narrow : detectsWide (123 :: 34 :: rest.flatMap String.utf8EncodeChar) = false := by
    match rest.flatMap String.utf8EncodeChar with
    | [] => rfl
    | [_] => rfl
    | _ :: _ :: _ => rfl
  have marked : dropMark (123 :: 34 :: rest.flatMap String.utf8EncodeChar) =
      123 :: 34 :: rest.flatMap String.utf8EncodeChar := rfl
  rw [decodeText, bytes, narrow, if_neg Bool.false_ne_true, marked, ← bytes, fromUTF8_utf8]

theorem Runtime.loadsBytes_text (rt : Runtime F) (decodeWide : List UInt8 → Option String)
    (ascii : Bool) (member : String × Document) (rest : List (String × Document)) :
    rt.loadsBytes decodeWide (utf8 (String.ofList ((Document.object (member :: rest)).text ascii))) =
      .ok (rt.ofDocument (.object (member :: rest))) := by
  obtain ⟨name, item⟩ := member
  have opens : ∃ tail, (Document.object ((name, item) :: rest)).text ascii = '\x7b' :: '"' :: tail := by
    simp [Document.text, quote]
  obtain ⟨tail, shape⟩ := opens
  rw [Runtime.loadsBytes, shape, decodeText_utf8, ← shape]
  exact rt.loads_text ascii _

namespace Base64

open List

/-- The alphabet of `urlsafe_b64encode`. -/
def alphabet : List Char :=
  "ABCDEFGHIJKLMNOPQRSTUVWXYZabcdefghijklmnopqrstuvwxyz0123456789-_".toList

def letter (value : Nat) : Char := alphabet.getD value '_'

/-- The value of a character for the decoder, to which `+/` and `-_` are the same. -/
def sextet (char : Char) : Option Nat :=
  if char = '+' then some 62
  else if char = '/' then some 63
  else if char ∈ alphabet then some (alphabet.idxOf char) else none

/-- `urlsafe_b64encode(data).rstrip(b"=")` -/
def encode : List UInt8 → List Char
  | [] => []
  | [first] => [letter (first.toNat / 4), letter (first.toNat % 4 * 16)]
  | [first, second] =>
    [letter (first.toNat / 4), letter (first.toNat % 4 * 16 + second.toNat / 16), letter (second.toNat % 16 * 4)]
  | first :: second :: third :: rest =>
    letter (first.toNat / 4) :: letter (first.toNat % 4 * 16 + second.toNat / 16) ::
      letter (second.toNat % 16 * 4 + third.toNat / 64) :: letter (third.toNat % 64) :: encode rest

/-- The loop of `a2b_base64`: how many characters of a group were read, the bits of the last one
that are left, and how many `=` were seen after them. -/
def decodeFrom : Nat → Nat → Nat → List Char → Option (List UInt8)
  | quad, _, _, [] => if quad = 0 then some [] else none
  | quad, left, pads, char :: rest =>
    if char = '=' then
      if 2 ≤ quad then
        if 4 ≤ quad + (pads + 1) then some [] else decodeFrom quad left (pads + 1) rest
      else decodeFrom quad left pads rest
    else
      match sextet char with
      | none => decodeFrom quad left pads rest
      | some value =>
        if quad = 0 then decodeFrom 1 value 0 rest
        else if quad = 1 then
          (decodeFrom 2 (value % 16) 0 rest).map (UInt8.ofNat (left * 4 + value / 16) :: ·)
        else if quad = 2 then
          (decodeFrom 3 (value % 4) 0 rest).map (UInt8.ofNat (left * 16 + value / 4) :: ·)
        else (decodeFrom 0 0 0 rest).map (UInt8.ofNat (left * 64 + value) :: ·)

/-- `"=" * ((4 - len(value) % 4) % 4)` -/
def padding (count : Nat) : List Char := List.replicate ((4 - count % 4) % 4) '='

/-- `urlsafe_b64decode` of a text with its padding put back; a text that is not ASCII raises. -/
def decode (text : List Char) : Option (List UInt8) :=
  if text.all fun char => decide (char.toNat < 128) then decodeFrom 0 0 0 (text ++ padding text.length)
  else none

theorem letter_alphabet : ∀ value : Fin 64, sextet (letter value) = some value.val ∧
    letter value ≠ '=' ∧ (letter value).toNat < 128 ∧ letter value ≠ '.' := by
  decide +kernel

variable {value : Nat}

theorem sextet_letter (small : value < 64) : sextet (letter value) = some value:=
  (letter_alphabet ⟨value, small⟩).1

theorem letter_ne_pad (small : value < 64) : letter value ≠ '=':=
  (letter_alphabet ⟨value, small⟩).2.1

theorem letter_ascii (small : value < 64) : (letter value).toNat < 128:=
  (letter_alphabet ⟨value, small⟩).2.2.1

theorem letter_ne_dot (small : value < 64) : letter value ≠ '.':=
  (letter_alphabet ⟨value, small⟩).2.2.2

theorem encode_letters : ∀ (bytes : List UInt8), ∀ char ∈ encode bytes, ∃ value < 64, char = letter value
  | [] => by simp [encode]
  | [first] => by
    have := first.toNat_lt
    simp only [encode, mem_cons, not_mem_nil, or_false]
    rintro char (rfl | rfl)
    · exact ⟨_, by omega, rfl⟩
    · exact ⟨_, by omega, rfl⟩
  | [first, second] => by
    have := first.toNat_lt
    have := second.toNat_lt
    simp only [encode, mem_cons, not_mem_nil, or_false]
    rintro char (rfl | rfl | rfl)
    · exact ⟨_, by omega, rfl⟩
    · exact ⟨_, by omega, rfl⟩
    · exact ⟨_, by omega, rfl⟩
  | first :: second :: third :: rest => by
    have := first.toNat_lt
    have := second.toNat_lt
    have := third.toNat_lt
    simp only [encode, mem_cons]
    rintro char (rfl | rfl | rfl | rfl | later)
    · exact ⟨_, by omega, rfl⟩
    · exact ⟨_, by omega, rfl⟩
    · exact ⟨_, by omega, rfl⟩
    · exact ⟨_, by omega, rfl⟩
    · exact encode_letters rest char later

theorem encode_ascii (bytes : List UInt8) : ∀ char ∈ encode bytes, char.toNat < 128 := by
  intro char member
  obtain ⟨value, small, rfl⟩ := encode_letters bytes char member
  exact letter_ascii small

theorem encode_no_dot (bytes : List UInt8) : '.' ∉ encode bytes := by
  intro member
  obtain ⟨value, small, same⟩ := encode_letters bytes '.' member
  exact letter_ne_dot small same.symm

theorem decodeFrom_letter {quad left pads value : Nat} (small : value < 64) (rest : List Char) :
    decodeFrom quad left pads (letter value :: rest) =
      if quad = 0 then decodeFrom 1 value 0 rest
      else if quad = 1 then
        (decodeFrom 2 (value % 16) 0 rest).map (UInt8.ofNat (left * 4 + value / 16) :: ·)
      else if quad = 2 then
        (decodeFrom 3 (value % 4) 0 rest).map (UInt8.ofNat (left * 16 + value / 4) :: ·)
      else (decodeFrom 0 0 0 rest).map (UInt8.ofNat (left * 64 + value) :: ·) := by
  rw [decodeFrom, if_neg (letter_ne_pad small), sextet_letter small]

theorem ofNat_toNat (byte : UInt8) (same : value = byte.toNat) : UInt8.ofNat value = byte:= by
  subst same
  exact UInt8.ofNat_toNat

/-- The decoder reads an encoding back, with the padding that completes its last group. -/
theorem decodeFrom_encode : ∀ bytes : List UInt8,
    decodeFrom 0 0 0 (encode bytes ++ padding (encode bytes).length) = some bytes
  | [] => by decide
  | [first] => by
    have one := first.toNat_lt
    simp only [encode, cons_append, nil_append]
    rw [decodeFrom_letter (by omega), if_pos rfl, decodeFrom_letter (by omega), if_neg Nat.one_ne_zero, if_pos rfl]
    have low : first.toNat % 4 * 16 % 16 = 0 := by omega
    have done : decodeFrom 2 (first.toNat % 4 * 16 % 16) 0 (padding [letter (first.toNat / 4),
        letter (first.toNat % 4 * 16)].length) = some [] := by
      rw [low]
      exact (by decide : decodeFrom 2 0 0 (padding 2) = some [])
    rw [done, Option.map_some, ofNat_toNat first (by omega)]
  | [first, second] => by
    have one := first.toNat_lt
    have two := second.toNat_lt
    simp only [encode, cons_append, nil_append]
    rw [decodeFrom_letter (by omega), if_pos rfl, decodeFrom_letter (by omega),
      if_neg Nat.one_ne_zero, if_pos rfl, decodeFrom_letter (by omega), if_neg (by decide),
      if_neg (by decide), if_pos rfl]
    have low : second.toNat % 16 * 4 % 4 = 0 := by omega
    have done : decodeFrom 3 (second.toNat % 16 * 4 % 4) 0 (padding [letter (first.toNat / 4),
        letter (first.toNat % 4 * 16 + second.toNat / 16),
        letter (second.toNat % 16 * 4)].length) = some [] := by
      rw [low]
      exact (by decide : decodeFrom 3 0 0 (padding 3) = some [])
    rw [done, Option.map_some, Option.map_some, ofNat_toNat first (by omega), ofNat_toNat second (by omega)]
  | first :: second :: third :: rest => by
    have one := first.toNat_lt
    have two := second.toNat_lt
    have three := third.toNat_lt
    have pads : padding (encode (first :: second :: third :: rest)).length = padding (encode rest).length := by
      have turn : ((encode rest).length + 4) % 4 = (encode rest).length % 4 := by omega
      simp [padding, encode, turn]
    rw [pads]
    simp only [encode, cons_append]
    rw [decodeFrom_letter (by omega), if_pos rfl, decodeFrom_letter (by omega),
      if_neg Nat.one_ne_zero, if_pos rfl, decodeFrom_letter (by omega), if_neg (by decide),
      if_neg (by decide), if_pos rfl, decodeFrom_letter (by omega), if_neg (by decide),
      if_neg (by decide), if_neg (by decide), decodeFrom_encode rest]
    simp only [Option.map_some]
    rw [ofNat_toNat first (by omega), ofNat_toNat second (by omega), ofNat_toNat third (by omega)]

theorem decode_encode (bytes : List UInt8) : decode (encode bytes) = some bytes := by
  have ascii : ((encode bytes).all fun char => decide (char.toNat < 128)) = true :=
    all_eq_true.mpr fun char member => decide_eq_true (encode_ascii bytes char member)
  rw [decode, if_pos ascii, decodeFrom_encode]

end Base64

end Dash.Python
