import Mathlib.Data.List.DropRight

/-! The parts of Python's `str` the stores use. -/

set_option autoImplicit false

namespace Dash.Python

open List
open String (toList_append toList_inj toList_ofList)

/-- `str.isspace` of one character. -/
def isSpace (char : Char) : Bool :=
  (decide (9 ≤ char.toNat) && decide (char.toNat ≤ 13)) || (decide (28 ≤ char.toNat) && decide (char.toNat ≤ 32)) ||
    decide (char.toNat = 133) || decide (char.toNat = 160) || decide (char.toNat = 5760) ||
    (decide (8192 ≤ char.toNat) && decide (char.toNat ≤ 8202)) ||
    decide (char.toNat = 8232) || decide (char.toNat = 8233) || decide (char.toNat = 8239) ||
    decide (char.toNat = 8287) || decide (char.toNat = 12288)

def stripChars (text : List Char) : List Char := (text.dropWhile isSpace).rdropWhile isSpace

def strip (text : String) : String := String.ofList (stripChars text.toList)

/-- `text[:count]` -/
def clip (count : Nat) (text : String) : String := String.ofList (text.toList.take count)

/-- `text.split(mark, 1)[0]` -/
def before (mark : Char) (text : String) : String :=
  String.ofList (text.toList.takeWhile fun char => char ≠ mark)

/-- `text.startswith(start)` -/
def startsWith (start text : String) : Bool := start.toList.isPrefixOf text.toList

def hasControl (text : String) : Bool := text.toList.any fun char => decide (char.toNat < 32)

def join (separator : String) : List String → String
  | [] => ""
  | [item] => item
  | item :: rest => item ++ separator ++ join separator rest

/-- The codes of the ASCII letters and digits. -/
theorem alphanum_code {char : Char} (alphanum : char.isAlphanum = true) : (65 ≤ char.toNat ∧ char.toNat ≤ 90) ∨
    (97 ≤ char.toNat ∧ char.toNat ≤ 122) ∨ (48 ≤ char.toNat ∧ char.toNat ≤ 57) := by
  have cases : ((char.isUpper || char.isLower) || char.isDigit) = true := alphanum
  rw [Bool.or_eq_true, Bool.or_eq_true] at cases
  rcases cases with (upper | lower) | digit
  · have within : char.val ≥ 'A'.val ∧ char.val ≤ 'Z'.val := of_decide_eq_true upper
    exact .inl ⟨UInt32.le_iff_toNat_le.mp within.1, UInt32.le_iff_toNat_le.mp within.2⟩
  · obtain ⟨low, high⟩ := (Bool.and_eq_true _ _).mp lower
    exact .inr (.inl ⟨UInt32.le_iff_toNat_le.mp (of_decide_eq_true low), UInt32.le_iff_toNat_le.mp (of_decide_eq_true high)⟩)
  · obtain ⟨low, high⟩ := (Bool.and_eq_true _ _).mp digit
    exact .inr (.inr ⟨UInt32.le_iff_toNat_le.mp (of_decide_eq_true low), UInt32.le_iff_toNat_le.mp (of_decide_eq_true high)⟩)

theorem strip_empty : strip "" = "" := by decide

theorem startsWith_append (start text : String) : startsWith start (start ++ text) = true := by
  simp [startsWith, toList_append]

theorem startsWith_iff {start text : String} : startsWith start text = true ↔ ∃ rest, text = start ++ rest := by
  rw [startsWith, List.isPrefixOf_iff_prefix]
  constructor
  · rintro ⟨rest, same⟩
    exact ⟨String.ofList rest, by rw [← toList_inj, toList_append, ← same, toList_ofList]⟩
  · rintro ⟨rest, rfl⟩
    exact ⟨rest.toList, by rw [toList_append]⟩

theorem startsWith_or {first second text : String} (one : startsWith first text = true)
    (other : startsWith second text = true) :
    startsWith first second = true ∨ startsWith second first = true := by
  simp only [startsWith, List.isPrefixOf_iff_prefix] at *
  rcases Nat.le_total first.toList.length second.toList.length with short | short
  · exact .inl (prefix_of_prefix_length_le one other short)
  · exact .inr (prefix_of_prefix_length_le other one short)

theorem dropWhile_plain {text : List Char} (plain : ∀ char ∈ text, isSpace char = false) :
    text.dropWhile isSpace = text := by
  cases text with
  | nil => rfl
  | cons char rest => rw [dropWhile_cons_of_neg (by simp [plain char mem_cons_self])]

theorem stripChars_append {start rest : List Char} (plain : ∀ char ∈ start, isSpace char = false)
    (some : start ≠ []) : start <+: stripChars (start ++ rest) := by
  have left : (start ++ rest).dropWhile isSpace = start ++ rest := by
    cases start with
    | nil => exact absurd rfl some
    | cons char others =>
      rw [cons_append, dropWhile_cons_of_neg (by simp [plain char mem_cons_self])]
  have right : start.reverse.dropWhile isSpace = start.reverse :=
    dropWhile_plain fun char member => plain char (mem_reverse.mp member)
  rw [stripChars, left, List.rdropWhile, reverse_append, dropWhile_append]
  split
  · exact ⟨[], by rw [append_nil, right, reverse_reverse]⟩
  · rw [reverse_append, reverse_reverse]
    exact prefix_append _ _

theorem startsWith_strip {start rest : String} (plain : start.toList.all fun char => !isSpace char)
    (some : start ≠ "") : startsWith start (strip (start ++ rest)) = true := by
  rw [startsWith, List.isPrefixOf_iff_prefix, strip, toList_ofList, toList_append]
  refine stripChars_append (fun char member => ?_) fun empty => some ?_
  · simpa using all_eq_true.mp plain char member
  · rw [← toList_inj, empty]
    rfl

theorem strip_plain {text : String} (plain : ∀ char ∈ text.toList, isSpace char = false) : strip text = text := by
  have reversed : text.toList.reverse.dropWhile isSpace = text.toList.reverse :=
    dropWhile_plain fun char member => plain char (mem_reverse.mp member)
  rw [strip, stripChars, dropWhile_plain plain, List.rdropWhile, reversed, reverse_reverse, String.ofList_toList]

theorem strip_strip (text : String) : strip (strip text) = strip text := by
  have inner : ∀ chars : List Char, stripChars (stripChars chars) = stripChars chars := by
    intro chars
    unfold stripChars
    have start : (List.rdropWhile isSpace (chars.dropWhile isSpace)).dropWhile isSpace =
        List.rdropWhile isSpace (chars.dropWhile isSpace) := by
      rw [dropWhile_eq_self_iff]
      intro some
      have short := List.rdropWhile_prefix isSpace (chars.dropWhile isSpace)
      have whole : 0 < (chars.dropWhile isSpace).length := Nat.lt_of_lt_of_le some short.length_le
      rw [short.getElem some]
      exact dropWhile_get_zero_not isSpace chars whole
    rw [start, rdropWhile_idempotent]
  rw [strip, strip, toList_ofList, inner]

theorem append_left_cancel {start first second : String} (same : start ++ first = start ++ second) :
    first = second := by
  rw [← toList_inj, toList_append, toList_append] at same
  exact String.toList_inj.mp (append_cancel_left same)

/-- A text falls apart at its first mark. -/
theorem span_mark {mark : Char} {start : List Char} (plain : mark ∉ start) (rest : List Char) :
    (start ++ mark :: rest).takeWhile (· ≠ mark) = start ∧
      (start ++ mark :: rest).dropWhile (· ≠ mark) = mark :: rest := by
  have letters : ∀ char ∈ start, decide (char ≠ mark) = true := fun char member =>
    decide_eq_true fun same => plain (same ▸ member)
  rw [takeWhile_append_of_pos letters, dropWhile_append_of_pos letters]
  simp

theorem mark_split {mark char : Char} {text rest : List Char} (found : text.dropWhile (· ≠ mark) = char :: rest) :
    text.takeWhile (· ≠ mark) ++ mark :: rest = text := by
  have marked := List.head?_dropWhile_not (fun char => decide (char ≠ mark)) text
  rw [found] at marked
  obtain rfl : char = mark := by simpa using marked
  rw [← found, takeWhile_append_dropWhile]

end Dash.Python
