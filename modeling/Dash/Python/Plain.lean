import Dash.Python.Value
import Mathlib.Data.Rat.Encodable
import Mathlib.Data.Rat.Floor

/-! An interpreter without float arithmetic, to run the stores on concrete calls, and the rounding of
numbers that the code treats as exact. -/

set_option autoImplicit false

namespace Dash.Python

/-- `int(text)` of plain decimal digits. -/
def plainInt (text : String) : Option Int :=
  if text ≠ "" ∧ text.toList.all Char.isDigit then
    some (text.toList.foldl (fun number digit => number * 10 + (digit.toNat - '0'.toNat : Nat)) 0)
  else none

def plainRuntime : Runtime FloatText where
  floatText := id
  floatOf := id
  floatOf_text _ := rfl
  nonzero _ := true
  intOfFloat _ := valueError "cannot convert float NaN to integer"
  intOfText := plainInt
  numberLe _ _ := true
  quoted text := "'" ++ text ++ "'"
  lower text := String.ofList (text.toList.map Char.toLower)
  upper text := String.ofList (text.toList.map Char.toUpper)

def digitZero : Digits := ⟨['0'], by simp, List.forall_mem_singleton.mpr (by decide)⟩

/-- An interpreter whose floats are whole numbers. -/
def wholeRuntime : Runtime Int where
  floatText value := .decimal (decide (value < 0)) value.natAbs (.fraction digitZero)
  floatOf
    | .decimal negative whole _ => if negative then -whole else whole
    | _ => 0
  floatOf_text value := by
    by_cases negative : value < 0
    · simp only [negative, decide_true, if_true]
      omega
    · simp only [negative, decide_false, Bool.false_eq_true, if_false]
      omega
  nonzero value := value ≠ 0
  intOfFloat value := .ok value
  intOfText := plainInt
  numberLe _ _ := true
  quoted text := "'" ++ text ++ "'"
  lower text := String.ofList (text.toList.map Char.toLower)
  upper text := String.ofList (text.toList.map Char.toUpper)

/-- `round(value)`: half of the way, to the even number. -/
def roundEven (value : Rat) : Int :=
  let floor := value.floor
  if value - floor < 1 / 2 then floor
  else if 1 / 2 < value - floor then floor + 1
  else if floor % 2 = 0 then floor else floor + 1

/-- `round(value, digits)` -/
def roundTo (digits : Nat) (value : Rat) : Rat := roundEven (value * 10 ^ digits) / 10 ^ digits

/-- `int(value)`, which cuts the fraction off. -/
def truncated (value : Rat) : Int := if 0 ≤ value then value.floor else value.ceil

def rationalRuntime : Runtime Rat where
  floatText value := .decimal false (Encodable.encode value) (.fraction digitZero)
  floatOf
    | .decimal _ whole _ => ((Encodable.decode whole : Option Rat)).getD 0
    | _ => 0
  floatOf_text value := by
    dsimp only
    rw [Encodable.encodek, Option.getD_some]
  nonzero value := value ≠ 0
  intOfFloat value := .ok (truncated value)
  intOfText := plainInt
  numberLe _ _ := true
  quoted text := "'" ++ text ++ "'"
  lower text := text
  upper text := text

end Dash.Python
