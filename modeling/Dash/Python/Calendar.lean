import Dash.Python.Value

/-! The proleptic Gregorian calendar of `datetime`.

A date is its number of days since 1970-01-01. `ordinal` is `date.toordinal`,
and the conversions follow the algorithms of the standard library.
-/

set_option autoImplicit false

namespace Dash.Python

structure CivilDate where
  (year month day : Int)
  deriving DecidableEq, Repr

namespace Calendar

def ordinal (date : Int) : Int := date + 719163

def isLeap (year : Int) : Bool :=
  year % 4 = 0 && (year % 100 ≠ 0 || year % 400 = 0)

def daysBeforeYear (year : Int) : Int :=
  (year - 1) * 365 + (year - 1) / 4 - (year - 1) / 100 + (year - 1) / 400

def daysBeforeMonth (leap : Bool) (month : Int) : Int :=
  let days : List Int := [0, 0, 31, 59, 90, 120, 151, 181, 212, 243, 273, 304, 334]
  days.getD month.toNat 0 + if month > 2 && leap then 1 else 0

/-- `_ord2ymd` -/
def civil (date : Int) : CivilDate :=
  let n := ordinal date - 1
  let n400 := n / 146097
  let n := n % 146097
  let n100 := n / 36524
  let n := n % 36524
  let n4 := n / 1461
  let n := n % 1461
  let n1 := n / 365
  let n := n % 365
  let year := n400 * 400 + 1 + n100 * 100 + n4 * 4 + n1
  if n1 = 4 ∨ n100 = 4 then ⟨year - 1, 12, 31⟩
  else
    let leap := decide (n1 = 3) && (decide (n4 ≠ 24) || decide (n100 = 3))
    let month := (n + 50) / 32
    let preceding := daysBeforeMonth leap month
    if n < preceding then ⟨year, month - 1, n - daysBeforeMonth leap (month - 1) + 1⟩
    else ⟨year, month, n - preceding + 1⟩

/-- The ordinal of the Monday of the first ISO week, `_isoweek1monday`. -/
def isoWeekOneMonday (year : Int) : Int :=
  let firstDay := daysBeforeYear year + 1
  let firstWeekday := (firstDay + 6) % 7
  let monday := firstDay - firstWeekday
  if firstWeekday > 3 then monday + 7 else monday

/-- The ISO year and week of `date.isocalendar`. -/
def isoWeek (date : Int) : Int × Int :=
  let year := (civil date).year
  let today := ordinal date
  let week := (today - isoWeekOneMonday year) / 7
  if week < 0 then (year - 1, (today - isoWeekOneMonday (year - 1)) / 7 + 1)
  else if week ≥ 52 ∧ today ≥ isoWeekOneMonday (year + 1) then (year + 1, 1)
  else (year, week + 1)

def padded (width : Nat) (number : Int) : String :=
  let digits := Nat.toDigits 10 number.natAbs
  String.ofList (List.replicate (width - digits.length) '0' ++ digits)

/-- `date.isoformat()` -/
def isoformat (date : Int) : String :=
  let civil := civil date
  padded 4 civil.year ++ "-" ++ padded 2 civil.month ++ "-" ++ padded 2 civil.day

/-- `f"{iso.year}-W{iso.week:02d}"` -/
def isoWeekText (week : Int × Int) : String := toString week.1 ++ "-W" ++ padded 2 week.2

/-- The years `datetime` knows, 1 to 9999. -/
def inRange (date : Int) : Bool := decide (-719162 ≤ date) && decide (date ≤ 2932896)

/-- The UTC date of `datetime.fromtimestamp(epoch, utc)`. -/
def dateOf (epoch : Int) : Result Int :=
  if inRange (epoch / 86400) then .ok (epoch / 86400)
  else valueError "year is out of range"

/-- `date - timedelta(days=1)` -/
def dayBefore (date : Int) : Result Int :=
  if inRange (date - 1) then .ok (date - 1)
  else .error ⟨.overflowError, "date value out of range"⟩

/-- `datetime.fromtimestamp(epoch, utc).isoformat().replace("+00:00", "Z")` -/
def utcText (epoch : Int) : Result String := do
  let date ← dateOf epoch
  let second := epoch % 86400
  .ok (isoformat date ++ "T" ++ padded 2 (second / 3600) ++ ":" ++
    padded 2 (second / 60 % 60) ++ ":" ++ padded 2 (second % 60) ++ "Z")

example : utcText 1709209384 = .ok "2024-02-29T12:23:04Z" := by rfl

example : isoWeek 18630 = (2020, 53) := by decide

end Calendar

end Dash.Python
