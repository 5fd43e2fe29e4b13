/-!
# The calendar

The Gregorian calendar from year 1 to year 9999. `Date.dayNumber` counts the days from 1970-01-01,
and `Date.ofDayNumber?` finds the date of a count.
-/

namespace CatalogSearch

/-- Whether February has 29 days. -/
def isLeapYear (year : Nat) : Bool := year % 4 == 0 && (year % 100 != 0 || year % 400 == 0)

/-- The number of days of a month. -/
def daysInMonth (year month : Nat) : Nat :=
  if month = 2 then (if isLeapYear year then 29 else 28)
  else if month = 4 ∨ month = 6 ∨ month = 9 ∨ month = 11 then 30
  else 31

/-- The days from 0001-01-01 to the first day of a year. -/
def daysBeforeYear (year : Nat) : Nat :=
  let y := year - 1
  365 * y + y / 4 - y / 100 + y / 400

/-- The days from the first day of a year to the first day of a month. -/
def daysBeforeMonth (year : Nat) : Nat → Nat
  | 0 => 0
  | 1 => 0
  | month + 1 => daysBeforeMonth year month + daysInMonth year month

/-- Whether the three numbers name a day of the calendar. -/
def isCalendarDay (year month day : Nat) : Bool :=
  1 ≤ year && year ≤ 9999 && 1 ≤ month && month ≤ 12 && 1 ≤ day && day ≤ daysInMonth year month

/-- A day of the calendar. -/
structure Date where
  year : Nat
  month : Nat
  day : Nat
  valid : isCalendarDay year month day = true
deriving DecidableEq

namespace Date

/-- The day that three numbers name, if they name one. -/
def of? (year month day : Nat) : Option Date :=
  if h : isCalendarDay year month day = true then some ⟨year, month, day, h⟩ else none

/-- The days from 0001-01-01 to 1970-01-01. -/
def daysBeforeEpoch : Nat := 719162

/-- The days from 1970-01-01, negative before it. -/
def dayNumber (d : Date) : Int :=
  (daysBeforeYear d.year + daysBeforeMonth d.year d.month + (d.day - 1) : Nat) - daysBeforeEpoch

/-- The year that holds the day `n` days after 0001-01-01: the quotient by the mean length of a
year is right or one too large or too small. -/
def yearOfDay (n : Nat) : Nat :=
  let y := n * 400 / 146097 + 1
  if n < daysBeforeYear y then y - 1
  else if daysBeforeYear (y + 1) ≤ n then y + 1
  else y

/-- The month that holds the day `n` days after the first day of a year. -/
def monthOfDay (year n : Nat) : Nat :=
  ((List.range 12).map (· + 1)).foldl (fun m k => if daysBeforeMonth year k ≤ n then k else m) 1

/-- The date a count of days from 1970-01-01 leads to, within the calendar. -/
def ofDayNumber? (n : Int) : Option Date :=
  let days := n + daysBeforeEpoch
  if days < 0 then none
  else
    let year := yearOfDay days.toNat
    let inYear := days.toNat - daysBeforeYear year
    let month := monthOfDay year inYear
    of? year month (inYear - daysBeforeMonth year month + 1)

end Date

end CatalogSearch
