/-!
# The civil calendar

Days are counted from the first of January 1970 in the proleptic Gregorian
calendar. A year that begins in March puts the leap day at its end, so that the
day of a date is a closed formula in the years and months of that year, and the
date of a day is found by division alone.

`monthsAt` counts whole months, so two days are in the same month of the same
year exactly when it agrees on them.
-/

namespace CampusRules

/-- A date of the civil calendar. -/
structure Date where
  year : Int
  month : Nat
  day : Nat
  deriving DecidableEq, Repr

namespace Calendar

/-- Whether a year has a leap day. -/
def isLeap (year : Int) : Bool :=
  year % 4 == 0 && (year % 100 != 0 || year % 400 == 0)

/-- How many days a month has. -/
def monthLength (year : Int) (month : Nat) : Nat :=
  match month with
  | 2 => if isLeap year then 29 else 28
  | 4 | 6 | 9 | 11 => 30
  | _ => 31

/-- Whether year, month and day name a date. -/
def isDate (date : Date) : Bool :=
  1 ≤ date.month && date.month ≤ 12 && 1 ≤ date.day &&
    date.day ≤ monthLength date.year date.month

/-- The days from the first of March of the year zero to the first of January
1970. -/
def epoch : Int := 719468

/-- The number of the day of a date. -/
def dayOf (date : Date) : Int :=
  let year := if date.month ≤ 2 then date.year - 1 else date.year
  let month : Int := if date.month ≤ 2 then date.month + 9 else date.month - 3
  365 * year + year / 4 - year / 100 + year / 400 + (153 * month + 2) / 5 + date.day - 1 - epoch

/-- The cycle of four hundred years that a day falls in, and the day inside it. -/
def cycleOf (day : Int) : Int × Int := ((day + epoch) / 146097, (day + epoch) % 146097)

/-- The year inside a cycle for a day inside it, years beginning in March. -/
def yearInCycle (day : Int) : Int :=
  (day - day / 1460 + day / 36524 - day / 146096) / 365

/-- The day inside a year that begins in March. -/
def dayInYear (day : Int) : Int :=
  let year := yearInCycle day
  day - (365 * year + year / 4 - year / 100)

/-- The month of a day inside a year that begins in March, counted from zero. -/
def monthInYear (day : Int) : Int := (5 * day + 2) / 153

/-- The date of a day. -/
def dateOf (day : Int) : Date :=
  let (cycle, inside) := cycleOf day
  let march := yearInCycle inside
  let inYear := dayInYear inside
  let month := monthInYear inYear
  let civilMonth := if month < 10 then month + 3 else month - 9
  ⟨400 * cycle + march + (if civilMonth ≤ 2 then 1 else 0), civilMonth.toNat,
    (inYear - (153 * month + 2) / 5 + 1).toNat⟩

/-- The months from January of the year zero to the month of a day. -/
def monthsAt (day : Int) : Int :=
  let date := dateOf day
  12 * date.year + date.month - 1

/-- The first day that a time may fall on. -/
def firstDay : Int := dayOf ⟨-262143, 1, 1⟩

/-- The last day that a time may fall on. -/
def lastDay : Int := dayOf ⟨262142, 12, 31⟩

end Calendar
end CampusRules
