/-!
# The calendar

Days of the proleptic Gregorian calendar, counted from the first of January of the year 0, and the
dates they fall on.
-/

namespace CertWatch.Calendar
set_option autoImplicit false

/-- Whether a year has a 29th of February. -/
def isLeap (year : Int) : Bool := year % 4 = 0 && (year % 100 ≠ 0 || year % 400 = 0)

/-- The lengths of the months of a year. -/
def monthLengths (leap : Bool) : List Nat :=
  [31, if leap then 29 else 28, 31, 30, 31, 30, 31, 31, 30, 31, 30, 31]

/-- The number of days from the first of January of the year 0 to that of another year. -/
def daysBeforeYear (year : Int) : Int :=
  365 * year + ((year - 1) / 4 - (year - 1) / 100 + (year - 1) / 400 + 1)

/-- The days of the months before month `month` (counted from 1). -/
def daysBeforeMonth (leap : Bool) (month : Nat) : Nat :=
  ((monthLengths leap).take (month - 1)).foldl (· + ·) 0

/-- The length of month `month` (counted from 1), or zero for a month that does not exist. -/
def monthLength (leap : Bool) (month : Nat) : Nat :=
  if month = 0 then 0 else (monthLengths leap).getD (month - 1) 0

/-- A day of the calendar, by year, month from 1 and day from 1. -/
structure Date where
  year : Int
  month : Nat
  day : Nat
  deriving DecidableEq, Repr

/-- Whether the calendar has the day. -/
def Date.exists (d : Date) : Bool :=
  1 ≤ d.month && d.month ≤ 12 && 1 ≤ d.day && d.day ≤ monthLength (isLeap d.year) d.month

/-- The number of the day. -/
def Date.toDays (d : Date) : Int :=
  daysBeforeYear d.year + daysBeforeMonth (isLeap d.year) d.month + d.day - 1

/-- The year in which a day falls. A cycle of four hundred years has 146097 days; within it a first
guess of 365 days a year is at most one year too late. -/
def yearOfDays (days : Int) : Int :=
  let inCycle := days % 146097
  let guess := inCycle / 365
  400 * (days / 146097) + (if daysBeforeYear guess ≤ inCycle then guess else guess - 1)

/-- The month, from `month` on, and the day in which day `n` of the listed months falls. -/
def splitMonths : List Nat → Nat → Nat → Nat × Nat
  | [], month, n => (month, n + 1)
  | length :: rest, month, n =>
    if n < length then (month, n + 1) else splitMonths rest (month + 1) (n - length)

/-- The date of a day. -/
def Date.ofDays (days : Int) : Date :=
  let year := yearOfDays days
  let (month, day) := splitMonths (monthLengths (isLeap year)) 1 (days - daysBeforeYear year).toNat
  ⟨year, month, day⟩

end CertWatch.Calendar
