/-!
# The calendar

Days of the proleptic Gregorian calendar, counted from the first of January 1970.
-/

namespace DocMapper

/-- A day of the calendar. -/
structure CalendarDay where
  year : Int
  month : Nat
  day : Nat
deriving DecidableEq, Repr

namespace CalendarDay

/-- Whether a year has 366 days. -/
def isLeapYear (year : Int) : Bool :=
  year % 4 == 0 && (year % 100 != 0 || year % 400 == 0)

/-- The number of days in a month. -/
def daysInMonth (year : Int) (month : Nat) : Nat :=
  if month = 2 then if isLeapYear year then 29 else 28
  else if month = 4 ∨ month = 6 ∨ month = 9 ∨ month = 11 then 30
  else 31

/-- The day of a year, a month and a day of the month, if there is one. -/
def of? (year : Int) (month day : Nat) : Option CalendarDay :=
  if -262143 ≤ year ∧ year ≤ 262142 ∧ 1 ≤ month ∧ month ≤ 12 ∧ 1 ≤ day ∧
      day ≤ daysInMonth year month then
    some ⟨year, month, day⟩
  else none

/-- The number of days between the start of 1970 and the start of a year. -/
def daysBeforeYear (year : Int) : Int :=
  let y := year - 1
  365 * (year - 1970) + (y / 4 - y / 100 + y / 400) - (1969 / 4 - 1969 / 100 + 1969 / 400)

/-- The number of days of a year before a month. -/
def daysBeforeMonth (year : Int) : Nat → Nat
  | 0 => 0
  | 1 => 0
  | month + 1 => daysBeforeMonth year month + daysInMonth year month

/-- Days since the first of January 1970. -/
def toEpochDay (d : CalendarDay) : Int :=
  daysBeforeYear d.year + daysBeforeMonth d.year d.month + (d.day - 1 : Nat)

/-- The year that a day counted from 1970 falls in; the mean length of a year gives it up to
    one. -/
def yearOfEpochDay (n : Int) : Int :=
  let guess := (400 * n) / 146097 + 1970
  if n < daysBeforeYear guess then guess - 1
  else if daysBeforeYear (guess + 1) ≤ n then guess + 1
  else guess

/-- The month and day of the month of a day counted from the start of a month. -/
def monthAndDay (year : Int) : Nat → Nat → Nat → Nat × Nat
  | 0, month, n => (month, n + 1)
  | fuel + 1, month, n =>
    if n < daysInMonth year month then (month, n + 1)
    else monthAndDay year fuel (month + 1) (n - daysInMonth year month)

/-- The day that is a number of days after the first of January 1970. -/
def ofEpochDay (n : Int) : CalendarDay :=
  let year := yearOfEpochDay n
  let (month, day) := monthAndDay year 11 1 (n - daysBeforeYear year).toNat
  ⟨year, month, day⟩

example : toEpochDay ⟨1970, 1, 1⟩ = 0 := by decide
example : toEpochDay ⟨2024, 2, 29⟩ = 19782 := by decide
example : ofEpochDay 19782 = ⟨2024, 2, 29⟩ := by decide
example : ofEpochDay (-1) = ⟨1969, 12, 31⟩ := by decide

end CalendarDay

end DocMapper
