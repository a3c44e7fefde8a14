/-!
# Calendar dates

The Gregorian calendar, extended to all years.  Days are numbered from 1 January of year 1,
which has number 0 and is a Monday.
-/

namespace Chronicle

structure Date where
  year : Int
  month : Nat
  day : Nat
  deriving DecidableEq, Repr

namespace Date

def isLeap (year : Int) : Bool := year % 4 = 0 && (year % 100 != 0 || year % 400 = 0)

def monthLength (year : Int) (month : Nat) : Nat :=
  if month = 2 then (if isLeap year then 29 else 28)
  else if month = 4 || month = 6 || month = 9 || month = 11 then 30
  else 31

/-- Number of the first day of a year. -/
def daysBeforeYear (year : Int) : Int :=
  let past := year - 1
  365 * past + past / 4 - past / 100 + past / 400

/-- Days of the year before the first day of a month. -/
def daysBeforeMonth (year : Int) : Nat → Nat
  | 0 => 0
  | 1 => 0
  | month + 2 => daysBeforeMonth year (month + 1) + monthLength year (month + 1)

def number (date : Date) : Int :=
  daysBeforeYear date.year + (daysBeforeMonth date.year date.month + date.day : Nat) - 1

/-- Valid dates have a month of the year and a day of the month. -/
def isValid (date : Date) : Bool :=
  1 ≤ date.month && date.month ≤ 12 && 1 ≤ date.day && date.day ≤ monthLength date.year date.month

/-- Year that contains a day: an estimate that is off by at most one, corrected. -/
def yearOf (number : Int) : Int :=
  let estimate := number * 400 / 146097 + 1
  if number < daysBeforeYear estimate then estimate - 1
  else if daysBeforeYear (estimate + 1) ≤ number then estimate + 1
  else estimate

/-- Month and day of month of the day at an offset, counted from the first of a month. -/
def monthOf (year : Int) : Nat → Nat → Nat → Nat × Nat
  | 0, month, offset => (month, offset + 1)
  | fuel + 1, month, offset =>
      if offset < monthLength year month then (month, offset + 1)
      else monthOf year fuel (month + 1) (offset - monthLength year month)

def ofNumber (number : Int) : Date :=
  let year := yearOf number
  let (month, day) := monthOf year 11 1 (number - daysBeforeYear year).toNat
  ⟨year, month, day⟩

def weekday (number : Int) : Nat := ((number + 1) % 7).toNat

def epoch : Int := 719162

end Date

end Chronicle
