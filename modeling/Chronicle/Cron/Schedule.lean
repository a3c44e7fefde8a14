import Chronicle.Time.Instant

/-!
# Cron schedules

A schedule fires at fixed intervals, or at the minutes whose calendar fields are all allowed.
The next fire time is searched for by skipping whole months, days and hours.
-/

namespace Chronicle

/-- Allowed values of each field: bit `v` of a mask stands for the value `v`. -/
structure CronFields where
  minutes : Nat
  hours : Nat
  daysOfMonth : Nat
  months : Nat
  /-- Sunday is 0. -/
  daysOfWeek : Nat
  /-- The text of the field is not a lone star. -/
  dayOfMonthRestricted : Bool
  dayOfWeekRestricted : Bool
  deriving DecidableEq, Repr

inductive CronSchedule where
  | calendar (fields : CronFields)
  | every (interval : Span)
  deriving DecidableEq, Repr

namespace CronFields

/-- When both day fields are restricted, one that matches is enough. -/
def allowsDay (fields : CronFields) (dayNumber : Int) (dayOfMonth : Nat) : Bool :=
  let inMonth := fields.daysOfMonth.testBit dayOfMonth
  let inWeek := fields.daysOfWeek.testBit (Date.weekday dayNumber)
  match fields.dayOfMonthRestricted, fields.dayOfWeekRestricted with
  | true, true => inMonth || inWeek
  | true, false => inMonth
  | false, true => inWeek
  | false, false => true

def nextMonth? (date : Date) : Option Instant :=
  let first : Date := if date.month = 12 then ⟨date.year + 1, 1, 1⟩ else ⟨date.year, date.month + 1, 1⟩
  Instant.midnight? first.number

def nextHour? (instant : Instant) : Option Instant :=
  Instant.ofSecond? (instant.second - instant.second % 3600 + 3600) 0

/-- First allowed minute of the hour from the instant's own minute on. -/
def minuteOfHour? (fields : CronFields) (instant : Instant) : Option Instant :=
  let candidates := (List.range 60).drop instant.minute
  (candidates.find? fields.minutes.testBit).map fun minute =>
    ⟨instant.second - instant.second % 3600 + (minute * 60 : Nat), 0⟩

/-- First allowed minute from a whole minute on; `fuel` bounds the number of skips. -/
def search (fields : CronFields) : Nat → Instant → Option Instant
  | 0, _ => none
  | fuel + 1, instant =>
      let date := instant.date
      if !fields.months.testBit date.month then (nextMonth? date).bind (search fields fuel)
      else if !fields.allowsDay instant.dayNumber date.day then
        (Instant.midnight? (instant.dayNumber + 1)).bind (search fields fuel)
      else if !fields.hours.testBit instant.hour then (nextHour? instant).bind (search fields fuel)
      else
        match fields.minuteOfHour? instant with
        | some found => some found
        | none => (nextHour? instant).bind (search fields fuel)

/-- Enough skips for any schedule that fires at all. -/
def searchLimit : Nat := 366 * 5 * 24 + 60

def nextAfter? (fields : CronFields) (instant : Instant) : Option Instant :=
  (Instant.ofSecond? (instant.second - instant.second % 60 + 60) 0).bind (search fields searchLimit)

end CronFields

namespace CronSchedule

def nextAfter? : CronSchedule → Instant → Option Instant
  | .calendar fields, instant => fields.nextAfter? instant
  | .every interval, instant =>
      if Instant.longestShift.nanos < interval.nanos then none else instant.shift? interval.nanos

end CronSchedule

end Chronicle
