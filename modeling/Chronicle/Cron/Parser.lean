import Chronicle.Cron.Schedule
import Chronicle.Text.Blank
import Chronicle.Text.Decimal

/-!
# Cron expressions

Five fields, a name such as `@daily`, or `@every` with an interval.  A field is a list of
parts; a part is a star, a number or a range, with an optional step.
-/

namespace Chronicle

inductive CronField where
  | minute
  | hour
  | dayOfMonth
  | month
  | dayOfWeek
  deriving DecidableEq, Repr

namespace CronField

def name : CronField → String
  | .minute => "minute"
  | .hour => "hour"
  | .dayOfMonth => "day-of-month"
  | .month => "month"
  | .dayOfWeek => "day-of-week"

def least : CronField → Nat
  | .minute | .hour | .dayOfWeek => 0
  | .dayOfMonth | .month => 1

/-- In the day of the week, 7 is read as Sunday. -/
def greatest : CronField → Nat
  | .minute => 59
  | .hour => 23
  | .dayOfMonth => 31
  | .month => 12
  | .dayOfWeek => 7

end CronField

inductive CronError where
  | fieldCount (found : Nat)
  | invalidField (field : CronField) (text : String)
  | invalidInterval (text : String)
  deriving DecidableEq, Repr

def CronError.message : CronError → String
  | .fieldCount found => s!"expected 5 fields, got {found}"
  | .invalidField field text => s!"invalid {field.name} field: {text}"
  | .invalidInterval text => s!"invalid interval: {text}"

namespace CronParser

/-- The values `first`, `first + step`, … up to `last`. -/
structure Part where
  first : Nat
  last : Nat
  step : Nat
  deriving DecidableEq, Repr

/-- First and last value; a bare number with a step goes up to the field's greatest value. -/
def bounds? (field : CronField) (stepped : Bool) (text : List Char) : Option (Nat × Nat) :=
  if text = ['*'] then some (field.least, field.greatest)
  else
    match Text.splitOnce? '-' text with
    | some (first, last) => do
        let first ← Text.word? 32 first
        let last ← Text.word? 32 last
        some (first, last)
    | none => do
        let value ← Text.word? 32 text
        some (value, if stepped then field.greatest else value)

def part? (field : CronField) (text : List Char) : Option Part := do
  let (range, step, stepped) ← match Text.splitOnce? '/' text with
    | some (range, step) => (Text.word? 32 step).map fun step => (range, step, true)
    | none => some (text, 1, false)
  let (first, last) ← bounds? field stepped range
  if step = 0 || first < field.least || field.greatest < last || last < first then none
  else some ⟨first, last, step⟩

/-- The value one step on, unless that is no number of 32 bits. -/
def Part.next? (part : Part) (value : Nat) : Option Nat :=
  if value + part.step < Nat.pow 2 32 then some (value + part.step) else none

/-- The values from the given one on, up to the last; `fuel` bounds the steps. -/
def Part.valuesFrom (part : Part) : Nat → Nat → List Nat
  | 0, _ => []
  | fuel + 1, value =>
      if part.last < value then []
      else
        match part.next? value with
        | some next => value :: part.valuesFrom fuel next
        | none => [value]

/-- Every step moves on by one at least. -/
def Part.values (part : Part) : List Nat := part.valuesFrom (part.last + 1 - part.first) part.first

def maskOf (values : List Nat) : Nat := values.foldl (fun mask value => mask ||| 1 <<< value) 0

def field? (field : CronField) (text : List Char) : Except CronError Nat :=
  match (Text.splitAt ',' text).mapM (part? field) with
  | some parts => .ok (maskOf (parts.flatMap Part.values))
  | none => .error (.invalidField field (String.ofList text))

def foldSunday (mask : Nat) : Nat := if mask.testBit 7 then (mask ||| 1) % 128 else mask

def fields? (words : List (List Char)) : Except CronError CronFields := do
  match words with
  | [minute, hour, dayOfMonth, month, dayOfWeek] =>
      let daysOfWeek ← field? .dayOfWeek dayOfWeek
      let minutes ← field? .minute minute
      let hours ← field? .hour hour
      let daysOfMonth ← field? .dayOfMonth dayOfMonth
      let months ← field? .month month
      .ok ⟨minutes, hours, daysOfMonth, months, foldSunday daysOfWeek, dayOfMonth != ['*'],
        dayOfWeek != ['*']⟩
  | _ => .error (.fieldCount words.length)

/-- A count of milliseconds, seconds, minutes or hours; neither zero nor beyond 64 bits. -/
def interval? (text : List Char) : Except CronError Span :=
  let invalid : Except CronError Span := .error (.invalidInterval (String.ofList text))
  let digits := text.takeWhile Char.isDigit
  let unit := String.ofList (text.dropWhile Char.isDigit)
  let whole (seconds : Nat) : Except CronError Span :=
    match Text.word? 64 digits with
    | some count =>
        if count = 0 || Nat.pow 2 64 ≤ count * seconds then invalid
        else .ok (.ofSeconds (count * seconds))
    | none => invalid
  match unit with
  | "ms" =>
      match Text.word? 64 digits with
      | some count => if count = 0 then invalid else .ok (.ofMillis count)
      | none => invalid
  | "s" => whole 1
  | "m" => whole 60
  | "h" => whole 3600
  | _ => invalid

def expandName (text : List Char) : List Char :=
  match String.ofList text with
  | "@yearly" | "@annually" => "0 0 1 1 *".toList
  | "@monthly" => "0 0 1 * *".toList
  | "@weekly" => "0 0 * * 0".toList
  | "@daily" | "@midnight" => "0 0 * * *".toList
  | "@hourly" => "0 * * * *".toList
  | _ => text

end CronParser

def CronSchedule.parse (expression : String) : Except CronError CronSchedule :=
  let text := Text.trim expression.toList
  match Text.strip? "@every".toList text with
  | some interval => (CronParser.interval? (Text.trim interval)).map .every
  | none => (CronParser.fields? (Text.words (CronParser.expandName text))).map .calendar

end Chronicle
