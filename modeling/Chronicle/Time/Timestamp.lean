import Chronicle.Time.Instant
import Chronicle.Text.Blank
import Chronicle.Text.Decimal

/-!
# Timestamps in text

Date, time of day and offset from UTC.  Written in UTC with the fewest of 0, 3, 6 or 9 digits of
a second that are exact.  The reader also takes short fields, blanks around them, a lower-case
or blank separator, any offset below a day, and a sixtieth second.
-/

namespace Chronicle.Timestamp

/-! ## Writing -/

/-- Years of four digits stand alone, all others carry a sign. -/
def yearText (year : Int) : String :=
  if 0 ≤ year && year ≤ 9999 then Text.padded 4 year.toNat
  else (if year < 0 then "-" else "+") ++ Text.padded 4 year.natAbs

def fractionText (nano : Nat) : String :=
  if nano = 0 then ""
  else if nano % 1000000 = 0 then "." ++ Text.padded 3 (nano / 1000000)
  else if nano % 1000 = 0 then "." ++ Text.padded 6 (nano / 1000)
  else "." ++ Text.padded 9 nano

def text (instant : Instant) : String :=
  let date := instant.date
  let leap := if Instant.nanosPerSecond ≤ instant.nano then 1 else 0
  let second := instant.secondOfDay % 60 + leap
  yearText date.year ++ "-" ++ Text.padded 2 date.month ++ "-" ++ Text.padded 2 date.day ++ "T" ++
    Text.padded 2 instant.hour ++ ":" ++ Text.padded 2 instant.minute ++ ":" ++
    Text.padded 2 second ++ fractionText (instant.nano % Instant.nanosPerSecond) ++ "Z"

/-! ## Reading -/

/-- A number of at least one and at most `limit` digits, and the rest of the input. -/
def number? (limit : Nat) (input : List Char) : Option (Nat × List Char) :=
  let digits := (input.takeWhile Char.isDigit).take limit
  if digits.isEmpty then none else some (Text.digitsToNat digits, input.drop digits.length)

/-- A number after optional blanks, in the given range. -/
def field? (low high : Nat) (input : List Char) : Option (Nat × List Char) :=
  match number? 2 (Text.trimLeft input) with
  | some (value, rest) => if low ≤ value && value ≤ high then some (value, rest) else none
  | none => none

/-- A year of up to four digits, or of any number of digits after a sign. -/
def year? (input : List Char) : Option (Int × List Char) :=
  match Text.trimLeft input with
  | '-' :: rest => (number? rest.length rest).map fun (value, rest) => (-(value : Int), rest)
  | '+' :: rest => (number? rest.length rest).map fun (value, rest) => ((value : Int), rest)
  | rest => (number? 4 rest).map fun (value, rest) => ((value : Int), rest)

/-- A separator after optional blanks. -/
def separator? (separator : Char) (input : List Char) : Option (List Char) :=
  match Text.trimLeft input with
  | c :: rest => if c = separator then some rest else none
  | [] => none

/-- The mark between date and time of day. -/
def timeMark? : List Char → Option (List Char)
  | 'T' :: rest | 't' :: rest | ' ' :: rest => some rest
  | _ => none

/-- Nanoseconds after a decimal point; digits beyond the ninth are dropped. -/
def fraction? : List Char → Option (Nat × List Char)
  | '.' :: rest =>
      match number? 9 rest with
      | some (value, after) =>
          let count := rest.length - after.length
          some (value * Nat.pow 10 (9 - count), after.dropWhile Char.isDigit)
      | none => none
  | rest => some (0, rest)

def twoDigits? : List Char → Option (Nat × List Char)
  | a :: b :: rest =>
      if a.isDigit && b.isDigit then some (Text.digitsToNat [a, b], rest) else none
  | _ => none

/-- Seconds east of UTC after the sign. -/
def offsetMagnitude? (input : List Char) : Option (Int × List Char) := do
  let (hours, input) ← twoDigits? input
  let input := input.dropWhile fun c => c = ':' || Text.isBlank c
  let (minutes, input) ← twoDigits? input
  if minutes < 60 then some (((hours * 3600 + minutes * 60 : Nat) : Int), input) else none

def offset? (input : List Char) : Option (Int × List Char) :=
  let upper := (input.take 3).map Char.toUpper
  if upper = ['U', 'T', 'C'] then some (0, input.drop 3)
  else
    match input with
    | 'Z' :: rest | 'z' :: rest => some (0, rest)
    | '+' :: rest => offsetMagnitude? rest
    | '-' :: rest | '−' :: rest =>
        (offsetMagnitude? rest).map fun (offset, rest) => (-offset, rest)
    | _ => none

def parse? (text : String) : Option Instant := do
  let (year, input) ← year? text.toList
  let input ← separator? '-' input
  let (month, input) ← field? 1 12 input
  let input ← separator? '-' input
  let (day, input) ← field? 1 31 input
  let input ← timeMark? input
  let (hour, input) ← field? 0 23 input
  let input ← separator? ':' input
  let (minute, input) ← field? 0 59 input
  let input ← separator? ':' input
  let (second, input) ← field? 0 60 input
  let (nano, input) ← fraction? input
  let (offset, input) ← offset? (Text.trimLeft input)
  let date : Date := ⟨year, month, day⟩
  if !(Text.trimLeft input).isEmpty || !date.isValid || 86400 ≤ offset.natAbs then none
  else
    let leap := second = 60
    let secondOfDay := hour * 3600 + minute * 60 + (if leap then 59 else second)
    let wall := (date.number - Date.epoch) * Instant.secondsPerDay + (secondOfDay : Nat)
    let _ ← Instant.ofSecond? wall 0
    Instant.ofSecond? (wall - offset) (if leap then nano + Instant.nanosPerSecond else nano)

end Chronicle.Timestamp

namespace Chronicle.Instant

def toJson (instant : Instant) : Json := .text (Timestamp.text instant)

def ofJson? : Json → Option Instant
  | .text value => Timestamp.parse? value
  | _ => none

end Chronicle.Instant
