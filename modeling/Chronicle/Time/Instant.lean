import Chronicle.Time.Calendar
import Chronicle.Time.Span

/-!
# Points in time

An instant is a second counted from 1970 and a number of nanoseconds.  The nanoseconds exceed a
full second only inside a leap second, which follows its last ordinary second.  Years run from
-262143 to 262142.
-/

namespace Chronicle

structure Instant where
  second : Int
  nano : Nat
  deriving DecidableEq, Repr, Inhabited

namespace Instant

def nanosPerSecond : Nat := 1000000000

def secondsPerDay : Int := 86400

def before (left right : Instant) : Prop :=
  left.second < right.second ∨ (left.second = right.second ∧ left.nano < right.nano)

def notAfter (left right : Instant) : Prop :=
  left.second < right.second ∨ (left.second = right.second ∧ left.nano ≤ right.nano)

instance : LT Instant := ⟨before⟩

instance : LE Instant := ⟨notAfter⟩

instance (left right : Instant) : Decidable (left < right) :=
  inferInstanceAs (Decidable (_ ∨ _))

instance (left right : Instant) : Decidable (left ≤ right) :=
  inferInstanceAs (Decidable (_ ∨ _))

def earliestYear : Int := -262143

def latestYear : Int := 262142

def firstSecond : Int := (Date.daysBeforeYear earliestYear - Date.epoch) * secondsPerDay

/-- First second past the last representable one. -/
def endSecond : Int := (Date.daysBeforeYear (latestYear + 1) - Date.epoch) * secondsPerDay

def ofSecond? (second : Int) (nano : Nat) : Option Instant :=
  if firstSecond ≤ second && second < endSecond then some ⟨second, nano⟩ else none

/-- The instant on a clock that does not know leap seconds. -/
def withoutLeap (instant : Instant) : Instant :=
  ⟨instant.second + instant.nano / nanosPerSecond, instant.nano % nanosPerSecond⟩

/--
Moves an instant by a signed number of nanoseconds.  A move out of a leap second forwards counts
from its last ordinary second, a move backwards by a second or more from the second after it.
-/
def shift? (instant : Instant) (nanos : Int) : Option Instant :=
  let billion : Int := nanosPerSecond
  let leap := nanosPerSecond ≤ instant.nano
  let inside := -billion < nanos && instant.nano + nanos < 2 * billion
  if leap && inside then some ⟨instant.second, (instant.nano + nanos).toNat⟩
  else
    let second := if leap && nanos < 0 then instant.second + 1 else instant.second
    let nano : Int := if leap then instant.nano - billion else instant.nano
    let total := nano + nanos
    ofSecond? (second + total / billion) (total % billion).toNat

/--
What a clock shows so many nanoseconds after an instant.  It cannot be read before 1970, nor past
the end of time.
-/
def reading? (origin : Instant) (elapsed : Nat) : Option Instant :=
  (origin.shift? elapsed).filter fun instant => 0 ≤ instant.second

/-- Longest span by which an instant can be moved: `2 ^ 63 - 1` milliseconds. -/
def longestShift : Span := .ofMillis (Nat.pow 2 63 - 1)

/-- Span used in place of one that is too long to move an instant by. -/
def century : Span := .ofSeconds (36500 * 86400)

/--
Instant after a delay.  A delay that is too long counts as a century, and past the end of time
the instant stays where it is.
-/
def after (instant : Instant) (delay : Span) : Instant :=
  let delay := if longestShift.nanos < delay.nanos then century else delay
  (instant.shift? delay.nanos).getD instant

def dayNumber (instant : Instant) : Int := instant.second / secondsPerDay + Date.epoch

def secondOfDay (instant : Instant) : Nat := (instant.second % secondsPerDay).toNat

/--
Seconds by which the difference of the second counts is off: a leap second that starts or ends
the interval is counted once more where the other end lies at a later time of day.
-/
def leapCorrection (later earlier : Instant) : Int :=
  if earlier.secondOfDay < later.secondOfDay && nanosPerSecond ≤ earlier.nano then 1
  else if later.secondOfDay < earlier.secondOfDay && nanosPerSecond ≤ later.nano then -1
  else 0

/-- Signed nanoseconds from one instant to another. -/
def nanosSince (later earlier : Instant) : Int :=
  (later.second - earlier.second + leapCorrection later earlier) * nanosPerSecond
    + later.nano - earlier.nano

/-- Time left until an instant, zero once it has passed. -/
def remaining (target now : Instant) : Span := ⟨(target.nanosSince now).toNat⟩

def date (instant : Instant) : Date := Date.ofNumber instant.dayNumber

def hour (instant : Instant) : Nat := instant.secondOfDay / 3600

def minute (instant : Instant) : Nat := instant.secondOfDay / 60 % 60

/-- Midnight at the start of a numbered day. -/
def midnight? (dayNumber : Int) : Option Instant :=
  ofSecond? ((dayNumber - Date.epoch) * secondsPerDay) 0

end Instant

end Chronicle
