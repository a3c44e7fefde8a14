import Chronicle.Json.Basic

/-!
# Lengths of time

A span is a whole number of nanoseconds.  Records keep spans as whole milliseconds in 64 bits.
-/

namespace Chronicle

structure Span where
  nanos : Nat
  deriving DecidableEq, Repr, Inhabited

namespace Span

def zero : Span := ⟨0⟩

def ofMillis (millis : Nat) : Span := ⟨millis * 1000000⟩

def ofSeconds (seconds : Nat) : Span := ⟨seconds * 1000000000⟩

/-- Longest span: the seconds fill 64 bits. -/
def longest : Span := ⟨Nat.pow 2 64 * 1000000000 - 1⟩

def seconds (span : Span) : Nat := span.nanos / 1000000000

def isZero (span : Span) : Bool := span.nanos = 0

/-- Sum, cut off at the longest span. -/
def plus (left right : Span) : Span := ⟨min (left.nanos + right.nanos) longest.nanos⟩

def max (left right : Span) : Span := if left.nanos < right.nanos then right else left

def min (left right : Span) : Span := if right.nanos < left.nanos then right else left

/-- Whole milliseconds, rounded up. -/
def ticks (span : Span) : Nat := (span.nanos + 999999) / 1000000

/-- Seconds as a floating-point number: whole seconds and fraction are rounded separately. -/
def toBinary64 (span : Span) : Binary64 :=
  (Binary64.ofNat (span.nanos / 1000000000)).add
    ((Binary64.ofNat (span.nanos % 1000000000)).div (Binary64.ofNat 1000000000))

/-- Nearest span to a number of seconds; none for negative, too large and undefined numbers. -/
def ofBinary64? : Binary64 → Option Span
  | .finite negative significand exponent =>
      if negative && significand != 0 then none
      else
        let (num, den) := Binary64.ratio significand exponent
        let nanos := divRoundEven (num * 1000000000) den
        if longest.nanos < nanos then none else some ⟨nanos⟩
  | _ => none

/-- Milliseconds below `2 ^ 64`; longer spans wrap around. -/
def toJson (span : Span) : Json := .int (span.nanos / 1000000 % Nat.pow 2 64 : Nat)

def ofJson? : Json → Option Span
  | .int value => if 0 ≤ value && value < Nat.pow 2 64 then some (ofMillis value.toNat) else none
  | _ => none

end Span

end Chronicle
