import Chronicle.Number.Binary64

/-!
# Shortest decimal text

The decimal with the fewest digits that rounds to the given number, and among those with as
few digits the one nearest to it.
-/

namespace Chronicle

/-- The decimal `digits · 10 ^ exponent`. -/
structure Decimal where
  digits : Nat
  exponent : Int
  deriving DecidableEq, Repr

namespace Decimal

def ratio (decimal : Decimal) : Nat × Nat :=
  if 0 ≤ decimal.exponent then (decimal.digits * Nat.pow 10 decimal.exponent.toNat, 1)
  else (decimal.digits, Nat.pow 10 (-decimal.exponent).toNat)

def toBinary64 (negative : Bool) (decimal : Decimal) : Binary64 :=
  Binary64.ofRatio negative decimal.ratio.1 decimal.ratio.2

def width (value : Nat) : Nat := (Nat.toDigits 10 value).length

/-- Least exponent of ten that exceeds `num / den`. -/
def magnitude (num den : Nat) : Int :=
  let guess : Int := (width num : Int) - (width den : Int)
  let (scaledNum, scaledDen) := if 0 ≤ guess then (num, den * Nat.pow 10 guess.toNat)
    else (num * Nat.pow 10 (-guess).toNat, den)
  if scaledNum < scaledDen then guess else guess + 1

/--
The neighbours of `num / den` among the multiples of `10 ^ exponent`, the nearer one first.
-/
def neighbours (num den : Nat) (exponent : Int) : List Decimal :=
  let (scaledNum, scaledDen) := if 0 ≤ exponent then (num, den * Nat.pow 10 exponent.toNat)
    else (num * Nat.pow 10 (-exponent).toNat, den)
  let below := scaledNum / scaledDen
  if divRoundEven scaledNum scaledDen = below then [⟨below, exponent⟩, ⟨below + 1, exponent⟩]
  else [⟨below + 1, exponent⟩, ⟨below, exponent⟩]

/-- Tries the grids with `count`, `count + 1`, … digits. -/
def search (significand : Nat) (exponent : Int) (num den : Nat) (top : Int) :
    Nat → Nat → Decimal
  | 0, _ => ⟨significand, 0⟩
  | tries + 1, count =>
      let reads (decimal : Decimal) : Bool :=
        decimal.toBinary64 false = .finite false significand exponent
      match (neighbours num den (top - count)).find? reads with
      | some decimal => decimal
      | none => search significand exponent num den top tries (count + 1)

/-- Removes trailing zeros, of which a decimal of at most `fuel` digits has at most `fuel`. -/
def trim : Nat → Decimal → Decimal
  | 0, decimal => decimal
  | fuel + 1, decimal =>
      if decimal.digits % 10 = 0 && decimal.digits != 0 then
        trim fuel ⟨decimal.digits / 10, decimal.exponent + 1⟩
      else decimal

/-- Shortest decimal that rounds to the positive number `significand · 2 ^ exponent`. -/
def shortest (significand : Nat) (exponent : Int) : Decimal :=
  let (num, den) := Binary64.ratio significand exponent
  trim 20 (search significand exponent num den (magnitude num den) 17 1)

end Decimal

/-- Positional between `10 ^ -5` and `10 ^ 16`, scientific beyond; an integral value keeps `.0`. -/
def Decimal.text (decimal : Decimal) : String :=
  let digits := toString decimal.digits
  let count : Int := digits.length
  let point := count + decimal.exponent
  let zeros (n : Int) : String := String.ofList (List.replicate n.toNat '0')
  if 0 ≤ decimal.exponent && point ≤ 16 then digits ++ zeros decimal.exponent ++ ".0"
  else if 0 < point && point ≤ 16 then
    let chars := digits.toList
    String.ofList (chars.take point.toNat) ++ "." ++ String.ofList (chars.drop point.toNat)
  else if -5 < point && point ≤ 0 then "0." ++ zeros (-point) ++ digits
  else
    let power := point - 1
    let power := (if power < 0 then "-" else "+") ++ toString power.natAbs
    match digits.toList with
    | [digit] => digit.toString ++ "e" ++ power
    | digit :: rest => digit.toString ++ "." ++ String.ofList rest ++ "e" ++ power
    | [] => digits

/-- Text of a finite number; the others have none. -/
def Binary64.text? : Binary64 → Option String
  | .finite negative significand exponent =>
      let magnitude := if significand = 0 then "0.0" else (Decimal.shortest significand exponent).text
      some ((if negative then "-" else "") ++ magnitude)
  | _ => none

end Chronicle
