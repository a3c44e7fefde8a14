/-!
# Double-precision numbers

A finite number is `± significand · 2 ^ exponent`.  Every operation works on the exact
rational value and rounds once, to the nearest representable number, a tie going to the even
significand, so results do not depend on the machine.
-/

namespace Chronicle

inductive Binary64 where
  | nan
  | infinity (negative : Bool)
  | finite (negative : Bool) (significand : Nat) (exponent : Int)
  deriving DecidableEq, Repr, Inhabited

/-- Nearest integer to a quotient; a tie goes to the even one. -/
def divRoundEven (num den : Nat) : Nat :=
  let quotient := num / den
  let twice := 2 * (num % den)
  if twice < den then quotient
  else if den < twice then quotient + 1
  else if quotient % 2 = 0 then quotient
  else quotient + 1

namespace Binary64

/-- Significands have at most 53 bits. -/
def significandLimit : Nat := Nat.pow 2 53

def minExponent : Int := -1074

def maxExponent : Int := 971

def zero (negative : Bool) : Binary64 := .finite negative 0 minExponent

def ratio (significand : Nat) (exponent : Int) : Nat × Nat :=
  if 0 ≤ exponent then (significand * Nat.pow 2 exponent.toNat, 1)
  else (significand, Nat.pow 2 (-exponent).toNat)

/-- Exponent at which `num / den` has a 53-bit integer part, but never a subnormal's or less. -/
def exponentFor (num den : Nat) : Int :=
  let guess : Int := (Nat.log2 num : Int) - (Nat.log2 den : Int) - 52
  let (scaledNum, scaledDen) := if 0 ≤ guess then (num, den * Nat.pow 2 guess.toNat)
    else (num * Nat.pow 2 (-guess).toNat, den)
  let exponent := if scaledNum / scaledDen < Nat.pow 2 52 then guess - 1 else guess
  max exponent minExponent

/-- Rounds the fraction `num / den` to a number; too large a magnitude becomes infinite. -/
def ofRatio (negative : Bool) (num den : Nat) : Binary64 :=
  if num = 0 then zero negative
  else
    let exponent := exponentFor num den
    let significand := if 0 ≤ exponent then divRoundEven num (den * Nat.pow 2 exponent.toNat)
      else divRoundEven (num * Nat.pow 2 (-exponent).toNat) den
    let (significand, exponent) := if significand = significandLimit
      then (Nat.pow 2 52, exponent + 1) else (significand, exponent)
    if maxExponent < exponent then .infinity negative
    else .finite negative significand exponent

def ofNat (value : Nat) : Binary64 := ofRatio false value 1

def ofInt (value : Int) : Binary64 := ofRatio (decide (value < 0)) value.natAbs 1

def isNan : Binary64 → Bool
  | .nan => true
  | _ => false

def isFinite : Binary64 → Bool
  | .finite .. => true
  | _ => false

def isZero : Binary64 → Bool
  | .finite _ significand _ => significand = 0
  | _ => false

def isNegative : Binary64 → Bool
  | .nan => false
  | .infinity negative => negative
  | .finite negative .. => negative

def neg : Binary64 → Binary64
  | .nan => .nan
  | .infinity negative => .infinity !negative
  | .finite negative significand exponent => .finite (!negative) significand exponent

/-- Integer multiple of `2 ^ minExponent` with the number's exact value. -/
def units (negative : Bool) (significand : Nat) (exponent : Int) : Int :=
  let magnitude : Int := (significand * Nat.pow 2 (exponent - minExponent).toNat : Nat)
  if negative then -magnitude else magnitude

def add : Binary64 → Binary64 → Binary64
  | .nan, _ => .nan
  | _, .nan => .nan
  | .infinity left, .infinity right => if left = right then .infinity left else .nan
  | .infinity left, _ => .infinity left
  | _, .infinity right => .infinity right
  | .finite leftSign left leftExponent, .finite rightSign right rightExponent =>
      let sum := units leftSign left leftExponent + units rightSign right rightExponent
      if sum = 0 then zero (leftSign && rightSign)
      else ofRatio (decide (sum < 0)) sum.natAbs (Nat.pow 2 (-minExponent).toNat)

def sub (left right : Binary64) : Binary64 := left.add right.neg

def mul : Binary64 → Binary64 → Binary64
  | .nan, _ => .nan
  | _, .nan => .nan
  | .infinity left, .infinity right => .infinity (left != right)
  | .infinity left, .finite right significand _ =>
      if significand = 0 then .nan else .infinity (left != right)
  | .finite left significand _, .infinity right =>
      if significand = 0 then .nan else .infinity (left != right)
  | .finite leftSign left leftExponent, .finite rightSign right rightExponent =>
      let (num, den) := ratio (left * right) (leftExponent + rightExponent)
      ofRatio (leftSign != rightSign) num den

def div : Binary64 → Binary64 → Binary64
  | .nan, _ => .nan
  | _, .nan => .nan
  | .infinity _, .infinity _ => .nan
  | .infinity left, .finite right .. => .infinity (left != right)
  | .finite left .., .infinity right => zero (left != right)
  | .finite leftSign left leftExponent, .finite rightSign right rightExponent =>
      if right = 0 then
        if left = 0 then .nan else .infinity (leftSign != rightSign)
      else
        let (num, den) := ratio left leftExponent
        let (num', den') := ratio right rightExponent
        ofRatio (leftSign != rightSign) (num * den') (den * num')

/-- Strict order of values; NaN is incomparable and the two zeros are equal. -/
def lt : Binary64 → Binary64 → Bool
  | .nan, _ => false
  | _, .nan => false
  | .infinity left, .infinity right => left && !right
  | .infinity left, .finite .. => left
  | .finite .., .infinity right => !right
  | .finite leftSign left leftExponent, .finite rightSign right rightExponent =>
      units leftSign left leftExponent < units rightSign right rightExponent

/-- Numeric equality: the two zeros are equal, and NaN equals nothing. -/
def eq : Binary64 → Binary64 → Bool
  | .infinity left, .infinity right => left = right
  | .finite leftSign left leftExponent, .finite rightSign right rightExponent =>
      units leftSign left leftExponent = units rightSign right rightExponent
  | _, _ => false

def min (left right : Binary64) : Binary64 :=
  if left.isNan then right
  else if right.lt left then right
  else left

def max (left right : Binary64) : Binary64 :=
  if left.isNan then right
  else if left.lt right then right
  else left

/-- Restricts a number to `[low, high]`; NaN stays. -/
def clamp (value low high : Binary64) : Binary64 :=
  if value.lt low then low else if high.lt value then high else value

/-- Powers by squaring, from the lowest bit of the exponent upwards, with at most `fuel` bits. -/
def powBits : Nat → Binary64 → Nat → Binary64 → Binary64
  | 0, _, _, product => product
  | fuel + 1, square, exponent, product =>
      let product := if exponent % 2 = 1 then product.mul square else product
      let rest := exponent / 2
      if rest = 0 then product else powBits fuel (square.mul square) rest product

def pow (base : Binary64) (exponent : Nat) : Binary64 :=
  powBits (exponent.log2 + 1) base exponent (ofNat 1)

end Binary64

end Chronicle
