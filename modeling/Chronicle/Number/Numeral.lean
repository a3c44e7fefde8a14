import Chronicle.Number.Binary64

/-!
# Decimal numerals

How a decimal numeral becomes a floating-point number.  Its leading digits, as many as a 64-bit
word holds, are rounded once; the power of ten is rounded on its own, and the product or the
quotient of the two once more.  So a numeral of up to 15 digits and a power of ten up to `10 ^ 22`
gives the nearest number, and a longer one may give a neighbour of it.
-/

namespace Chronicle

/-- The numeral `word · 10 ^ exponent`. -/
structure Numeral where
  word : Nat
  exponent : Int
  deriving DecidableEq, Repr

namespace Numeral

def wordLimit : Nat := Nat.pow 2 64

/-- Appends digits to a word for as long as it stays below the limit, and hands back the others. -/
def append (word : Nat) : List Nat → Nat × List Nat
  | [] => (word, [])
  | digit :: rest =>
      if word * 10 + digit < wordLimit then append (word * 10 + digit) rest
      else (word, digit :: rest)

/--
A digit before the point that the word has no room for counts as a zero; such a digit after the
point is dropped.
-/
def ofDigits (whole fraction : List Nat) : Numeral :=
  let (word, skipped) := append 0 whole
  let (word, dropped) := append word fraction
  ⟨word, (skipped.length : Int) - ((fraction.length - dropped.length : Nat) : Int)⟩

def scale (numeral : Numeral) (power : Int) : Numeral :=
  ⟨numeral.word, numeral.exponent + power⟩

/-- Powers of ten up to this one are finite. -/
def maxPower : Nat := 308

def tenTo (power : Nat) : Binary64 := Binary64.ofNat (Nat.pow 10 power)

/--
Magnitude of a numeral; there is none if it is too large.  A quotient by more than the greatest
power is taken in two steps, and by more than its square it is zero.
-/
def toBinary64? (numeral : Numeral) : Option Binary64 :=
  let leading := Binary64.ofNat numeral.word
  let power := numeral.exponent.natAbs
  if numeral.word = 0 then some leading
  else if 0 ≤ numeral.exponent then
    if maxPower < power then none
    else
      let product := leading.mul (tenTo power)
      if product.isFinite then some product else none
  else if power ≤ maxPower then some (leading.div (tenTo power))
  else if power ≤ 2 * maxPower then
    some ((leading.div (tenTo maxPower)).div (tenTo (power - maxPower)))
  else some (.zero false)

theorem append_lt_wordLimit {word : Nat} (fits : word < wordLimit) (digits : List Nat) :
    (append word digits).1 < wordLimit := by
  induction digits generalizing word with
  | nil => exact fits
  | cons digit rest ih =>
      simp only [append]
      split
      · exact ih ‹_›
      · exact fits

end Numeral

end Chronicle
