/-!
# Unsigned decimal numbers in text

One or more ASCII digits after an optional plus sign.
-/

namespace Chronicle.Text

def digitsToNat (digits : List Char) : Nat :=
  digits.foldl (fun value c => value * 10 + (c.toNat - '0'.toNat)) 0

def unsigned? (input : List Char) : Option Nat :=
  let digits := match input with
    | '+' :: rest => rest
    | _ => input
  if !digits.isEmpty && digits.all Char.isDigit then some (digitsToNat digits) else none

def word? (bits : Nat) (input : List Char) : Option Nat :=
  match unsigned? input with
  | some value => if value < Nat.pow 2 bits then some value else none
  | none => none

/-- Decimal digits of a number, with zeros in front up to the given width. -/
def padded (width value : Nat) : String :=
  let digits := toString value
  String.ofList (List.replicate (width - digits.length) '0') ++ digits

end Chronicle.Text
