import Chronicle.Json.Basic
import Chronicle.Number.Numeral

/-!
# Reading JSON text

A number without fraction and exponent is an integer if it fits 64 bits, signed or unsigned;
`-0` and every other number is a floating-point number.  A repeated key keeps its last value.
Lists and objects are read up to a limit of their depth.
-/

namespace Chronicle.Json.Reader

def isSpace (c : Char) : Bool := c = ' ' || c = '\t' || c = '\n' || c = '\r'

def skipSpaces (input : List Char) : List Char := input.dropWhile isSpace

def expect : List Char → List Char → Option (List Char)
  | [], input => some input
  | c :: literal, d :: input => if c = d then expect literal input else none
  | _ :: _, [] => none

def hexDigit? (c : Char) : Option Nat :=
  if '0' ≤ c && c ≤ '9' then some (c.toNat - '0'.toNat)
  else if 'a' ≤ c && c ≤ 'f' then some (c.toNat - 'a'.toNat + 10)
  else if 'A' ≤ c && c ≤ 'F' then some (c.toNat - 'A'.toNat + 10)
  else none

def codeUnit? : List Char → Option (Nat × List Char)
  | a :: b :: c :: d :: rest => do
      let a ← hexDigit? a
      let b ← hexDigit? b
      let c ← hexDigit? c
      let d ← hexDigit? d
      some (((a * 16 + b) * 16 + c) * 16 + d, rest)
  | _ => none

/-- The character written by `\u` escapes: one code unit, or a pair of surrogates. -/
def escapedChar? (input : List Char) : Option (Char × List Char) := do
  let (unit, rest) ← codeUnit? input
  if unit < 0xD800 || 0xE000 ≤ unit then some (Char.ofNat unit, rest)
  else if 0xDC00 ≤ unit then none
  else
    let rest ← expect ['\\', 'u'] rest
    let (low, rest) ← codeUnit? rest
    if 0xDC00 ≤ low && low < 0xE000 then
      some (Char.ofNat (0x10000 + (unit - 0xD800) * 0x400 + (low - 0xDC00)), rest)
    else none

/-- Text up to the closing quote; `fuel` bounds the number of its characters. -/
def textTail : Nat → List Char → List Char → Option (String × List Char)
  | 0, _, _ => none
  | fuel + 1, read, input =>
      match input with
      | '"' :: rest => some (String.ofList read.reverse, rest)
      | '\\' :: 'u' :: rest =>
          match escapedChar? rest with
          | some (c, rest) => textTail fuel (c :: read) rest
          | none => none
      | '\\' :: c :: rest =>
          let plain (c : Char) := textTail fuel (c :: read) rest
          match c with
          | '"' => plain '"'
          | '\\' => plain '\\'
          | '/' => plain '/'
          | 'b' => plain '\x08'
          | 'f' => plain '\x0c'
          | 'n' => plain '\n'
          | 'r' => plain '\r'
          | 't' => plain '\t'
          | _ => none
      | c :: rest => if c.toNat < 0x20 then none else textTail fuel (c :: read) rest
      | [] => none

def digitValue (c : Char) : Nat := c.toNat - '0'.toNat

def digitsValue (digits : List Char) : Nat :=
  digits.foldl (fun value c => value * 10 + digitValue c) 0

/-- Largest unsigned and least signed word. -/
def wordRange (value : Int) : Bool := -(Nat.pow 2 63 : Int) ≤ value && value < (Nat.pow 2 64 : Int)

def exponent? (input : List Char) : Option (Int × List Char) :=
  let (negative, input) := match input with
    | '-' :: rest => (true, rest)
    | '+' :: rest => (false, rest)
    | _ => (false, input)
  let digits := input.takeWhile Char.isDigit
  if digits.isEmpty then none
  else
    let magnitude : Int := digitsValue digits
    some (if negative then -magnitude else magnitude, input.dropWhile Char.isDigit)

/-- Floating-point number of a numeral; there is none if it is too large. -/
def numeralValue? (negative : Bool) (numeral : Numeral) : Option Json :=
  numeral.toBinary64?.map fun magnitude => .float (if negative then magnitude.neg else magnitude)

def number? (input : List Char) : Option (Json × List Char) := do
  let (negative, input) := match input with
    | '-' :: rest => (true, rest)
    | _ => (false, input)
  let whole := input.takeWhile Char.isDigit
  let input := input.dropWhile Char.isDigit
  if whole.isEmpty || (whole.head? = some '0' && 1 < whole.length) then none
  else
    let (fraction, hasFraction, input) := match input with
      | '.' :: rest => (rest.takeWhile Char.isDigit, true, rest.dropWhile Char.isDigit)
      | _ => ([], false, input)
    if hasFraction && fraction.isEmpty then none
    else
      let numeral := Numeral.ofDigits (whole.map digitValue) (fraction.map digitValue)
      match input with
      | 'e' :: rest | 'E' :: rest =>
          let (exponent, rest) ← exponent? rest
          let value ← numeralValue? negative (numeral.scale exponent)
          some (value, rest)
      | _ =>
          let magnitude := digitsValue whole
          let signed : Int := if negative then -(magnitude : Int) else magnitude
          if !hasFraction && wordRange signed && !(negative && magnitude = 0) then
            some (.int signed, input)
          else
            let value ← numeralValue? negative numeral
            some (value, input)

mutual

/-- A value and the rest of the input; `fuel` bounds the number of values and separators. -/
def value? : Nat → List Char → Option (Json × List Char)
  | 0, _ => none
  | fuel + 1, input =>
      match skipSpaces input with
      | 'n' :: rest => (expect ['u', 'l', 'l'] rest).map fun rest => (.null, rest)
      | 't' :: rest => (expect ['r', 'u', 'e'] rest).map fun rest => (.bool true, rest)
      | 'f' :: rest => (expect ['a', 'l', 's', 'e'] rest).map fun rest => (.bool false, rest)
      | '"' :: rest => (textTail (rest.length + 1) [] rest).map fun (s, rest) => (.text s, rest)
      | '[' :: rest =>
          match skipSpaces rest with
          | ']' :: rest => some (.list [], rest)
          | rest => (items? fuel rest).map fun (items, rest) => (.list items, rest)
      | '\x7b' :: rest =>
          match skipSpaces rest with
          | '\x7d' :: rest => some (.object [], rest)
          | rest => (fields? fuel rest).map fun (fields, rest) => (record fields, rest)
      | rest => number? rest

def items? : Nat → List Char → Option ((List Json) × List Char)
  | 0, _ => none
  | fuel + 1, input =>
      match value? fuel input with
      | none => none
      | some (item, rest) =>
          match skipSpaces rest with
          | ',' :: rest => (items? fuel rest).map fun (items, rest) => (item :: items, rest)
          | ']' :: rest => some ([item], rest)
          | _ => none

def fields? : Nat → List Char → Option ((List (String × Json)) × List Char)
  | 0, _ => none
  | fuel + 1, input =>
      match skipSpaces input with
      | '"' :: rest =>
          match textTail (rest.length + 1) [] rest with
          | none => none
          | some (key, rest) =>
              match skipSpaces rest with
              | ':' :: rest =>
                  match value? fuel rest with
                  | none => none
                  | some (value, rest) =>
                      match skipSpaces rest with
                      | ',' :: rest =>
                          (fields? fuel rest).map fun (fields, rest) => ((key, value) :: fields, rest)
                      | '\x7d' :: rest => some ([(key, value)], rest)
                      | _ => none
              | _ => none
      | _ => none

end

end Reader

mutual

def depth : Json → Nat
  | .list items => depthOfItems items + 1
  | .object fields => depthOfFields fields + 1
  | _ => 0

def depthOfItems : List Json → Nat
  | [] => 0
  | item :: rest => max (depth item) (depthOfItems rest)

def depthOfFields : List (String × Json) → Nat
  | [] => 0
  | (_, value) :: rest => max (depth value) (depthOfFields rest)

end

/-- A text with more levels of lists and objects is refused. -/
def depthLimit : Nat := 127

/-- Reads a text that holds exactly one value. -/
def parse? (text : String) : Option Json :=
  let input := text.toList
  match Reader.value? (2 * input.length + 2) input with
  | some (value, rest) =>
      if (Reader.skipSpaces rest).isEmpty && value.depth ≤ depthLimit then some value else none
  | none => none

end Chronicle.Json
