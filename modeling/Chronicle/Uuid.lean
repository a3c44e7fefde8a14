import Chronicle.Json.Reader
import Chronicle.Json.Writer
import Chronicle.Text.Digest
import Chronicle.Text.Blank

/-!
# Identifiers of 128 bits

Written in lower case with hyphens; also read without hyphens, in braces, or after `urn:uuid:`.
An identifier can be derived from a namespace and a name, and is then the same every time.
-/

namespace Chronicle

structure Uuid where
  value : Nat
  deriving DecidableEq, Repr, Inhabited

namespace Uuid

def nil : Uuid := ⟨0⟩

def hexDigits (value : Nat) : List Char :=
  (List.range 32).map fun place => Json.hexDigit (value / Nat.pow 16 (31 - place) % 16)

def bytes (uuid : Uuid) : List UInt8 :=
  (List.range 16).map fun place => (uuid.value / Nat.pow 256 (15 - place)).toUInt8

/-- Groups of eight, four, four, four and twelve digits. -/
def text (uuid : Uuid) : String :=
  let digits := hexDigits uuid.value
  let group (start count : Nat) : String := String.ofList ((digits.drop start).take count)
  "-".intercalate [group 0 8, group 8 4, group 12 4, group 16 4, group 20 12]

def ofDigits? (digits : List Char) : Option Uuid :=
  if digits.length = 32 then
    (digits.mapM Json.Reader.hexDigit?).map fun values =>
      ⟨values.foldl (fun value digit => value * 16 + digit) 0⟩
  else none

/-- Five groups of hexadecimal digits with hyphens between them. -/
def ofGroups? (input : List Char) : Option Uuid :=
  let groups := Text.splitAt '-' input
  if groups.map List.length = [8, 4, 4, 4, 12] then ofDigits? groups.flatten else none

/-- The forms with hyphens have 36 characters, which may be wrapped; the one without has 32. -/
def parse? (text : String) : Option Uuid :=
  let input := text.toList
  if input.length = 32 then ofDigits? input
  else
    match Text.strip? "urn:uuid:".toList input with
    | some rest => ofGroups? rest
    | none =>
        match input with
        | '\x7b' :: rest => if rest.getLast? = some '\x7d' then ofGroups? rest.dropLast else none
        | _ => ofGroups? input

/-- Identifier of version 5: a digest of the namespace and the name. -/
def named (space : Uuid) (name : String) : Uuid :=
  let digest := (Text.Digest.sha1 (space.bytes ++ name.toUTF8.toList)).take 16
  let marked := digest.zipIdx.map fun (byte, index) =>
    if index = 6 then (byte &&& 0x0F) ||| 0x50
    else if index = 8 then (byte &&& 0x3F) ||| 0x80
    else byte
  ⟨marked.foldl (fun value byte => value * 256 + byte.toNat) 0⟩

/-- The `number`th identifier of a numbered supply; different supplies have none in common. -/
def generated (supply number : Nat) : Uuid :=
  ⟨0x018fffffffff7000a000000000000000 + supply * Nat.pow 2 48 + number⟩

def toJson (uuid : Uuid) : Json := .text uuid.text

def ofJson? : Json → Option Uuid
  | .text value => parse? value
  | _ => none

end Uuid

end Chronicle
