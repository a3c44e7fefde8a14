import Chronicle.Json.Basic

/-!
# Reading records

A record is an object.  A field is required, optional (absent or `null`), or defaulted (absent,
but not `null`); fields that the record does not know are ignored.
-/

namespace Chronicle.Json

def required (key : String) (read : Json → Option α) (value : Json) : Option α :=
  (value.field? key).bind read

def optional (key : String) (read : Json → Option α) (value : Json) : Option (Option α) :=
  match value.field? key with
  | none => some none
  | some .null => some none
  | some present => (read present).map some

def defaulted (key : String) (default : α) (read : Json → Option α) (value : Json) : Option α :=
  match value.field? key with
  | none => some default
  | some present => read present

/-- Any value, also `null`. -/
def any? (value : Json) : Option Json := some value

def bool? : Json → Option Bool
  | .bool value => some value
  | _ => none

def text? : Json → Option String
  | .text value => some value
  | _ => none

def word? (bits : Nat) : Json → Option Nat
  | .int value => if 0 ≤ value && value < Nat.pow 2 bits then some value.toNat else none
  | _ => none

def signed? (bits : Nat) : Json → Option Int
  | .int value =>
      let limit : Int := Nat.pow 2 (bits - 1)
      if -limit ≤ value && value < limit then some value else none
  | _ => none

/-- JSON has no numbers that are not finite. -/
def finite? (value : Binary64) : Option Binary64 := if value.isFinite then some value else none

def number? : Json → Option Binary64
  | .int value => finite? (.ofInt value)
  | .float value => finite? value
  | _ => none

def readItems (read : Json → Option α) : List Json → Option (List α)
  | [] => some []
  | item :: rest =>
      match read item, readItems read rest with
      | some value, some values => some (value :: values)
      | _, _ => none

def listOf? (read : Json → Option α) : Json → Option (List α)
  | .list items => readItems read items
  | _ => none

def texts? : Json → Option (List String) := listOf? text?

def isObject : Json → Bool
  | .object _ => true
  | _ => false

def ofName? (values : List α) (name : α → String) (written : String) : Option α :=
  values.find? fun value => name value = written

/--
Finds one of several values by its name.  The name is a text, or the only key of an object in
which `null` stands for the content that such a value does not have.
-/
def oneOf? (values : List α) (name : α → String) : Json → Option α
  | .text written => ofName? values name written
  | .object [(written, .null)] => ofName? values name written
  | _ => none

/-- Within a record that is tagged with its type, an empty object may stand in place of `null`. -/
def taggedOneOf? (values : List α) (name : α → String) : Json → Option α
  | .object [(written, .object [])] => ofName? values name written
  | value => oneOf? values name value

def texts (values : List String) : Json := .list (values.map .text)

end Chronicle.Json
