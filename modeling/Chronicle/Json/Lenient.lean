import Chronicle.Json.Record

/-!
# Lenient reading

Values written by hand leave out what has a usual value.  Here an absent field, and one of the
wrong kind, has that value.
-/

namespace Chronicle.Json

def toText : Json → String
  | .text value => value
  | _ => ""

def toNat : Json → Nat
  | .int value => value.toNat
  | _ => 0

def isTrue : Json → Bool
  | .bool value => value
  | _ => false

def textAt (key usual : String) (value : Json) : String :=
  match value.get key with
  | .text present => present
  | _ => usual

def natAt (key : String) (usual : Nat) (value : Json) : Nat :=
  ((value.get key).word? 64).getD usual

/-- A number of which only the lowest 32 bits count. -/
def shortAt (key : String) (usual : Nat) (value : Json) : Nat := value.natAt key usual % Nat.pow 2 32

def intAt (key : String) (usual : Int) (value : Json) : Int :=
  ((value.get key).signed? 64).getD usual

def itemsAt (key : String) (value : Json) : List Json := (value.get key).items

/-- A field that is read strictly, unless it is absent or `null`. -/
def readAt (key : String) (read : Json → Option α) (usual : α) (value : Json) : Option α :=
  match value.get key with
  | .null => some usual
  | present => read present

/-- An item of a list, `null` past its end. -/
def item (index : Nat) (value : Json) : Json := value.items.getD index .null

/-- A record whose fields are replaced by those of another one. -/
def override (base changes : Json) : Json :=
  match base, changes with
  | .object fields, .object changes =>
      .object (changes.foldl (fun fields change => insertField change.1 change.2 fields) fields)
  | base, _ => base

end Chronicle.Json
