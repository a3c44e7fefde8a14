import Chronicle.Number.Binary64

/-!
# JSON values

Integers of 64 bits, signed or unsigned, are kept apart from floating-point numbers.  The
fields of an object are listed in the order of their keys, each key once; `Json.record`
establishes that order.
-/

namespace Chronicle

inductive Json where
  | null
  | bool (value : Bool)
  | int (value : Int)
  | float (value : Binary64)
  | text (value : String)
  | list (items : List Json)
  | object (fields : List (String × Json))
  deriving Repr, Inhabited

namespace Json

/-! ## Decidable equality -/

mutual

def decEq : (left right : Json) → Decidable (left = right)
  | .null, right =>
      match right with
      | .null => isTrue rfl
      | .bool _ | .int _ | .float _ | .text _ | .list _ | .object _ => isFalse (by simp)
  | .bool x, right =>
      match right with
      | .bool y => if h : x = y then isTrue (h ▸ rfl) else isFalse (by simp [h])
      | .null | .int _ | .float _ | .text _ | .list _ | .object _ => isFalse (by simp)
  | .int x, right =>
      match right with
      | .int y => if h : x = y then isTrue (h ▸ rfl) else isFalse (by simp [h])
      | .null | .bool _ | .float _ | .text _ | .list _ | .object _ => isFalse (by simp)
  | .float x, right =>
      match right with
      | .float y => if h : x = y then isTrue (h ▸ rfl) else isFalse (by simp [h])
      | .null | .bool _ | .int _ | .text _ | .list _ | .object _ => isFalse (by simp)
  | .text x, right =>
      match right with
      | .text y => if h : x = y then isTrue (h ▸ rfl) else isFalse (by simp [h])
      | .null | .bool _ | .int _ | .float _ | .list _ | .object _ => isFalse (by simp)
  | .list x, right =>
      match right with
      | .list y =>
          match decEqItems x y with
          | isTrue h => isTrue (h ▸ rfl)
          | isFalse h => isFalse (by simp [h])
      | .null | .bool _ | .int _ | .float _ | .text _ | .object _ => isFalse (by simp)
  | .object x, right =>
      match right with
      | .object y =>
          match decEqFields x y with
          | isTrue h => isTrue (h ▸ rfl)
          | isFalse h => isFalse (by simp [h])
      | .null | .bool _ | .int _ | .float _ | .text _ | .list _ => isFalse (by simp)

def decEqItems : (left right : List Json) → Decidable (left = right)
  | [], [] => isTrue rfl
  | [], _ :: _ => isFalse (by simp)
  | _ :: _, [] => isFalse (by simp)
  | x :: xs, y :: ys =>
      match decEq x y, decEqItems xs ys with
      | isTrue h, isTrue t => isTrue (by rw [h, t])
      | isFalse h, _ => isFalse (by simp [h])
      | _, isFalse t => isFalse (by simp [t])

def decEqFields : (left right : List (String × Json)) → Decidable (left = right)
  | [], [] => isTrue rfl
  | [], _ :: _ => isFalse (by simp)
  | _ :: _, [] => isFalse (by simp)
  | (k, x) :: xs, (l, y) :: ys =>
      if hk : k = l then
        match decEq x y, decEqFields xs ys with
        | isTrue h, isTrue t => isTrue (by rw [hk, h, t])
        | isFalse h, _ => isFalse (by simp [h])
        | _, isFalse t => isFalse (by simp [t])
      else isFalse (by simp [hk])

end

instance : DecidableEq Json := decEq

/-! ## Numeric equality -/

mutual

/-- Equality that compares floating-point numbers by value, so that the two zeros agree. -/
def agrees : Json → Json → Bool
  | .null, .null => true
  | .bool x, .bool y => x = y
  | .int x, .int y => x = y
  | .float x, .float y => x.eq y
  | .text x, .text y => x = y
  | .list xs, .list ys => agreesItems xs ys
  | .object xs, .object ys => agreesFields xs ys
  | _, _ => false

def agreesItems : List Json → List Json → Bool
  | [], [] => true
  | x :: xs, y :: ys => agrees x y && agreesItems xs ys
  | _, _ => false

def agreesFields : List (String × Json) → List (String × Json) → Bool
  | [], [] => true
  | (k, x) :: xs, (l, y) :: ys => k = l && agrees x y && agreesFields xs ys
  | _, _ => false

end

/-! ## Objects -/

/-- Adds a field at the place of its key, where it replaces an earlier value. -/
def insertField (key : String) (value : Json) : List (String × Json) → List (String × Json)
  | [] => [(key, value)]
  | (other, existing) :: rest =>
      if key < other then (key, value) :: (other, existing) :: rest
      else if key = other then (key, value) :: rest
      else (other, existing) :: insertField key value rest

/-- Object with the given fields, the last one winning where a key is repeated. -/
def record (fields : List (String × Json)) : Json :=
  .object (fields.foldl (fun sorted field => insertField field.1 field.2 sorted) [])

def field? (key : String) : Json → Option Json
  | .object fields => fields.lookup key
  | _ => none

/-- Field of an object, `null` where there is none. -/
def get (value : Json) (key : String) : Json := (value.field? key).getD .null

def isNull : Json → Bool
  | .null => true
  | _ => false

/-- Items of a list; any other value has none. -/
def items : Json → List Json
  | .list items => items
  | _ => []

/-- Integers are written as such only in the joint range of 64-bit signed and unsigned words. -/
def ofNat (value : Nat) : Json := .int value

/-- Numbers that are not finite are written as `null`. -/
def ofFloat (value : Binary64) : Json := if value.isFinite then .float value else .null

def ofOption (encode : α → Json) : Option α → Json
  | some value => encode value
  | none => .null

/-- A payload that may be absent is written as itself or as `null`. -/
def orNull (value : Option Json) : Json := value.getD .null

/-- A payload that may be absent reads `null` as absence. -/
def nonNull? : Json → Option Json
  | .null => none
  | value => some value

end Json

end Chronicle
