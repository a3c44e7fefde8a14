import Chronicle.Json.Record

/-!
# Joining parallel work

A fan-in waits for the results of several ids.  Results may come in any order; they are handed
out in the order in which the ids were added.
-/

namespace Chronicle

structure FanIn where
  order : List String
  /-- Results by id, sorted by id. -/
  results : List (String × Json)
  deriving DecidableEq, Repr

namespace FanIn

def empty : FanIn := ⟨[], []⟩

def contains (fanIn : FanIn) (id : String) : Bool := fanIn.order.contains id

def add (fanIn : FanIn) (id : String) : FanIn :=
  if fanIn.contains id then fanIn else { fanIn with order := fanIn.order ++ [id] }

/-- Only the first result of an id that was added is accepted. -/
def accepts (fanIn : FanIn) (id : String) : Bool :=
  fanIn.contains id && (fanIn.results.lookup id).isNone

def record (fanIn : FanIn) (id : String) (result : Json) : FanIn :=
  if fanIn.accepts id then { fanIn with results := Json.insertField id result fanIn.results }
  else fanIn

def remaining (fanIn : FanIn) : Nat := fanIn.order.length - fanIn.results.length

def isComplete (fanIn : FanIn) : Bool := fanIn.remaining = 0

/-- Results in the order of addition, once all are there. -/
def collect? (fanIn : FanIn) : Option (List Json) :=
  if fanIn.isComplete then fanIn.order.mapM fun id => fanIn.results.lookup id else none

def toJson (fanIn : FanIn) : Json :=
  .record [("order", .texts fanIn.order), ("results", .object fanIn.results)]

def fields? : Json → Option (List (String × Json))
  | .object fields => some fields
  | _ => none

def ofJson? (value : Json) : Option FanIn := do
  let order ← value.required "order" (Json.listOf? Json.text?)
  let results ← value.required "results" fields?
  some ⟨order, results⟩

end FanIn

end Chronicle
