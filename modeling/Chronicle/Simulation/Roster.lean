import Chronicle.Store.Task
import Chronicle.Text.Decimal

/-!
# Short names

Identifiers are drawn from supplies that say nothing to a reader.  A roster gives them short
names: `#n` for the `n`th run of a workflow id, `task-n` for the `n`th task that a step was given.
-/

namespace Chronicle

structure Roster where
  /-- Runs in the order of their creation. -/
  runs : List RunRef
  /-- Tasks in the order in which steps were first given them. -/
  tasks : List Uuid
  deriving DecidableEq, Repr

namespace Roster

def empty : Roster := ⟨[], []⟩

def addRun (roster : Roster) (ref : RunRef) : Roster := { roster with runs := roster.runs ++ [ref] }

def addTask (roster : Roster) (taskId : Uuid) : Roster :=
  if roster.tasks.contains taskId then roster else { roster with tasks := roster.tasks ++ [taskId] }

def runsOf (roster : Roster) (workflowId : String) : List Uuid :=
  (roster.runs.filter fun ref => ref.workflowId = workflowId).map RunRef.runId

/-! ## From names to identifiers -/

/-- Splits `id#n` at the last mark. -/
def splitLabel? (label : String) : Option (String × Nat) :=
  let reversed := label.toList.reverse
  let digits := (reversed.takeWhile fun c => c != '#').reverse
  match reversed.dropWhile fun c => c != '#' with
  | _ :: before =>
      (Text.unsigned? digits).map fun number => (String.ofList before.reverse, number)
  | [] => none

def numbered? (roster : Roster) (workflowId : String) (number : Nat) : Option Uuid :=
  if number = 0 then none else (roster.runsOf workflowId)[number - 1]?

/-- The run named `id#n`, or the latest one of a workflow id; an unknown run has the nil id. -/
def resolve (roster : Roster) (label : String) : RunRef :=
  match splitLabel? label with
  | some (workflowId, number) => ⟨workflowId, (roster.numbered? workflowId number).getD .nil⟩
  | none => ⟨label, (roster.runsOf label).getLast?.getD .nil⟩

/-- Text that stands for the id of the run that `@id#n` names. -/
def expandText (roster : Roster) (text : String) : String :=
  match text.toList with
  | '@' :: label =>
      if (splitLabel? (String.ofList label)).isSome
      then (roster.resolve (String.ofList label)).runId.text else text
  | _ => text

mutual

/-- Replaces names in all texts of a value. -/
def expand (roster : Roster) : Json → Json
  | .text text => .text (roster.expandText text)
  | .list items => .list (expandItems roster items)
  | .object fields => .object (expandFields roster fields)
  | value => value

def expandItems (roster : Roster) : List Json → List Json
  | [] => []
  | item :: rest => expand roster item :: expandItems roster rest

def expandFields (roster : Roster) : List (String × Json) → List (String × Json)
  | [] => []
  | (key, value) :: rest => (key, expand roster value) :: expandFields roster rest

end

/-! ## From identifiers to names -/

def runName? (roster : Roster) (runId : Uuid) : Option String :=
  (roster.runs.find? fun ref => ref.runId = runId).map fun ref =>
    "#" ++ toString ((roster.runsOf ref.workflowId).idxOf runId + 1)

def taskName? (roster : Roster) (taskId : Uuid) : Option String :=
  if roster.tasks.contains taskId then some ("task-" ++ toString (roster.tasks.idxOf taskId + 1))
  else none

def name? (roster : Roster) (id : Uuid) : Option String :=
  if id = .nil then none else (roster.runName? id).or (roster.taskName? id)

def idLength : Nat := 36

def leadingName? (roster : Roster) (input : List Char) : Option String :=
  if (input.drop 8).head? = some '-' then
    let written := String.ofList (input.take idLength)
    match Uuid.parse? written with
    | some id => if id.text = written then roster.name? id else none
    | none => none
  else none

/-- Replaces identifiers by names, from left to right; the number bounds the replacements. -/
def abbreviateChars (roster : Roster) : Nat → List Char → List Char
  | 0, input => input
  | _, [] => []
  | limit + 1, c :: rest =>
      match roster.leadingName? (c :: rest) with
      | some name => name.toList ++ abbreviateChars roster limit ((c :: rest).drop idLength)
      | none => c :: abbreviateChars roster limit rest

def abbreviateText (roster : Roster) (text : String) : String :=
  String.ofList (roster.abbreviateChars text.length text.toList)

mutual

def abbreviate (roster : Roster) : Json → Json
  | .text text => .text (roster.abbreviateText text)
  | .list items => .list (abbreviateItems roster items)
  | .object fields => .object (abbreviateFields roster fields)
  | value => value

def abbreviateItems (roster : Roster) : List Json → List Json
  | [] => []
  | item :: rest => abbreviate roster item :: abbreviateItems roster rest

def abbreviateFields (roster : Roster) : List (String × Json) → List (String × Json)
  | [] => []
  | (key, value) :: rest => (key, abbreviate roster value) :: abbreviateFields roster rest

end

end Roster

end Chronicle
