import Chronicle.Workflow.Definition
import Chronicle.Workflow.FanIn

/-!
# Scripted workflows

A workflow whose input is its program.  For each kind of stimulus, and for the id it concerns,
the script lists instructions: commands to return, a failure, a panic, changes of variables and
of one fan-in, and branches.  Every stimulus is also written to a trace.
-/

namespace Chronicle.Samples

structure Script where
  program : Json
  vars : List (String × Json)
  fan : FanIn
  trace : List Json
  deriving DecidableEq, Repr

namespace Script

/-- The program that a workflow built at the given version runs. -/
def select (version : Nat) (input : Json) : Json :=
  match (input.get "versions").items with
  | [] => input
  | first :: rest => (first :: rest).getD (min version rest.length) .null

def create (version : Nat) (input : Json) : Script :=
  let program := select version input
  let vars := match program.get "vars" with
    | .object fields => fields
    | _ => []
  ⟨program, vars, .empty, []⟩

/-! ## Stimuli -/

/-- Name of the handler, the id it concerns, and its payload. -/
def describe : Stimulus → String × String × Json
  | .started => ("start", "", .null)
  | .activityCompleted activityId result => ("completed", activityId, result)
  | .activityFailed activityId failure => ("failed", activityId, failure.toJson)
  | .timerFired timerId => ("timer", timerId, .null)
  | .signalled signal => ("signal", signal.name, signal.payload)
  | .conditionResolved conditionId outcome => ("condition", conditionId, outcome.toJson)
  | .childCompleted workflowId result => ("child_completed", workflowId, result)
  | .childFailed workflowId failure => ("child_failed", workflowId, failure.toJson)
  | .cancelRequested reason => ("cancel", "", .text reason)

/--
Instructions for a handler: one list for all ids, or one for each id, `*` for the others.  An
entry for an id that is no list has no instructions.
-/
def instructions? (program : Json) (handler id : String) : Option (List Json) :=
  match program.get handler with
  | .list items => some items
  | .object fields =>
      ((fields.lookup id).or (fields.lookup "*")).map Json.items
  | _ => none

def traceEntry (context : Context) (handler id : String) (payload : Json) : Json :=
  .record [("h", .text handler), ("id", .text id), ("p", payload),
    ("e", .ofNat context.eventId), ("t", context.now.toJson), ("r", .bool context.replaying),
    ("a", .ofNat context.attempt)]

def contextRecord (context : Context) : Json :=
  .record [("workflow_id", .text context.run.workflowId), ("run_id", context.run.runId.toJson),
    ("instance", context.run.toJson), ("workflow_type", .text context.workflowType),
    ("attempt", .ofNat context.attempt), ("event_id", .ofNat context.eventId),
    ("now", context.now.toJson), ("replaying", .bool context.replaying)]

/-! ## Substitution -/

structure Scope where
  context : Context
  id : String
  payload : Json

def afterMarker? (marker text : String) : Option String :=
  let marker := marker.toList
  if marker.isPrefixOf text.toList then some (String.ofList (text.toList.drop marker.length))
  else none

/-- Value of a text, and the number of identifiers drawn so far. -/
def substituteText (scope : Scope) (script : Script) (drawn : Nat) (text : String) : Json × Nat :=
  match text with
  | "$id" => (.text scope.id, drawn)
  | "$payload" => (scope.payload, drawn)
  | "$uuid" => ((scope.context.freshUuid drawn).toJson, drawn + 1)
  | "$fan" =>
      match script.fan.collect? with
      | some results => (.list results, drawn)
      | none => (.null, drawn)
  | "$ctx" => (contextRecord scope.context, drawn)
  | text =>
      match afterMarker? "$var:" text with
      | some name => ((script.vars.lookup name).getD .null, drawn)
      | none => (.text text, drawn)

mutual

def substitute (scope : Scope) (script : Script) (drawn : Nat) : Json → Json × Nat
  | .text text => substituteText scope script drawn text
  | .list items =>
      let (items, drawn) := substituteItems scope script drawn items
      (.list items, drawn)
  | .object fields =>
      let (fields, drawn) := substituteFields scope script drawn fields
      (.object fields, drawn)
  | value => (value, drawn)

def substituteItems (scope : Scope) (script : Script) (drawn : Nat) :
    List Json → List Json × Nat
  | [] => ([], drawn)
  | item :: rest =>
      let (item, drawn) := substitute scope script drawn item
      let (rest, drawn) := substituteItems scope script drawn rest
      (item :: rest, drawn)

def substituteFields (scope : Scope) (script : Script) (drawn : Nat) :
    List (String × Json) → List (String × Json) × Nat
  | [] => ([], drawn)
  | (key, value) :: rest =>
      let (value, drawn) := substitute scope script drawn value
      let (rest, drawn) := substituteFields scope script drawn rest
      ((key, value) :: rest, drawn)

end

/-! ## Instructions -/

def textOf : Json → String
  | .text value => value
  | _ => ""

/-- A condition on the fan-in, or one that a variable has a value; an unset variable is `null`. -/
def holds (script : Script) (condition : Json) : Bool :=
  match condition with
  | .bool value => value
  | .object _ =>
      match condition.get "fan_complete" with
      | .bool expected => script.fan.isComplete = expected
      | _ =>
          let name := textOf (condition.get "var")
          ((script.vars.lookup name).getD .null).agrees (condition.get "is")
  | _ => false

/-- A signed 64-bit integer, zero for any other value. -/
def integerOf (value : Json) : Int := (value.signed? 64).getD 0

def setVar (script : Script) (name : String) (value : Json) : Script :=
  { script with vars := Json.insertField name value script.vars }

/-- Sums wrap around at 64 bits. -/
def increase (script : Script) (name : String) (amount : Json) : Script :=
  let sum := integerOf ((script.vars.lookup name).getD .null) + integerOf amount
  script.setVar name (.int (Int.bmod sum (Nat.pow 2 64)))

def push (script : Script) (name : String) (value : Json) : Script :=
  match script.vars.lookup name with
  | none => script.setVar name (.list [value])
  | some (.list items) => script.setVar name (.list (items ++ [value]))
  | some _ => script

/-- A text or nothing stands for itself, any other payload has no text. -/
def panicOf : Json → Panic
  | .text message => ⟨some message⟩
  | .null => ⟨some "static panic"⟩
  | _ => ⟨none⟩

/-- State of a handler while it runs: script, commands so far, identifiers drawn. -/
structure Progress where
  script : Script
  commands : List Command
  drawn : Nat

inductive Halt where
  | failed (failure : Failure) (progress : Progress)
  | panicked (panic : Panic)

def runSimple (scope : Scope) (progress : Progress) (instruction : Json) : Except Halt Progress :=
  let value (key : String) : Json × Progress :=
    let (value, drawn) := substitute scope progress.script progress.drawn (instruction.get key)
    (value, { progress with drawn := drawn })
  let has (key : String) : Bool := (instruction.field? key).isSome
  if has "type" then
    let (command, drawn) := substitute scope progress.script progress.drawn instruction
    match Command.ofJson? command with
    | some command => .ok { progress with commands := progress.commands ++ [command], drawn := drawn }
    | none => .error (.panicked ⟨some "bad action"⟩)
  else if has "err" then
    let (failure, progress) := value "err"
    match Failure.ofJson? failure with
    | some failure => .error (.failed failure progress)
    | none => .error (.panicked ⟨some "bad error"⟩)
  else if has "panic" then .error (.panicked (panicOf (instruction.get "panic")))
  else if has "set" then
    let (assigned, progress) := value "to"
    .ok { progress with script := progress.script.setVar (textOf (instruction.get "set")) assigned }
  else if has "inc" then
    let (amount, progress) := value "by"
    .ok { progress with script := progress.script.increase (textOf (instruction.get "inc")) amount }
  else if has "push" then
    let (item, progress) := value "value"
    .ok { progress with script := progress.script.push (textOf (instruction.get "push")) item }
  else if has "fan_add" then
    let (id, progress) := value "fan_add"
    .ok { progress with
      script := { progress.script with fan := progress.script.fan.add (textOf id) } }
  else if has "fan_record" then
    let (id, progress) := value "fan_record"
    let (result, drawn) :=
      substitute scope progress.script progress.drawn (instruction.get "value")
    .ok { progress with
      script := { progress.script with fan := progress.script.fan.record (textOf id) result }
      drawn := drawn }
  else .ok progress

/-- Keys that mark an instruction as simple, even if it also has a branch. -/
def simpleKeys : List String :=
  ["type", "err", "panic", "set", "inc", "push", "fan_add", "fan_record"]

def isBranch (instruction : Json) : Bool :=
  (instruction.field? "if").isSome && simpleKeys.all fun key => (instruction.field? key).isNone

/-- Runs instructions in order; `fuel` bounds the depth and the number of instructions. -/
def runAll (scope : Scope) : Nat → Progress → List Json → Except Halt Progress
  | 0, progress, _ => .ok progress
  | _, progress, [] => .ok progress
  | fuel + 1, progress, instruction :: rest =>
      if isBranch instruction then
        let branch := if holds progress.script (instruction.get "if") then "then" else "else"
        match runAll scope fuel progress (instruction.get branch).items with
        | .error halt => .error halt
        | .ok progress => runAll scope fuel progress rest
      else
        match runSimple scope progress instruction with
        | .error halt => .error halt
        | .ok progress => runAll scope fuel progress rest

mutual

def sizeOf : Json → Nat
  | .list items => 1 + sizeOfItems items
  | .object fields => 1 + sizeOfFields fields
  | _ => 1

def sizeOfItems : List Json → Nat
  | [] => 0
  | item :: rest => sizeOf item + sizeOfItems rest

def sizeOfFields : List (String × Json) → Nat
  | [] => 0
  | (_, value) :: rest => sizeOf value + sizeOfFields rest

end

def react (script : Script) (context : Context) (stimulus : Stimulus) :
    Except Panic (Reaction Script) :=
  let (handler, id, payload) := describe stimulus
  let script := { script with trace := script.trace ++ [traceEntry context handler id payload] }
  match instructions? script.program handler id with
  | none => .ok ⟨script, stimulus.defaultStep, 0⟩
  | some instructions =>
      match runAll ⟨context, id, payload⟩ (sizeOf script.program + 1) ⟨script, [], 0⟩ instructions with
      | .ok progress => .ok ⟨progress.script, .ok progress.commands, progress.drawn⟩
      | .error (.failed failure progress) => .ok ⟨progress.script, .error failure, progress.drawn⟩
      | .error (.panicked panic) => .error panic

def acceptsSignal (script : Script) (name : String) : Bool :=
  (script.program.get "handles").items.contains (.text name)

def conditionHolds (script : Script) (conditionId : String) : Bool :=
  match (script.program.get "check").field? conditionId with
  | some condition => script.holds condition
  | none => false

def query (script : Script) (name : String) (args : Json) : Except Failure Json :=
  match name with
  | "trace" => .ok (.list script.trace)
  | "vars" => .ok (.object script.vars)
  | "fan" => .ok script.fan.toJson
  | name =>
      match (script.program.get "query").field? name with
      | none => .error (WorkflowType.unknownQuery name)
      | some answer =>
          match answer.field? "err" with
          | some failure => .error ((Failure.ofJson? failure).getD (.application "bad error"))
          | none => .ok (.record [("value", answer), ("args", args)])

end Script

/-- Scripted workflows that are built at the given version of their script. -/
def script (version : Nat) : WorkflowType where
  name := "script"
  State := Script
  create input := .ok (Script.create version input)
  react := Script.react
  acceptsSignal state name := .ok (state.acceptsSignal name)
  conditionHolds state conditionId := .ok (state.conditionHolds conditionId)
  query := Script.query

end Chronicle.Samples
