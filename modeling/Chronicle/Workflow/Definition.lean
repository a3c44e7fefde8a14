import Chronicle.Workflow.EventRecord

/-!
# Workflow types

A workflow is a state machine.  It reacts to a stimulus with a new state and with commands, or
with a failure that ends the run.  Its code may also panic, which says nothing about the run.
-/

namespace Chronicle

/-- An abort of workflow or activity code, with the text it carries, if any. -/
structure Panic where
  payload : Option String
  deriving DecidableEq, Repr

def Panic.message (panic : Panic) : String := panic.payload.getD "unknown panic"

inductive ConditionOutcome where
  | satisfied
  | timedOut
  deriving DecidableEq, Repr

namespace ConditionOutcome

def name : ConditionOutcome → String
  | .satisfied => "satisfied"
  | .timedOut => "timed_out"

def toJson (outcome : ConditionOutcome) : Json := .text outcome.name

def ofJson? : Json → Option ConditionOutcome := Json.oneOf? [.satisfied, .timedOut] name

end ConditionOutcome

/-- What a handler may know besides its state: all of it is the same in every replay, except
whether this is a repetition. -/
structure Context where
  run : RunRef
  workflowType : String
  attempt : Nat
  eventId : Nat
  now : Instant
  replaying : Bool
  deriving DecidableEq, Repr

/-- The identifier that a handler call draws after `drawn` others. -/
def Context.freshUuid (context : Context) (drawn : Nat) : Uuid :=
  context.run.runId.named s!"{context.eventId}:{drawn}"

inductive Stimulus where
  | started
  | activityCompleted (activityId : String) (result : Json)
  | activityFailed (activityId : String) (failure : ActivityFailure)
  | timerFired (timerId : String)
  | signalled (signal : Signal)
  | conditionResolved (conditionId : String) (outcome : ConditionOutcome)
  | childCompleted (workflowId : String) (result : Json)
  | childFailed (workflowId : String) (failure : Failure)
  | cancelRequested (reason : String)
  deriving DecidableEq, Repr

/-- Commands of a handler, or the failure that ends the run. -/
abbrev Step := Except Failure (List Command)

namespace Stimulus

/-- Failures of activities and children end the run, a cancellation cancels it, and all else is
ignored. -/
def defaultStep : Stimulus → Step
  | .activityFailed activityId failure => .error (.ofActivity activityId failure)
  | .childFailed _ failure => .error failure
  | .cancelRequested reason => .ok [.cancel reason]
  | _ => .ok []

end Stimulus

structure Reaction (State : Type) where
  state : State
  step : Step
  /-- Number of identifiers that the handler drew. -/
  drawn : Nat

inductive CreateError where
  | undecodable (reason : String)
  | panicked (panic : Panic)
  deriving DecidableEq, Repr

structure WorkflowType where
  name : String
  State : Type
  create : Json → Except CreateError State
  react : State → Context → Stimulus → Except Panic (Reaction State)
  acceptsSignal : State → String → Except Panic Bool
  conditionHolds : State → String → Except Panic Bool
  query : State → String → Json → Except Failure Json

namespace WorkflowType

def unknownQueryCode : String := "UNKNOWN_QUERY"

def unknownQuery (name : String) : Failure :=
  (Failure.application s!"unknown query: {name}").withCode unknownQueryCode

end WorkflowType

/-- Reason given for every input that is not of the form that its type expects. -/
def undecodableReason : String := "<decode error>"

end Chronicle
