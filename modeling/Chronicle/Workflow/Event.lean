import Chronicle.Time.Timestamp
import Chronicle.Workflow.Command
import Chronicle.Workflow.RunRef

/-!
# History events

A run's history is the list of everything that happened to it.  Some events record a command of
the workflow and carry its key; close events end the run.
-/

namespace Chronicle

/-- A named message to a running workflow. -/
structure Signal where
  name : String
  payload : Json
  sentAt : Instant
  deriving DecidableEq, Repr

namespace Signal

def toJson (signal : Signal) : Json :=
  .record [("name", .text signal.name), ("payload", signal.payload),
    ("sent_at", signal.sentAt.toJson)]

def ofJson? (value : Json) : Option Signal := do
  let name ← value.required "name" Json.text?
  let payload ← value.required "payload" Json.any?
  let sentAt ← value.required "sent_at" Instant.ofJson?
  some ⟨name, payload, sentAt⟩

end Signal

inductive TimeoutType where
  | scheduleToStart
  | startToClose
  | heartbeat
  deriving DecidableEq, Repr

namespace TimeoutType

def all : List TimeoutType := [.scheduleToStart, .startToClose, .heartbeat]

def name : TimeoutType → String
  | .scheduleToStart => "schedule_to_start"
  | .startToClose => "start_to_close"
  | .heartbeat => "heartbeat"

def toJson (timeout : TimeoutType) : Json := .text timeout.name

def ofJson? : Json → Option TimeoutType := Json.oneOf? all name

def ofTaggedJson? : Json → Option TimeoutType := Json.taggedOneOf? all name

end TimeoutType

inductive Event where
  | workflowStarted (workflowType : String) (input : Json) (taskQueue : String) (attempt : Nat)
      (parent : Option RunRef) (options : WorkflowOptions)
  | workflowCompleted (result : Json)
  | workflowFailed (failure : Failure)
  | workflowCancelled (reason : String)
  | workflowTimedOut
  | workflowTerminated (reason : String)
  | cancellationRequested (reason : String)
  | activityScheduled (activityId activityType : String) (input : Json) (taskQueue : String)
      (options : ActivityOptions)
  | activityStarted (activityId : String) (attempt : Nat) (workerId : String)
  | activityHeartbeat (activityId : String) (attempt : Nat) (details : Option Json)
  | activityCompleted (activityId : String) (attempt : Nat) (result : Json)
  | activityFailed (activityId : String) (attempt : Nat) (failure : ActivityFailure)
      (willRetry exhausted : Bool)
  | activityTimedOut (activityId : String) (attempt : Nat) (timeout : TimeoutType)
      (willRetry exhausted : Bool)
  | activityCancelled (activityId : String)
  | timerStarted (timerId : String) (fireAt : Instant) (duration : Span)
  | timerFired (timerId : String)
  | timerCancelled (timerId : String)
  | signalReceived (signal : Signal)
  | childStarted (workflowId : String) (runId : Uuid) (workflowType : String)
  | childCompleted (workflowId : String) (runId : Uuid) (result : Json)
  | childFailed (workflowId : String) (runId : Uuid) (failure : Failure)
  deriving DecidableEq, Repr

namespace Event

def activityId? : Event → Option String
  | .activityScheduled activityId .. | .activityStarted activityId ..
  | .activityHeartbeat activityId .. | .activityCompleted activityId ..
  | .activityFailed activityId .. | .activityTimedOut activityId ..
  | .activityCancelled activityId => some activityId
  | _ => none

/-- Close events end the run. -/
def isClose : Event → Bool
  | .workflowCompleted _ | .workflowFailed _ | .workflowCancelled _ | .workflowTimedOut
  | .workflowTerminated _ => true
  | _ => false

def key? : Event → Option CommandKey
  | .activityScheduled activityId activityType .. => some (.scheduleActivity activityId activityType)
  | .timerStarted timerId .. => some (.startTimer timerId)
  | .timerCancelled timerId => some (.cancelTimer timerId)
  | .activityCancelled activityId => some (.cancelActivity activityId)
  | .childStarted workflowId _ workflowType => some (.startChild workflowId workflowType)
  | .workflowCompleted _ => some .complete
  | .workflowFailed _ => some .fail
  | .workflowCancelled _ => some .cancel
  | _ => none

def name : Event → String
  | .workflowStarted .. => "WorkflowStarted"
  | .workflowCompleted _ => "WorkflowCompleted"
  | .workflowFailed _ => "WorkflowFailed"
  | .workflowCancelled _ => "WorkflowCancelled"
  | .workflowTimedOut => "WorkflowTimedOut"
  | .workflowTerminated _ => "WorkflowTerminated"
  | .cancellationRequested _ => "CancellationRequested"
  | .activityScheduled .. => "ActivityScheduled"
  | .activityStarted .. => "ActivityStarted"
  | .activityHeartbeat .. => "ActivityHeartbeat"
  | .activityCompleted .. => "ActivityCompleted"
  | .activityFailed .. => "ActivityFailed"
  | .activityTimedOut .. => "ActivityTimedOut"
  | .activityCancelled _ => "ActivityCancelled"
  | .timerStarted .. => "TimerStarted"
  | .timerFired _ => "TimerFired"
  | .timerCancelled _ => "TimerCancelled"
  | .signalReceived _ => "SignalReceived"
  | .childStarted .. => "ChildWorkflowStarted"
  | .childCompleted .. => "ChildWorkflowCompleted"
  | .childFailed .. => "ChildWorkflowFailed"

end Event

/-- An event at its place in a history; the first has id 1. -/
structure HistoryEvent where
  eventId : Nat
  timestamp : Instant
  formatVersion : Nat
  event : Event
  deriving DecidableEq, Repr

namespace HistoryEvent

/-- Version of the record format that is written. -/
def currentFormat : Nat := 1

def ofEvent (eventId : Nat) (timestamp : Instant) (event : Event) : HistoryEvent :=
  ⟨eventId, timestamp, currentFormat, event⟩

end HistoryEvent

end Chronicle
