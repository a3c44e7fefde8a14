import Chronicle.Workflow.Event

/-!
# Runs

A run is one execution of a workflow.  It is running until it closes, and then says how.
-/

namespace Chronicle

inductive RunStatus where
  | running
  | completed
  | failed
  | cancelled
  | timedOut
  | terminated
  deriving DecidableEq, Repr

namespace RunStatus

def all : List RunStatus := [.running, .completed, .failed, .cancelled, .timedOut, .terminated]

def name : RunStatus → String
  | .running => "running"
  | .completed => "completed"
  | .failed => "failed"
  | .cancelled => "cancelled"
  | .timedOut => "timed_out"
  | .terminated => "terminated"

def isClosed : RunStatus → Bool
  | .running => false
  | _ => true

def toJson (status : RunStatus) : Json := .text status.name

def ofJson? : Json → Option RunStatus := Json.oneOf? all name

end RunStatus

structure Run where
  ref : RunRef
  workflowType : String
  taskQueue : String
  status : RunStatus
  input : Json
  result : Option Json
  failure : Option Failure
  attempt : Nat
  parent : Option RunRef
  options : WorkflowOptions
  startTime : Instant
  closeTime : Option Instant
  historyLength : Nat
  /-- Run of the same workflow id that was created next. -/
  nextRunId : Option Uuid
  deriving DecidableEq, Repr

namespace Run

def toJson (run : Run) : Json :=
  .record [("id", run.ref.toJson), ("workflow_type", .text run.workflowType),
    ("task_queue", .text run.taskQueue), ("status", run.status.toJson), ("input", run.input),
    ("result", .orNull run.result), ("error", .ofOption Failure.toJson run.failure),
    ("attempt", .ofNat run.attempt), ("parent", .ofOption RunRef.toJson run.parent),
    ("options", run.options.toJson), ("start_time", run.startTime.toJson),
    ("close_time", .ofOption Instant.toJson run.closeTime),
    ("history_length", .ofNat run.historyLength),
    ("next_run_id", .ofOption Uuid.toJson run.nextRunId)]

def ofJson? (value : Json) : Option Run := do
  let ref ← value.required "id" RunRef.ofJson?
  let workflowType ← value.required "workflow_type" Json.text?
  let taskQueue ← value.required "task_queue" Json.text?
  let status ← value.required "status" RunStatus.ofJson?
  let input ← value.required "input" Json.any?
  let result ← value.optional "result" Json.any?
  let failure ← value.optional "error" Failure.ofJson?
  let attempt ← value.required "attempt" (Json.word? 32)
  let parent ← value.optional "parent" RunRef.ofJson?
  let options ← value.required "options" WorkflowOptions.ofJson?
  let startTime ← value.required "start_time" Instant.ofJson?
  let closeTime ← value.optional "close_time" Instant.ofJson?
  let historyLength ← value.required "history_length" (Json.word? 64)
  let nextRunId ← value.optional "next_run_id" Uuid.ofJson?
  some ⟨ref, workflowType, taskQueue, status, input, result, failure, attempt, parent, options,
    startTime, closeTime, historyLength, nextRunId⟩

end Run

structure RunSummary where
  ref : RunRef
  workflowType : String
  status : RunStatus
  startTime : Instant
  closeTime : Option Instant
  taskQueue : String
  historyLength : Nat
  attempt : Nat
  deriving DecidableEq, Repr

namespace RunSummary

def ofRun (run : Run) : RunSummary :=
  ⟨run.ref, run.workflowType, run.status, run.startTime, run.closeTime, run.taskQueue,
    run.historyLength, run.attempt⟩

def toJson (summary : RunSummary) : Json :=
  .record [("workflow_id", .text summary.ref.workflowId), ("run_id", summary.ref.runId.toJson),
    ("workflow_type", .text summary.workflowType), ("status", summary.status.toJson),
    ("start_time", summary.startTime.toJson),
    ("close_time", .ofOption Instant.toJson summary.closeTime),
    ("task_queue", .text summary.taskQueue), ("history_length", .ofNat summary.historyLength),
    ("attempt", .ofNat summary.attempt)]

def ofJson? (value : Json) : Option RunSummary := do
  let workflowId ← value.required "workflow_id" Json.text?
  let runId ← value.required "run_id" Uuid.ofJson?
  let workflowType ← value.required "workflow_type" Json.text?
  let status ← value.required "status" RunStatus.ofJson?
  let startTime ← value.required "start_time" Instant.ofJson?
  let closeTime ← value.optional "close_time" Instant.ofJson?
  let taskQueue ← value.required "task_queue" Json.text?
  let historyLength ← value.required "history_length" (Json.word? 64)
  let attempt ← value.required "attempt" (Json.word? 32)
  some ⟨⟨workflowId, runId⟩, workflowType, status, startTime, closeTime, taskQueue, historyLength,
    attempt⟩

end RunSummary

structure NewRun where
  ref : RunRef
  workflowType : String
  taskQueue : String
  input : Json
  attempt : Nat
  parent : Option RunRef
  options : WorkflowOptions
  /-- Time before the first workflow task becomes visible. -/
  firstTaskDelay : Span
  deriving DecidableEq, Repr

namespace NewRun

def first (ref : RunRef) (workflowType taskQueue : String) (input : Json)
    (options : WorkflowOptions) : NewRun :=
  ⟨ref, workflowType, taskQueue, input, 1, none, options, .zero⟩

def startEvent (new : NewRun) : Event :=
  .workflowStarted new.workflowType new.input new.taskQueue new.attempt new.parent new.options

def toRun (new : NewRun) (now : Instant) : Run :=
  { ref := new.ref
    workflowType := new.workflowType
    taskQueue := new.taskQueue
    status := .running
    input := new.input
    result := none
    failure := none
    attempt := new.attempt
    parent := new.parent
    options := new.options
    startTime := now
    closeTime := none
    historyLength := 1
    nextRunId := none }

end NewRun

end Chronicle
