import Chronicle.Workflow.Run
import Chronicle.Store.Task
import Chronicle.Store.Timer

/-!
# Commits

Everything that one decision about a run changes, applied at once or not at all.
-/

namespace Chronicle

structure Closing where
  status : RunStatus
  result : Option Json
  failure : Option Failure
  deriving DecidableEq, Repr

structure Notification where
  target : RunRef
  event : Event
  deriving DecidableEq, Repr

structure Commit where
  events : List Event
  tasks : List NewTask
  timers : List Timer
  cancelledTimers : List TimerPurpose
  cancelledActivities : List String
  newRuns : List NewRun
  notifications : List Notification
  closing : Option Closing
  deriving DecidableEq, Repr

namespace Commit

def ofEvents (events : List Event) : Commit := ⟨events, [], [], [], [], [], [], none⟩

def empty : Commit := ofEvents []

def isEmpty (commit : Commit) : Bool := commit = empty

end Commit

inductive StoreError where
  | runNotFound (ref : RunRef)
  | workflowNotFound (workflowId : String)
  | alreadyStarted (workflowId : String) (runId : Uuid)
  | versionConflict (expected found : Nat)
  | runClosed (ref : RunRef)
  | taskNotFound (taskId : Uuid)
  | leaseLost (taskId : Uuid)
  | unavailable (reason : String)
  | serialization (reason : String)
  deriving DecidableEq, Repr

namespace StoreError

def message : StoreError → String
  | .runNotFound ref => s!"workflow run not found: {ref.text}"
  | .workflowNotFound workflowId => s!"workflow not found: {workflowId}"
  | .alreadyStarted workflowId runId =>
      s!"workflow already started: {workflowId} (run {runId.text})"
  | .versionConflict expected found =>
      s!"concurrency conflict: expected version {expected}, found {found}"
  | .runClosed ref => s!"workflow run is closed: {ref.text}"
  | .taskNotFound taskId => s!"task not found: {taskId.text}"
  | .leaseLost taskId => s!"lease lost for task {taskId.text}"
  | .unavailable reason => s!"store unavailable: {reason}"
  | .serialization reason => s!"serialization error: {reason}"

def isConflict : StoreError → Bool
  | .versionConflict .. => true
  | _ => false

end StoreError

end Chronicle
