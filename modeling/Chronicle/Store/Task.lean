import Chronicle.Workflow.Options
import Chronicle.Workflow.RunRef
import Chronicle.Time.Timestamp

/-!
# Tasks

A task tells a worker to advance a run, or to make one attempt at an activity.  A worker that
polls for tasks receives one under a lease.
-/

namespace Chronicle

inductive TaskKind where
  | workflow
  | activity
  deriving DecidableEq, Repr

namespace TaskKind

def name : TaskKind → String
  | .workflow => "workflow"
  | .activity => "activity"

def toJson (kind : TaskKind) : Json := .text kind.name

def all : List TaskKind := [.workflow, .activity]

def ofJson? : Json → Option TaskKind := Json.oneOf? all name

/-- As the tag of a record, a kind is always a text. -/
def ofTag? (tag : Json) : Option TaskKind := tag.text?.bind (Json.ofName? all name)

end TaskKind

structure ActivityTask where
  run : RunRef
  activityId : String
  activityType : String
  input : Json
  options : ActivityOptions
  attempt : Nat
  deriving DecidableEq, Repr

inductive Work where
  | workflow (run : RunRef) (workflowType : String)
  | activity (task : ActivityTask)
  deriving DecidableEq, Repr

namespace Work

def kind : Work → TaskKind
  | .workflow .. => .workflow
  | .activity _ => .activity

def run : Work → RunRef
  | .workflow run _ => run
  | .activity task => task.run

def typeName : Work → String
  | .workflow _ workflowType => workflowType
  | .activity task => task.activityType

def isWorkflowOf (work : Work) (run : RunRef) : Bool :=
  match work with
  | .workflow target _ => target = run
  | .activity _ => false

def isActivityOf (work : Work) (run : RunRef) (activityId : String) : Bool :=
  match work with
  | .workflow .. => false
  | .activity task => task.run = run && task.activityId = activityId

def toJson : Work → Json
  | .workflow run workflowType =>
      .record [("kind", .text "workflow"), ("instance", run.toJson),
        ("workflow_type", .text workflowType)]
  | .activity task =>
      .record [("kind", .text "activity"), ("instance", task.run.toJson),
        ("activity_id", .text task.activityId), ("activity_type", .text task.activityType),
        ("input", task.input), ("options", task.options.toJson), ("attempt", .ofNat task.attempt)]

def ofJson? (value : Json) : Option Work := do
  let kind ← value.required "kind" TaskKind.ofTag?
  let run ← value.required "instance" RunRef.ofJson?
  match kind with
  | .workflow =>
      let workflowType ← value.required "workflow_type" Json.text?
      some (.workflow run workflowType)
  | .activity =>
      let activityId ← value.required "activity_id" Json.text?
      let activityType ← value.required "activity_type" Json.text?
      let input ← value.required "input" Json.any?
      let options ← value.required "options" ActivityOptions.ofJson?
      let attempt ← value.required "attempt" (Json.word? 32)
      some (.activity ⟨run, activityId, activityType, input, options, attempt⟩)

end Work

structure NewTask where
  taskQueue : String
  work : Work
  delay : Span
  deriving DecidableEq, Repr

structure PollRequest where
  taskQueue : String
  kind : TaskKind
  /-- Accepted workflow or activity types; none listed accepts all. -/
  types : List String
  workerId : String
  leaseDuration : Span
  waitLimit : Span
  deriving DecidableEq, Repr

structure LeasedTask where
  taskId : Uuid
  token : Uuid
  taskQueue : String
  work : Work
  deliveryCount : Nat
  leaseExpiresAt : Instant
  deriving DecidableEq, Repr

structure HeartbeatReply where
  accepted : Bool
  shouldCancel : Bool
  deriving DecidableEq, Repr

end Chronicle
