import Chronicle.Workflow.Failure
import Chronicle.Workflow.Options

/-!
# Commands

What a workflow asks for when it handles an event.  A command that history records is identified
there by its key; the two waiting commands are never recorded.
-/

namespace Chronicle

inductive Command where
  | scheduleActivity (activityId activityType : String) (input : Json) (options : ActivityOptions)
  | startTimer (timerId : String) (duration : Span)
  | cancelTimer (timerId : String)
  | startChild (workflowId workflowType : String) (input : Json) (taskQueue : Option String)
      (options : WorkflowOptions)
  | cancelActivity (activityId : String)
  | awaitSignal (signalName : String)
  | awaitCondition (conditionId : String) (timeout : Option Span)
  | complete (result : Json)
  | fail (failure : Failure)
  | cancel (reason : String)
  deriving DecidableEq, Repr

inductive CommandKey where
  | scheduleActivity (activityId activityType : String)
  | startTimer (timerId : String)
  | cancelTimer (timerId : String)
  | startChild (workflowId workflowType : String)
  | cancelActivity (activityId : String)
  | complete
  | fail
  | cancel
  deriving DecidableEq, Repr

def CommandKey.text : CommandKey → String
  | .scheduleActivity activityId activityType => s!"ScheduleActivity({activityId}, {activityType})"
  | .startTimer timerId => s!"StartTimer({timerId})"
  | .cancelTimer timerId => s!"CancelTimer({timerId})"
  | .startChild workflowId workflowType => s!"StartChildWorkflow({workflowId}, {workflowType})"
  | .cancelActivity activityId => s!"CancelActivity({activityId})"
  | .complete => "CompleteWorkflow"
  | .fail => "FailWorkflow"
  | .cancel => "CancelWorkflow"

namespace Command

def isTerminal : Command → Bool
  | .complete _ | .fail _ | .cancel _ => true
  | _ => false

def key? : Command → Option CommandKey
  | .scheduleActivity activityId activityType _ _ => some (.scheduleActivity activityId activityType)
  | .startTimer timerId _ => some (.startTimer timerId)
  | .cancelTimer timerId => some (.cancelTimer timerId)
  | .startChild workflowId workflowType _ _ _ => some (.startChild workflowId workflowType)
  | .cancelActivity activityId => some (.cancelActivity activityId)
  | .awaitSignal _ | .awaitCondition _ _ => none
  | .complete _ => some .complete
  | .fail _ => some .fail
  | .cancel _ => some .cancel

/-- Id of the timer that bounds the wait for a condition. -/
def conditionTimer (conditionId : String) : String := "condition:" ++ conditionId

/-- Condition whose wait a timer bounds. -/
def conditionOfTimer? (timerId : String) : Option String :=
  let marker := "condition:".toList
  if marker.isPrefixOf timerId.toList then
    some (String.ofList (timerId.toList.drop marker.length))
  else none

def toJson : Command → Json
  | .scheduleActivity activityId activityType input options =>
      .record [("type", .text "schedule_activity"), ("activity_id", .text activityId),
        ("activity_type", .text activityType), ("input", input), ("options", options.toJson)]
  | .startTimer timerId duration =>
      .record [("type", .text "start_timer"), ("timer_id", .text timerId),
        ("duration", duration.toJson)]
  | .cancelTimer timerId => .record [("type", .text "cancel_timer"), ("timer_id", .text timerId)]
  | .startChild workflowId workflowType input taskQueue options =>
      .record [("type", .text "schedule_child_workflow"), ("workflow_id", .text workflowId),
        ("workflow_type", .text workflowType), ("input", input),
        ("task_queue", .ofOption .text taskQueue), ("options", options.toJson)]
  | .cancelActivity activityId =>
      .record [("type", .text "cancel_activity"), ("activity_id", .text activityId)]
  | .awaitSignal signalName =>
      .record [("type", .text "await_signal"), ("signal_name", .text signalName)]
  | .awaitCondition conditionId timeout =>
      .record [("type", .text "await_condition"), ("condition_id", .text conditionId),
        ("timeout", .ofOption Span.toJson timeout)]
  | .complete result => .record [("type", .text "complete_workflow"), ("result", result)]
  | .fail failure => .record [("type", .text "fail_workflow"), ("error", failure.toJson)]
  | .cancel reason => .record [("type", .text "cancel_workflow"), ("reason", .text reason)]

def ofJson? (value : Json) : Option Command := do
  let tag ← value.required "type" Json.text?
  match tag with
  | "schedule_activity" =>
      let activityId ← value.required "activity_id" Json.text?
      let activityType ← value.required "activity_type" Json.text?
      let input ← value.required "input" Json.any?
      let options ← value.required "options" ActivityOptions.ofJson?
      some (.scheduleActivity activityId activityType input options)
  | "start_timer" =>
      let timerId ← value.required "timer_id" Json.text?
      let duration ← value.required "duration" Span.ofJson?
      some (.startTimer timerId duration)
  | "cancel_timer" =>
      let timerId ← value.required "timer_id" Json.text?
      some (.cancelTimer timerId)
  | "schedule_child_workflow" =>
      let workflowId ← value.required "workflow_id" Json.text?
      let workflowType ← value.required "workflow_type" Json.text?
      let input ← value.required "input" Json.any?
      let taskQueue ← value.optional "task_queue" Json.text?
      let options ← value.defaulted "options" .standard WorkflowOptions.ofJson?
      some (.startChild workflowId workflowType input taskQueue options)
  | "cancel_activity" =>
      let activityId ← value.required "activity_id" Json.text?
      some (.cancelActivity activityId)
  | "await_signal" =>
      let signalName ← value.required "signal_name" Json.text?
      some (.awaitSignal signalName)
  | "await_condition" =>
      let conditionId ← value.required "condition_id" Json.text?
      let timeout ← value.optional "timeout" Span.ofJson?
      some (.awaitCondition conditionId timeout)
  | "complete_workflow" =>
      let result ← value.required "result" Json.any?
      some (.complete result)
  | "fail_workflow" =>
      let failure ← value.required "error" Failure.ofTaggedJson?
      some (.fail failure)
  | "cancel_workflow" =>
      let reason ← value.required "reason" Json.text?
      some (.cancel reason)
  | _ => none

end Command

end Chronicle
