import Chronicle.Workflow.Event

/-!
# Records of history events

The written form of events: an object with the event's fields and its type.
-/

namespace Chronicle

namespace Event

def tagged (tag : String) (fields : List (String × Json)) : Json :=
  .record (("type", .text tag) :: fields)

def toJson : Event → Json
  | .workflowStarted workflowType input taskQueue attempt parent options =>
      tagged "workflow_started" [("workflow_type", .text workflowType), ("input", input),
        ("task_queue", .text taskQueue), ("attempt", .ofNat attempt),
        ("parent", .ofOption RunRef.toJson parent), ("options", options.toJson)]
  | .workflowCompleted result => tagged "workflow_completed" [("result", result)]
  | .workflowFailed failure => tagged "workflow_failed" [("error", failure.toJson)]
  | .workflowCancelled reason => tagged "workflow_cancelled" [("reason", .text reason)]
  | .workflowTimedOut => tagged "workflow_timed_out" []
  | .workflowTerminated reason => tagged "workflow_terminated" [("reason", .text reason)]
  | .cancellationRequested reason => tagged "cancellation_requested" [("reason", .text reason)]
  | .activityScheduled activityId activityType input taskQueue options =>
      tagged "activity_scheduled" [("activity_id", .text activityId),
        ("activity_type", .text activityType), ("input", input), ("task_queue", .text taskQueue),
        ("options", options.toJson)]
  | .activityStarted activityId attempt workerId =>
      tagged "activity_started" [("activity_id", .text activityId), ("attempt", .ofNat attempt),
        ("worker_id", .text workerId)]
  | .activityHeartbeat activityId attempt details =>
      tagged "activity_heartbeat" [("activity_id", .text activityId), ("attempt", .ofNat attempt),
        ("details", .orNull details)]
  | .activityCompleted activityId attempt result =>
      tagged "activity_completed" [("activity_id", .text activityId), ("attempt", .ofNat attempt),
        ("result", result)]
  | .activityFailed activityId attempt failure willRetry exhausted =>
      tagged "activity_failed" [("activity_id", .text activityId), ("attempt", .ofNat attempt),
        ("error", failure.toJson), ("will_retry", .bool willRetry),
        ("attempts_exhausted", .bool exhausted)]
  | .activityTimedOut activityId attempt timeout willRetry exhausted =>
      tagged "activity_timed_out" [("activity_id", .text activityId), ("attempt", .ofNat attempt),
        ("timeout_type", timeout.toJson), ("will_retry", .bool willRetry),
        ("attempts_exhausted", .bool exhausted)]
  | .activityCancelled activityId =>
      tagged "activity_cancelled" [("activity_id", .text activityId)]
  | .timerStarted timerId fireAt duration =>
      tagged "timer_started" [("timer_id", .text timerId), ("fire_at", fireAt.toJson),
        ("duration", duration.toJson)]
  | .timerFired timerId => tagged "timer_fired" [("timer_id", .text timerId)]
  | .timerCancelled timerId => tagged "timer_cancelled" [("timer_id", .text timerId)]
  | .signalReceived signal => tagged "signal_received" [("signal", signal.toJson)]
  | .childStarted workflowId runId workflowType =>
      tagged "child_workflow_started" [("workflow_id", .text workflowId), ("run_id", runId.toJson),
        ("workflow_type", .text workflowType)]
  | .childCompleted workflowId runId result =>
      tagged "child_workflow_completed" [("workflow_id", .text workflowId),
        ("run_id", runId.toJson), ("result", result)]
  | .childFailed workflowId runId failure =>
      tagged "child_workflow_failed" [("workflow_id", .text workflowId), ("run_id", runId.toJson),
        ("error", failure.toJson)]

def workflowOfJson? (tag : String) (value : Json) : Option Event := do
  match tag with
  | "workflow_started" =>
      let workflowType ← value.required "workflow_type" Json.text?
      let input ← value.required "input" Json.any?
      let taskQueue ← value.required "task_queue" Json.text?
      let attempt ← value.defaulted "attempt" 1 (Json.word? 32)
      let parent ← value.optional "parent" RunRef.ofJson?
      let options ← value.defaulted "options" .standard WorkflowOptions.ofJson?
      some (.workflowStarted workflowType input taskQueue attempt parent options)
  | "workflow_completed" =>
      let result ← value.required "result" Json.any?
      some (.workflowCompleted result)
  | "workflow_failed" =>
      let failure ← value.required "error" Failure.ofTaggedJson?
      some (.workflowFailed failure)
  | "workflow_cancelled" =>
      let reason ← value.required "reason" Json.text?
      some (.workflowCancelled reason)
  | "workflow_timed_out" => some .workflowTimedOut
  | "workflow_terminated" =>
      let reason ← value.required "reason" Json.text?
      some (.workflowTerminated reason)
  | "cancellation_requested" =>
      let reason ← value.required "reason" Json.text?
      some (.cancellationRequested reason)
  | "signal_received" =>
      let signal ← value.required "signal" Signal.ofJson?
      some (.signalReceived signal)
  | _ => none

def activityOfJson? (tag : String) (value : Json) : Option Event := do
  let activityId ← value.required "activity_id" Json.text?
  let attempt := value.required "attempt" (Json.word? 32)
  let willRetry := value.required "will_retry" Json.bool?
  let exhausted := value.defaulted "attempts_exhausted" false Json.bool?
  match tag with
  | "activity_scheduled" =>
      let activityType ← value.required "activity_type" Json.text?
      let input ← value.required "input" Json.any?
      let taskQueue ← value.required "task_queue" Json.text?
      let options ← value.required "options" ActivityOptions.ofJson?
      some (.activityScheduled activityId activityType input taskQueue options)
  | "activity_started" =>
      let workerId ← value.required "worker_id" Json.text?
      some (.activityStarted activityId (← attempt) workerId)
  | "activity_heartbeat" =>
      let details ← value.optional "details" Json.any?
      some (.activityHeartbeat activityId (← attempt) details)
  | "activity_completed" =>
      let result ← value.required "result" Json.any?
      some (.activityCompleted activityId (← attempt) result)
  | "activity_failed" =>
      let failure ← value.required "error" ActivityFailure.ofJson?
      some (.activityFailed activityId (← attempt) failure (← willRetry) (← exhausted))
  | "activity_timed_out" =>
      let timeout ← value.required "timeout_type" TimeoutType.ofTaggedJson?
      some (.activityTimedOut activityId (← attempt) timeout (← willRetry) (← exhausted))
  | "activity_cancelled" => some (.activityCancelled activityId)
  | _ => none

def timerOfJson? (tag : String) (value : Json) : Option Event := do
  let timerId ← value.required "timer_id" Json.text?
  match tag with
  | "timer_started" =>
      let fireAt ← value.required "fire_at" Instant.ofJson?
      let duration ← value.required "duration" Span.ofJson?
      some (.timerStarted timerId fireAt duration)
  | "timer_fired" => some (.timerFired timerId)
  | "timer_cancelled" => some (.timerCancelled timerId)
  | _ => none

def childOfJson? (tag : String) (value : Json) : Option Event := do
  let workflowId ← value.required "workflow_id" Json.text?
  let runId ← value.required "run_id" Uuid.ofJson?
  match tag with
  | "child_workflow_started" =>
      let workflowType ← value.required "workflow_type" Json.text?
      some (.childStarted workflowId runId workflowType)
  | "child_workflow_completed" =>
      let result ← value.required "result" Json.any?
      some (.childCompleted workflowId runId result)
  | "child_workflow_failed" =>
      let failure ← value.required "error" Failure.ofTaggedJson?
      some (.childFailed workflowId runId failure)
  | _ => none

/-- The four families of types have no type in common. -/
def ofJson? (value : Json) : Option Event := do
  let tag ← value.required "type" Json.text?
  workflowOfJson? tag value <|> activityOfJson? tag value <|> timerOfJson? tag value
    <|> childOfJson? tag value

end Event

namespace HistoryEvent

def toJson (event : HistoryEvent) : Json :=
  .record [("event_id", .ofNat event.eventId), ("timestamp", event.timestamp.toJson),
    ("format_version", .ofNat event.formatVersion), ("event", event.event.toJson)]

def ofJson? (value : Json) : Option HistoryEvent := do
  let eventId ← value.required "event_id" (Json.word? 64)
  let timestamp ← value.required "timestamp" Instant.ofJson?
  let formatVersion ← value.required "format_version" (Json.word? 16)
  let event ← value.required "event" Event.ofJson?
  some ⟨eventId, timestamp, formatVersion, event⟩

end HistoryEvent

end Chronicle
