import Chronicle.Workflow.Retry

/-!
# Options of activities and workflows
-/

namespace Chronicle

structure ActivityOptions where
  retryPolicy : RetryPolicy
  taskQueue : Option String
  /-- Time within which a worker must pick up an attempt. -/
  pickupTimeout : Option Span
  /-- Time within which a started attempt must end. -/
  attemptTimeout : Span
  heartbeatTimeout : Option Span
  deriving DecidableEq, Repr

namespace ActivityOptions

def standard : ActivityOptions := ⟨.exponential, none, none, .ofSeconds 300, none⟩

instance : Inhabited ActivityOptions := ⟨standard⟩

def toJson (options : ActivityOptions) : Json :=
  .record [("retry_policy", options.retryPolicy.toJson),
    ("task_queue", .ofOption .text options.taskQueue),
    ("schedule_to_start_timeout", .ofOption Span.toJson options.pickupTimeout),
    ("start_to_close_timeout", options.attemptTimeout.toJson),
    ("heartbeat_timeout", .ofOption Span.toJson options.heartbeatTimeout)]

def ofJson? (value : Json) : Option ActivityOptions := do
  let retryPolicy ← value.required "retry_policy" RetryPolicy.ofJson?
  let taskQueue ← value.optional "task_queue" Json.text?
  let pickupTimeout ← value.optional "schedule_to_start_timeout" Span.ofJson?
  let attemptTimeout ← value.required "start_to_close_timeout" Span.ofJson?
  let heartbeatTimeout ← value.optional "heartbeat_timeout" Span.ofJson?
  some ⟨retryPolicy, taskQueue, pickupTimeout, attemptTimeout, heartbeatTimeout⟩

end ActivityOptions

structure WorkflowOptions where
  retryPolicy : Option RetryPolicy
  cronSchedule : Option String
  executionTimeout : Option Span
  deriving DecidableEq, Repr

namespace WorkflowOptions

def standard : WorkflowOptions := ⟨none, none, none⟩

instance : Inhabited WorkflowOptions := ⟨standard⟩

def toJson (options : WorkflowOptions) : Json :=
  .record [("retry_policy", .ofOption RetryPolicy.toJson options.retryPolicy),
    ("cron_schedule", .ofOption .text options.cronSchedule),
    ("execution_timeout", .ofOption Span.toJson options.executionTimeout)]

def ofJson? (value : Json) : Option WorkflowOptions := do
  if !value.isObject then none
  else
    let retryPolicy ← value.optional "retry_policy" RetryPolicy.ofJson?
    let cronSchedule ← value.optional "cron_schedule" Json.text?
    let executionTimeout ← value.optional "execution_timeout" Span.ofJson?
    some ⟨retryPolicy, cronSchedule, executionTimeout⟩

end WorkflowOptions

end Chronicle
