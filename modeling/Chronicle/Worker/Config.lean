import Chronicle.Engine.TimerService
import Chronicle.Worker.Poller
import Chronicle.Text.Decimal

/-!
# Configuration of a worker

It can be written as a record, and some of it can be taken from named variables.
-/

namespace Chronicle

structure WorkerConfig where
  workerId : String
  taskQueue : String
  /-- Number of workflow tasks that run at the same time, at least one. -/
  workflowSlots : Nat
  /-- Number of activities that run at the same time, at least one. -/
  activitySlots : Nat
  workflowLease : Span
  /-- Lease of an activity task, which is renewed while the activity runs. -/
  activityLease : Span
  longPoll : Span
  poller : PollerConfig
  taskRetryDelay : Span
  shutdownTimeout : Span
  runTimerService : Bool
  timer : TimerConfig
  deriving DecidableEq, Repr

namespace WorkerConfig

def standard (workerId : String) : WorkerConfig :=
  { workerId := workerId
    taskQueue := "default"
    workflowSlots := 10
    activitySlots := 10
    workflowLease := .ofSeconds 30
    activityLease := .ofSeconds 60
    longPoll := .ofSeconds 1
    poller := .standard
    taskRetryDelay := .ofSeconds 1
    shutdownTimeout := .ofSeconds 30
    runTimerService := true
    timer := .standard }

def withWorkflowSlots (config : WorkerConfig) (slots : Nat) : WorkerConfig :=
  { config with workflowSlots := max slots 1 }

def withActivitySlots (config : WorkerConfig) (slots : Nat) : WorkerConfig :=
  { config with activitySlots := max slots 1 }

def slots (config : WorkerConfig) : TaskKind → Nat
  | .workflow => config.workflowSlots
  | .activity => config.activitySlots

def lease (config : WorkerConfig) : TaskKind → Span
  | .workflow => config.workflowLease
  | .activity => config.activityLease

/-! ## Records -/

def toJson (config : WorkerConfig) : Json :=
  .record [("worker_id", .text config.workerId), ("task_queue", .text config.taskQueue),
    ("max_concurrent_workflow_tasks", .ofNat config.workflowSlots),
    ("max_concurrent_activities", .ofNat config.activitySlots),
    ("workflow_lease_duration", config.workflowLease.toJson),
    ("activity_lease_duration", config.activityLease.toJson),
    ("long_poll_timeout", config.longPoll.toJson), ("poller", config.poller.toJson),
    ("workflow_task_retry_delay", config.taskRetryDelay.toJson),
    ("shutdown_timeout", config.shutdownTimeout.toJson),
    ("run_timer_service", .bool config.runTimerService), ("timer", config.timer.toJson)]

/-- A number of slots, raised to one. -/
def slots? (value : Json) : Option Nat := (value.word? 64).map fun slots => max slots 1

def ofJson? (value : Json) : Option WorkerConfig := do
  let workerId ← value.required "worker_id" Json.text?
  let taskQueue ← value.required "task_queue" Json.text?
  let workflowSlots ← value.required "max_concurrent_workflow_tasks" slots?
  let activitySlots ← value.required "max_concurrent_activities" slots?
  let workflowLease ← value.required "workflow_lease_duration" Span.ofJson?
  let activityLease ← value.required "activity_lease_duration" Span.ofJson?
  let longPoll ← value.required "long_poll_timeout" Span.ofJson?
  let poller ← value.required "poller" PollerConfig.ofJson?
  let taskRetryDelay ← value.required "workflow_task_retry_delay" Span.ofJson?
  let shutdownTimeout ← value.required "shutdown_timeout" Span.ofJson?
  let runTimerService ← value.required "run_timer_service" Json.bool?
  let timer ← value.required "timer" TimerConfig.ofJson?
  some { workerId, taskQueue, workflowSlots, activitySlots, workflowLease, activityLease, longPoll,
         poller, taskRetryDelay, shutdownTimeout, runTimerService, timer }

end WorkerConfig

/-! ## Environments -/

abbrev Environment := List (String × String)

namespace Environment

/-- A variable that holds no number of 64 bits counts as absent. -/
def word? (environment : Environment) (name : String) : Option Nat :=
  (environment.lookup name).bind fun text => Text.word? 64 text.toList

end Environment

/-- The batch size is taken as it is, even if it is zero. -/
def TimerConfig.ofEnvironment (environment : Environment) : TimerConfig :=
  { standard with
    tickInterval := ((environment.word? "TIMER_TICK_INTERVAL_MS").map Span.ofMillis).getD
      standard.tickInterval
    batchSize := (environment.word? "TIMER_BATCH_SIZE").getD standard.batchSize }

/-- The generated id is used if no other one is given. -/
def WorkerConfig.ofEnvironment (environment : Environment) (generatedId : String) : WorkerConfig :=
  let config := standard ((environment.lookup "WORKER_ID").getD generatedId)
  let config := { config with
    taskQueue := (environment.lookup "TASK_QUEUE").getD config.taskQueue
    timer := TimerConfig.ofEnvironment environment }
  (config.withWorkflowSlots
    ((environment.word? "MAX_CONCURRENT_WORKFLOW_TASKS").getD config.workflowSlots)).withActivitySlots
    ((environment.word? "MAX_CONCURRENT_ACTIVITIES").getD config.activitySlots)

/-- What is written to the log of a process, and how. -/
structure LogConfig where
  filter : Option String
  /-- Each line names the part of the program that wrote it. -/
  withTarget : Bool
  deriving DecidableEq, Repr

namespace LogConfig

def standard : LogConfig := ⟨none, true⟩

/-- The variable with the filter has precedence over the one with a level. -/
def ofEnvironment (environment : Environment) : LogConfig :=
  { standard with filter := (environment.lookup "RUST_LOG").or (environment.lookup "LOG_LEVEL") }

end LogConfig

end Chronicle
