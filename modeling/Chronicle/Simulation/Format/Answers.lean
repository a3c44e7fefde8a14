import Chronicle.ErrorRecord
import Chronicle.Simulation.Action

/-!
# Answers of steps

A step is answered by an object: its result under `ok`, or an error.
-/

namespace Chronicle.Simulation.Format

def ok (value : Json) : Json := .record [("ok", value)]

def result (writeError : ε → Json) (write : α → Json) : Except ε α → Json
  | .ok value => ok (write value)
  | .error error => writeError error

def nothing (_ : α) : Json := .null

def leasedTask (task : LeasedTask) : Json :=
  .record [("task", task.taskId.toJson), ("queue", .text task.taskQueue),
    ("payload", task.work.toJson), ("delivery", .ofNat task.deliveryCount),
    ("expires", task.leaseExpiresAt.toJson)]

def foundTask (task : Option LeasedTask) : Json := .ofOption leasedTask task

def timer (timer : Timer) : Json :=
  .record [("instance", timer.run.toJson), ("fire_at", timer.fireAt.toJson),
    ("purpose", timer.purpose.toJson)]

def timers (due : List Timer) : Json := .list (due.map timer)

def taskResult (result : TaskResult) : Json :=
  .record [("closed", .bool result.closed), ("events", .ofNat result.eventsWritten),
    ("tasks", .ofNat result.tasksEnqueued)]

def heartbeatReply (reply : HeartbeatReply) : Json :=
  .record [("accepted", .bool reply.accepted), ("should_cancel", .bool reply.shouldCancel)]

/-- Fields that a bare event leaves out. -/
def variableFields : List String := ["fire_at", "options", "worker_id", "signal"]

def bareEvent (event : HistoryEvent) : Json :=
  match event.event.toJson with
  | .object fields => .object (fields.filter fun field => !variableFields.contains field.1)
  | value => value

def history (bare : Bool) (events : List HistoryEvent) : Json :=
  .list (events.map (if bare then bareEvent else HistoryEvent.toJson))

def committed (outcome : Nat × Bool) : Json :=
  .record [("version", .ofNat outcome.1), ("empty", .bool outcome.2)]

/-! ## Reports -/

def pollerReport (write : α → Json) (report : PollerReport α) : Json :=
  ok (.record [("r", write report.result),
    ("interval_ns", .text (toString report.interval.nanos)), ("shutdown", .bool report.stopped),
    ("took_ms", .ofNat report.took)])

def polled : Except StoreError (Option LeasedTask) → Json
  | .ok task => foundTask task
  | .error error => ErrorRecord.write "Store" (WorkerError.store error).message []

def timedResult (outcome : Except ClientError Json) (took : Nat) : Json :=
  ok (.record [("r", result ClientError.toJson id outcome), ("took_ms", .ofNat took)])

def attemptReport (report : Except EngineError AttemptReport) (took : Nat) (beside : List Json) :
    Json :=
  let report := match report with
    | .ok report => .text report.name
    | .error error => error.toJson
  ok (.record [("report", report), ("took_ms", .ofNat took), ("meanwhile", .list beside)])

def statusOrError : Except WorkerError WorkerStatus → Json
  | .ok status => .text status.name
  | .error error => error.toJson

def workReport (workerId : String) (report : WorkReport) (beside : List Json) : Json :=
  ok (.record [("id", .text workerId), ("start", statusOrError report.started),
    ("start_again", statusOrError report.startedAgain), ("meanwhile", .list beside),
    ("shutdown", statusOrError report.stopped),
    ("shutdown_again", statusOrError report.stoppedAgain), ("status", .text report.status.name)])

/-! ## State of the store -/

/-- Numbers of runs, of tasks that nobody holds, and of timers. -/
def counts (store : Store) : Json :=
  .list [.ofNat store.runs.size, .ofNat store.tasks.pendingCount, .ofNat store.timers.count]

def withCounts (answer : Json) (store : Store) : Json :=
  match answer with
  | .object fields => .object (Json.insertField "st" (counts store) fields)
  | value => value

end Chronicle.Simulation.Format
