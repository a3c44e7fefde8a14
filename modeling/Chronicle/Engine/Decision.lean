import Chronicle.Cron.Parser
import Chronicle.Engine.Ledger
import Chronicle.Engine.Program
import Chronicle.Text.Quoted

/-!
# Decisions

A decision turns the new commands of a workflow into one commit.
-/

namespace Chronicle

inductive EngineError where
  | store (error : StoreError)
  | replay (error : ReplayError)
  | runClosed (ref : RunRef)
  | tooManyEvents (ref : RunRef) (events limit : Nat)
  | conflictRetriesExhausted (ref : RunRef)
  | query (failure : Failure)
  | invalidCronSchedule (expression : String) (cause : CronError)
  deriving DecidableEq, Repr

namespace EngineError

def message : EngineError → String
  | .store error => s!"store error: {error.message}"
  | .replay error => s!"replay error: {error.message}"
  | .runClosed ref => s!"workflow run {ref.text} is closed"
  | .tooManyEvents ref events limit =>
      s!"workflow {ref.text} has too many events ({events} > {limit})"
  | .conflictRetriesExhausted ref =>
      s!"gave up on {ref.text} after repeated concurrency conflicts"
  | .query failure => s!"query failed: {failure.text}"
  | .invalidCronSchedule expression cause =>
      s!"invalid cron schedule {Text.quoted expression}: {cause.message}"

/-- Workflow code diverged from history. -/
def isNonDeterminism : EngineError → Bool
  | .replay (.nonDeterminism ..) => true
  | _ => false

end EngineError

namespace Run

def workflowTask (run : Run) : NewTask :=
  ⟨run.taskQueue, .workflow run.ref run.workflowType, .zero⟩

def continuation (run : Run) (runId : Uuid) (attempt : Nat) (delay : Span) : NewRun :=
  ⟨⟨run.ref.workflowId, runId⟩, run.workflowType, run.taskQueue, run.input, attempt, run.parent,
    run.options, delay⟩

end Run

namespace Decision

def childAlreadyStarted : String := "child_already_started"

def invalidCronSchedule : String := "invalid_cron_schedule"

/-! ## Closing a run -/

def reportToParent (run : Run) (closing : Closing) : Event :=
  match closing.status with
  | .completed => .childCompleted run.ref.workflowId run.ref.runId (closing.result.getD .null)
  | _ =>
      .childFailed run.ref.workflowId run.ref.runId
        (closing.failure.getD (.ofKind .infrastructure "child closed"))

/--
Closes the run: open children are asked to cancel, and the parent hears of the outcome unless
another run continues this one.
-/
def close (commit : Commit) (run : Run) (ledger : Ledger) (closing : Closing)
    (next : Option NewRun) : Commit :=
  let reason := s!"parent {run.ref.workflowId} closed"
  let cancellations : List Notification :=
    ledger.children.map fun child => ⟨child, .cancellationRequested reason⟩
  let reports : List Notification :=
    match next, run.parent with
    | none, some parent => [⟨parent, reportToParent run closing⟩]
    | _, _ => []
  { commit with
    newRuns := commit.newRuns ++ next.toList
    notifications := commit.notifications ++ cancellations ++ reports
    closing := some closing }

/-- Attempt number and delay of the run that continues this one, if any does. -/
def continuationPlan? (run : Run) (failure : Option Failure) (now : Instant) : Option (Nat × Span) :=
  let retried : Option (Nat × Span) :=
    match failure, run.options.retryPolicy with
    | some failure, some policy =>
        match policy.decide run.attempt failure.retryable failure.code with
        | .retry delay => some (run.attempt + 1, delay)
        | .giveUp _ => none
    | _, _ => none
  match retried with
  | some plan => some plan
  | none =>
      match run.options.cronSchedule.map CronSchedule.parse with
      | some (.ok schedule) =>
          (schedule.nextAfter? now).map fun fireAt => (1, fireAt.remaining now)
      | _ => none

/-- Attempts of a workflow are counted in a word of 32 bits. -/
def attemptLimit : Nat := Nat.pow 2 32

/-- The run that continues this one after it completed or failed. -/
def nextRun (run : Run) (failure : Option Failure) (now : Instant) : Program (Option NewRun) :=
  match continuationPlan? run failure now with
  | none => return none
  | some (attempt, delay) =>
      if attempt < attemptLimit then do
        let runId ← .request .freshRunId
        return some (run.continuation runId attempt delay)
      else .crash .overflow

/-! ## Commands -/

structure Draft where
  commit : Commit
  /-- Events that follow all recorded commands. -/
  trailing : List Event
  children : List String
  deriving DecidableEq, Repr

namespace Draft

def empty : Draft := ⟨.empty, [], []⟩

def record (draft : Draft) (event : Event) : Draft :=
  { draft with commit := { draft.commit with events := draft.commit.events ++ [event] } }

def addTask (draft : Draft) (task : NewTask) : Draft :=
  { draft with commit := { draft.commit with tasks := draft.commit.tasks ++ [task] } }

def addTimers (draft : Draft) (timers : List Timer) : Draft :=
  { draft with commit := { draft.commit with timers := draft.commit.timers ++ timers } }

def cancelTimers (draft : Draft) (purposes : List TimerPurpose) : Draft :=
  { draft with
    commit := { draft.commit with cancelledTimers := draft.commit.cancelledTimers ++ purposes } }

end Draft

def scheduleActivity (run : Run) (now : Instant) (draft : Draft) (activityId activityType : String)
    (input : Json) (options : ActivityOptions) : Draft :=
  let taskQueue := options.taskQueue.getD run.taskQueue
  let pickup : List Timer := match options.pickupTimeout with
    | some timeout => [⟨run.ref, now.after timeout, .activityPickup activityId⟩]
    | none => []
  ((draft.record (.activityScheduled activityId activityType input taskQueue options)).addTimers
    pickup).addTask
    ⟨taskQueue, .activity ⟨run.ref, activityId, activityType, input, options, 1⟩, .zero⟩

def startTimer (run : Run) (now : Instant) (draft : Draft) (timerId : String) (duration : Span) :
    Draft :=
  let fireAt := now.after duration
  (draft.record (.timerStarted timerId fireAt duration)).addTimers
    [⟨run.ref, fireAt, .workflowTimer timerId⟩]

def cancelTimer (draft : Draft) (timerId : String) : Draft :=
  (draft.record (.timerCancelled timerId)).cancelTimers [.workflowTimer timerId]

def cancelActivity (ledger : Ledger) (draft : Draft) (activityId : String) : Draft :=
  let attemptTimers : List TimerPurpose := match ledger.activity? activityId with
    | some state =>
        [.activityAttempt activityId state.attempt, .activityHeartbeat activityId state.attempt]
    | none => []
  let draft := (draft.record (.activityCancelled activityId)).cancelTimers
    (.activityPickup activityId :: attemptTimers)
  { draft with
    commit := { draft.commit with
      cancelledActivities := draft.commit.cancelledActivities ++ [activityId] } }

def isRunning (workflowId : String) : Program (Except EngineError Bool) := do
  match ← .request (.currentRun workflowId) with
  | .ok run => return .ok (!run.status.isClosed)
  | .error (.workflowNotFound _) => return .ok false
  | .error error => return .error (.store error)

/-- A rejected child is recorded with the nil run id, and fails after all commands. -/
def rejectChild (draft : Draft) (workflowId workflowType : String) (failure : Failure) : Draft :=
  let draft := draft.record (.childStarted workflowId .nil workflowType)
  { draft with trailing := draft.trailing ++ [.childFailed workflowId .nil failure] }

def acceptChild (run : Run) (draft : Draft) (workflowId workflowType : String) (input : Json)
    (taskQueue : Option String) (options : WorkflowOptions) (runId : Uuid) : Draft :=
  let child : NewRun :=
    { NewRun.first ⟨workflowId, runId⟩ workflowType (taskQueue.getD run.taskQueue) input options with
      parent := some run.ref }
  let draft := draft.record (.childStarted workflowId runId workflowType)
  { draft with commit := { draft.commit with newRuns := draft.commit.newRuns ++ [child] } }

def startChild (run : Run) (draft : Draft) (workflowId workflowType : String) (input : Json)
    (taskQueue : Option String) (options : WorkflowOptions) : Program (Except EngineError Draft) :=
  match options.cronSchedule.map CronSchedule.parse with
  | some (.error cause) =>
      let failure := Failure.application s!"invalid cron schedule: {cause.message}"
      return .ok (rejectChild draft workflowId workflowType (failure.withCode invalidCronSchedule))
  | _ => do
      let repeated := draft.children.contains workflowId
      let draft := { draft with children := workflowId :: draft.children }
      let running ← if repeated then pure (.ok true) else isRunning workflowId
      match running with
      | .error error => return .error error
      | .ok true =>
          let failure := Failure.application s!"workflow {workflowId} is already running"
          return .ok (rejectChild draft workflowId workflowType (failure.withCode childAlreadyStarted))
      | .ok false =>
          let runId ← .request .freshRunId
          return .ok (acceptChild run draft workflowId workflowType input taskQueue options runId)

/-- Records the end of the run together with its consequences. -/
def closeWith (run : Run) (ledger : Ledger) (draft : Draft) (event : Event) (closing : Closing)
    (next : Option NewRun) : Draft :=
  let draft := draft.record event
  { draft with commit := close draft.commit run ledger closing next }

def addCommand (run : Run) (ledger : Ledger) (now : Instant) (draft : Draft) :
    Command → Program (Except EngineError Draft)
  | .scheduleActivity activityId activityType input options =>
      return .ok (scheduleActivity run now draft activityId activityType input options)
  | .startTimer timerId duration => return .ok (startTimer run now draft timerId duration)
  | .cancelTimer timerId => return .ok (cancelTimer draft timerId)
  | .cancelActivity activityId => return .ok (cancelActivity ledger draft activityId)
  | .startChild workflowId workflowType input taskQueue options =>
      startChild run draft workflowId workflowType input taskQueue options
  | .complete result => do
      let next ← nextRun run none now
      return .ok (closeWith run ledger draft (.workflowCompleted result)
        ⟨.completed, some result, none⟩ next)
  | .fail failure => do
      let next ← nextRun run (some failure) now
      return .ok (closeWith run ledger draft (.workflowFailed failure)
        ⟨.failed, none, some failure⟩ next)
  | .cancel reason =>
      return .ok (closeWith run ledger draft (.workflowCancelled reason)
        ⟨.cancelled, none, some (.ofKind .cancelled reason)⟩ none)
  | .awaitSignal _ => return .ok draft
  | .awaitCondition _ _ => return .ok draft

/-- Adds commands in order, up to the one that closes the run. -/
def addCommands (run : Run) (ledger : Ledger) (now : Instant) :
    Draft → List Command → Program (Except EngineError Draft)
  | draft, [] => return .ok draft
  | draft, command :: rest => do
      match ← addCommand run ledger now draft command with
      | .error error => return .error error
      | .ok draft =>
          if draft.commit.closing.isSome then return .ok draft
          else addCommands run ledger now draft rest

/-- Rejected children wake the workflow again, unless the run closes. -/
def finish (run : Run) (draft : Draft) : Commit :=
  if draft.trailing.isEmpty || draft.commit.closing.isSome then draft.commit
  else
    { draft.commit with
      events := draft.commit.events ++ draft.trailing
      tasks := draft.commit.tasks ++ [run.workflowTask] }

def build (run : Run) (ledger : Ledger) (commands : List Command) (now : Instant) :
    Program (Except EngineError Commit) := do
  match ← addCommands run ledger now .empty commands with
  | .error error => return .error error
  | .ok draft => return .ok (finish run draft)

end Decision

end Chronicle
