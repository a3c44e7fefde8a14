import Chronicle.Activity.Context
import Chronicle.Activity.Registry
import Chronicle.Engine.Outcome
import Chronicle.Time.Moment

/-!
# Attempts

A worker makes an attempt at an activity that it holds a task for.  It records the start, lets
the activity behave within its time limits, records heartbeats, renews the lease, and in the end
records the outcome and gives the task back.
-/

namespace Chronicle

/-! ## Behaviour in time -/

inductive Pause where
  | sleeping (wakesAt : Moment) (next : Behaviour)
  | sending (details : Option Json) (next : Except HeartbeatError Unit → Behaviour)
  | awaitingCancellation (next : Behaviour)
  | ended (outcome : AttemptOutcome)

/-- A panic ends the attempt, but not the worker. -/
def Panic.toFailure (panic : Panic) : ActivityFailure :=
  (ActivityFailure.transient s!"activity panicked: {panic.message}").withCode
    ActivityFailure.panicCode

namespace Behaviour

/-- Runs a behaviour up to its next pause. -/
def advance (moment : Moment) : Behaviour → ActivityContext → Pause × ActivityContext
  | .finish (.ok result), context => (.ended (.completed result), context)
  | .finish (.error failure), context => (.ended (.failed failure), context)
  | .panic cause, context => (.ended (.failed cause.toFailure), context)
  | .sleep span next, context =>
      if span.isZero then next.advance moment context
      else (.sleeping (moment.after span) next, context)
  | .heartbeat details next, context =>
      match context.heartbeat details with
      | .sent context => (next (.ok ())).advance moment context
      | .refused error => (next (.error error)).advance moment context
      | .blocked => (.sending details next, context)
  | .awaitCancellation next, context =>
      if context.cancelled then next.advance moment context
      else (.awaitingCancellation next, context)
  | .askCancelled next, context => (next context.cancelled).advance moment context

end Behaviour

namespace Pause

/-- Goes on if what the behaviour waits for has come. -/
def resume (moment : Moment) (context : ActivityContext) : Pause → Pause × ActivityContext
  | .sleeping wakesAt next =>
      if wakesAt ≤ moment then next.advance moment context else (.sleeping wakesAt next, context)
  | .sending details next =>
      match context.send details with
      | .sent context => (next (.ok ())).advance moment context
      | .refused error => (next (.error error)).advance moment context
      | .blocked => (.sending details next, context)
  | .awaitingCancellation next =>
      if context.cancelled then next.advance moment context
      else (.awaitingCancellation next, context)
  | .ended outcome => (.ended outcome, context)

end Pause

/-! ## Attempts -/

inductive AttemptReport where
  /-- The attempt has an outcome. -/
  | recorded
  /-- The attempt was not open; nothing was done. -/
  | stale
  /-- The lease was lost while the attempt ran. -/
  | abandoned
  deriving DecidableEq, Repr

namespace AttemptReport

def name : AttemptReport → String
  | .recorded => "Recorded"
  | .stale => "Stale"
  | .abandoned => "Abandoned"

end AttemptReport

structure Attempt where
  task : LeasedTask
  work : ActivityTask
  context : ActivityContext
  pause : Pause
  deadline : Moment
  heartbeatDeadline : Option Moment
  renewAt : Moment

namespace Attempt

/-- An attempt either goes on or ends with a report. -/
inductive Turn where
  | waiting (attempt : Attempt)
  | finished (report : Except EngineError AttemptReport)

def nextMoment (attempt : Attempt) : Moment :=
  let limits := [attempt.renewAt] ++ attempt.heartbeatDeadline.toList
  let limits := match attempt.pause with
    | .sleeping wakesAt _ => wakesAt :: limits
    | _ => limits
  limits.foldl min attempt.deadline

def isSilent (attempt : Attempt) (moment : Moment) : Bool :=
  match attempt.heartbeatDeadline with
  | some deadline => deadline ≤ moment
  | none => false

def resume (attempt : Attempt) (moment : Moment) : Attempt :=
  let (pause, context) := attempt.pause.resume moment attempt.context
  { attempt with pause := pause, context := context }

def cancel (attempt : Attempt) : Attempt := { attempt with context := attempt.context.cancel }

end Attempt

/-! ## The service that makes attempts -/

structure ActivityService where
  engine : Engine
  activities : ActivityRegistry
  workerId : String
  leaseDuration : Span

namespace ActivityService

/-- Shortest time between two renewals of a lease. -/
def shortestRenewal : Span := .ofMillis 10

/-- A lease is renewed three times before it would expire. -/
def renewalPeriod (service : ActivityService) : Nat :=
  max (service.leaseDuration.nanos / 3) shortestRenewal.nanos

/-- Gives the task back; it does not matter if it is gone already. -/
def release (task : LeasedTask) (report : AttemptReport) : Program Attempt.Turn := do
  match ← .request (.completeTask task.taskId task.token) with
  | .ok _ => return .finished (.ok report)
  | .error (.leaseLost _) => return .finished (.ok report)
  | .error (.taskNotFound _) => return .finished (.ok report)
  | .error error => return .finished (.error (.store error))

/-! ### Start -/

inductive Unrecorded where
  | notOpen
  /-- A task that was handed out again has started before. -/
  | alreadyStarted
  deriving DecidableEq, Repr

def startTimers (work : ActivityTask) (now : Instant) : List Timer :=
  let silence : List Timer := match work.options.heartbeatTimeout with
    | some timeout =>
        [⟨work.run, now.after timeout, .activityHeartbeat work.activityId work.attempt⟩]
    | none => []
  ⟨work.run, now.after work.options.attemptTimeout,
    .activityAttempt work.activityId work.attempt⟩ :: silence

def startReviser (workerId : String) (work : ActivityTask) : Reviser Unrecorded :=
  fun _ ledger =>
    if !ledger.isAttemptOpen work.activityId work.attempt then .keep .notOpen
    else if (ledger.activity? work.activityId).any ActivityState.started then .keep .alreadyStarted
    else
      .writeAt fun now =>
        { Commit.ofEvents [.activityStarted work.activityId work.attempt workerId] with
          cancelledTimers := [.activityPickup work.activityId]
          timers := startTimers work now }

/-- Whether the attempt may run. -/
def recordStart (service : ActivityService) (work : ActivityTask) :
    Program (Except EngineError Bool) := do
  match ← service.engine.revise work.run (startReviser service.workerId work) with
  | .ok (.kept .notOpen) => return .ok false
  | .ok _ => return .ok true
  | .error (.runClosed _) => return .ok false
  | .error (.store (.runNotFound _)) => return .ok false
  | .error error => return .error error

/-! ### Heartbeats -/

def heartbeatReviser (work : ActivityTask) (details : Option Json) : Reviser Unit :=
  fun _ ledger =>
    if !ledger.isAttemptOpen work.activityId work.attempt then .keep ()
    else
      let commit := Commit.ofEvents [.activityHeartbeat work.activityId work.attempt details]
      match work.options.heartbeatTimeout with
      | none => .write commit
      | some timeout =>
          .writeAt fun now =>
            { commit with
              timers := [⟨work.run, now.after timeout,
                .activityHeartbeat work.activityId work.attempt⟩] }

/-- An attempt that is not open any more is cancelled. -/
def recordHeartbeat (service : ActivityService) (attempt : Attempt) (details : Option Json) :
    Program Attempt := do
  match ← service.engine.revise attempt.work.run (heartbeatReviser attempt.work details) with
  | .ok (.written _) => return attempt
  | .ok (.kept _) => return attempt.cancel
  | .error (.runClosed _) => return attempt.cancel
  | .error _ => return attempt

/-- Extends the lease, and hears whether to cancel; there is no attempt without a lease. -/
def renewLease (service : ActivityService) (attempt : Attempt) : Program (Option Attempt) := do
  let task := attempt.task
  match ← .request (.heartbeatTask task.taskId task.token service.leaseDuration) with
  | .ok reply => return some (if reply.shouldCancel then attempt.cancel else attempt)
  | .error (.leaseLost _) => return none
  | .error (.taskNotFound _) => return none
  | .error _ => return some attempt

/-! ### Course -/

def conclude (service : ActivityService) (task : LeasedTask) (work : ActivityTask)
    (outcome : AttemptOutcome) : Program Attempt.Turn := do
  match ← service.engine.revise work.run
      (AttemptOutcome.reviser work.activityId work.attempt outcome) with
  | .ok _ => release task .recorded
  | .error (.runClosed _) => release task .recorded
  | .error error => return .finished (.error error)

/-- Does what is due, one thing after the other; the number bounds them. -/
def drive (service : ActivityService) (moment : Moment) : Nat → Attempt → Program Attempt.Turn
  | 0, _ => .crash .endless
  | limit + 1, attempt =>
      let attempt := attempt.resume moment
      match attempt.pause with
      | .ended outcome => service.conclude attempt.task attempt.work outcome
      | _ =>
          if attempt.deadline ≤ moment then
            service.conclude attempt.task attempt.work (.timedOut .startToClose)
          else if attempt.isSilent moment then
            service.conclude attempt.task attempt.work (.timedOut .heartbeat)
          else
            match attempt.context.receive with
            | (some details, context) => do
                let timeout := attempt.work.options.heartbeatTimeout
                let attempt := { attempt with
                  context := context
                  heartbeatDeadline := timeout.map moment.after }
                let attempt ← service.recordHeartbeat attempt details
                match ← service.renewLease attempt with
                | some attempt => drive service moment limit attempt
                | none => return .finished (.ok .abandoned)
            | (none, _) =>
                if attempt.renewAt ≤ moment then do
                  let attempt := { attempt with renewAt := attempt.renewAt + service.renewalPeriod }
                  match ← service.renewLease attempt with
                  | some attempt => drive service moment limit attempt
                  | none => return .finished (.ok .abandoned)
                else return .waiting attempt

def driveLimit : Nat := 100000

def turn (service : ActivityService) (moment : Moment) (attempt : Attempt) : Program Attempt.Turn :=
  service.drive moment driveLimit attempt

def prepare (service : ActivityService) (moment : Moment) (task : LeasedTask) (work : ActivityTask)
    (type : ActivityType) : Attempt :=
  let info : AttemptInfo :=
    ⟨work.run, work.activityId, work.attempt, work.options.retryPolicy.maximumAttempts⟩
  let (pause, context) :=
    (type.begin info work.input).advance moment ⟨info, some .standard, false⟩
  { task := task
    work := work
    context := context
    pause := pause
    deadline := moment.after work.options.attemptTimeout
    heartbeatDeadline := work.options.heartbeatTimeout.map moment.after
    renewAt := moment + service.renewalPeriod }

/-- Takes up a task.  What is not an open attempt is given back at once. -/
def begin (service : ActivityService) (moment : Moment) (task : LeasedTask) :
    Program Attempt.Turn :=
  match task.work with
  | .workflow .. => release task .stale
  | .activity work => do
      match ← service.recordStart work with
      | .error error => return .finished (.error error)
      | .ok false => release task .stale
      | .ok true =>
          match service.activities.find? work.activityType with
          | some type => service.turn moment (service.prepare moment task work type)
          | none =>
              let failure :=
                ActivityFailure.permanent s!"activity type not registered: {work.activityType}"
              service.conclude task work (.failed failure)

end ActivityService

end Chronicle
