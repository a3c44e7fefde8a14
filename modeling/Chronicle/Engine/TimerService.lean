import Chronicle.Engine.Outcome

/-!
# The timer service

Takes due timers from the store and records what they mean for their runs.
-/

namespace Chronicle

structure TimerConfig where
  tickInterval : Span
  batchSize : Nat
  retryDelay : Span
  deriving DecidableEq, Repr

namespace TimerConfig

def standard : TimerConfig := ⟨.ofMillis 50, 100, .ofSeconds 1⟩

def withBatchSize (config : TimerConfig) (batchSize : Nat) : TimerConfig :=
  { config with batchSize := max batchSize 1 }

def toJson (config : TimerConfig) : Json :=
  .record [("tick_interval", config.tickInterval.toJson), ("batch_size", .ofNat config.batchSize),
    ("retry_delay", config.retryDelay.toJson)]

def ofJson? (value : Json) : Option TimerConfig := do
  let tickInterval ← value.required "tick_interval" Span.ofJson?
  let batchSize ← value.required "batch_size" (Json.word? 64)
  let retryDelay ← value.required "retry_delay" Span.ofJson?
  some ⟨tickInterval, batchSize, retryDelay⟩

end TimerConfig

structure TimerService where
  engine : Engine
  config : TimerConfig

namespace TimerService

/-- A timer that is no longer pending says nothing. -/
def workflowTimer (timerId : String) : Reviser Unit := fun run ledger =>
  if ledger.isTimerPending timerId then Engine.noticeCommit (.timerFired timerId) run ledger
  else .keep ()

/-- An attempt that nobody picked up in time ends the activity. -/
def pickupTimeout (activityId : String) : Reviser Unit := fun run ledger =>
  match ledger.activity? activityId with
  | none => .keep ()
  | some state =>
      if state.closed || state.started then .keep ()
      else
        .write { Commit.ofEvents
            [.activityTimedOut activityId state.attempt .scheduleToStart false false] with
          tasks := [run.workflowTask]
          cancelledActivities := [activityId] }

def fire (service : TimerService) (timer : Timer) : Program (Except EngineError (Revised Unit)) :=
  match timer.purpose with
  | .workflowTimer timerId => service.engine.revise timer.run (workflowTimer timerId)
  | .activityPickup activityId => service.engine.revise timer.run (pickupTimeout activityId)
  | .activityAttempt activityId attempt =>
      service.engine.revise timer.run
        (AttemptOutcome.reviser activityId attempt (.timedOut .startToClose))
  | .activityHeartbeat activityId attempt =>
      service.engine.revise timer.run
        (AttemptOutcome.reviser activityId attempt (.timedOut .heartbeat))
  | .runTimeout => service.engine.timeOut timer.run

/-- Fires a timer; one whose run is gone is dropped, and one that fails is scheduled again. -/
def fireOrReschedule (service : TimerService) (timer : Timer) : Program (Except StoreError Unit) := do
  match ← service.fire timer with
  | .ok _ => return .ok ()
  | .error (.runClosed _) => return .ok ()
  | .error (.store (.runNotFound _)) => return .ok ()
  | .error _ =>
      let now ← .request .now
      .request (.scheduleTimer { timer with fireAt := now.after service.config.retryDelay })

def fireAll (service : TimerService) : List Timer → Program (Except StoreError Unit)
  | [] => return .ok ()
  | timer :: rest => do
      match ← service.fireOrReschedule timer with
      | .error error => return .error error
      | .ok _ => fireAll service rest

/-- Takes batches until one is not full, and counts the timers; the limit bounds the batches. -/
def drain (service : TimerService) : Nat → Nat → Program (Except StoreError Nat)
  | 0, _ => .crash .endless
  | limit + 1, fired => do
      let now ← .request .now
      match ← .request (.popDueTimers now service.config.batchSize) with
      | .error error => return .error error
      | .ok due =>
          match ← service.fireAll due with
          | .error error => return .error error
          | .ok _ =>
              if due.length < service.config.batchSize then return .ok (fired + due.length)
              else drain service limit (fired + due.length)

def batchLimit : Nat := 100000

def fireDue (service : TimerService) : Program (Except StoreError Nat) :=
  service.drain batchLimit 0

end TimerService

end Chronicle
