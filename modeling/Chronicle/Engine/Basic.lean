import Chronicle.Engine.Revision

/-!
# The engine

Starts runs, advances them by workflow tasks, and records what happens to them from outside.
-/

namespace Chronicle

structure EngineLimits where
  /-- Greatest number of events with which a run is still advanced. -/
  maxEvents : Nat
  maxConflictRetries : Nat
  /-- Greatest number of handler calls between two events. -/
  replayLimit : Nat
  deriving DecidableEq, Repr

def EngineLimits.standard : EngineLimits := ⟨10000, 16, Replay.standardLimit⟩

structure Engine where
  registry : WorkflowRegistry
  limits : EngineLimits

structure TaskResult where
  closed : Bool
  eventsWritten : Nat
  tasksEnqueued : Nat
  deriving DecidableEq, Repr

namespace TaskResult

def idle : TaskResult := ⟨false, 0, 0⟩

def alreadyClosed : TaskResult := ⟨true, 0, 0⟩

def ofCommit (commit : Commit) : TaskResult :=
  ⟨commit.closing.isSome, commit.events.length, commit.tasks.length⟩

end TaskResult

namespace Engine

def invalidInput : String := "invalid_input"

def rounds (engine : Engine) : Nat := engine.limits.maxConflictRetries + 1

def revise {α : Type} (engine : Engine) (ref : RunRef) (reviser : Reviser α) :
    Program (Except EngineError (Revised α)) :=
  Revision.attempt ref reviser engine.rounds

/-! ## Starting -/

/-- The type need not be registered, but a cron schedule must parse. -/
def start (new : NewRun) : Program (Except EngineError RunRef) := do
  match new.options.cronSchedule.map fun text => (text, CronSchedule.parse text) with
  | some (expression, .error cause) => return .error (.invalidCronSchedule expression cause)
  | _ =>
      match ← .request (.createRun new) with
      | .ok _ => return .ok new.ref
      | .error error => return .error (.store error)

/-! ## Events from outside -/

def noticeCommit (event : Event) : Reviser Unit := fun run _ =>
  .write { Commit.ofEvents [event] with tasks := [run.workflowTask] }

/-- Closes the run without running workflow code; no other run continues it. -/
def forceClose (event : Event) (closing : Closing) : Reviser Unit := fun run ledger =>
  .write (Decision.close (.ofEvents [event]) run ledger closing none)

def signal (engine : Engine) (ref : RunRef) (signal : Signal) :
    Program (Except EngineError (Revised Unit)) :=
  engine.revise ref (noticeCommit (.signalReceived signal))

def requestCancellation (engine : Engine) (ref : RunRef) (reason : String) :
    Program (Except EngineError (Revised Unit)) :=
  engine.revise ref (noticeCommit (.cancellationRequested reason))

def terminate (engine : Engine) (ref : RunRef) (reason : String) :
    Program (Except EngineError (Revised Unit)) :=
  engine.revise ref (forceClose (.workflowTerminated reason)
    ⟨.terminated, none, some (.ofKind .terminated reason)⟩)

def timeOut (engine : Engine) (ref : RunRef) : Program (Except EngineError (Revised Unit)) :=
  engine.revise ref (forceClose .workflowTimedOut
    ⟨.timedOut, none, some (.ofKind .timeout "workflow execution timed out")⟩)

/-! ## Workflow tasks -/

/-- Fails a run that no workflow code can serve, without regard to retries and schedules. -/
def failInvalidInput (engine : Engine) (ref : RunRef) (reason : String) :
    Program (Except EngineError TaskResult) := do
  let failure :=
    (Failure.application s!"workflow input does not decode: {reason}").withCode invalidInput
  let closing : Closing := ⟨.failed, none, some failure⟩
  match ← engine.revise ref (forceClose (.workflowFailed failure) closing) with
  | .ok _ => return .ok ⟨true, 1, 0⟩
  | .error (.runClosed _) => return .ok .alreadyClosed
  | .error error => return .error error

/-- Commits the new commands of a replayed run; `again` starts over after a lost race. -/
def commitDecision (run : Run) (history : List HistoryEvent) (commands : List Command)
    (again : Program (Except EngineError TaskResult)) : Program (Except EngineError TaskResult) := do
  let now ← .request .now
  match ← Decision.build run (.ofHistory history) commands now with
  | .error error => return .error error
  | .ok commit =>
      match ← .request (.commit run.ref history.length commit) with
      | .ok _ => return .ok (.ofCommit commit)
      | .error (.versionConflict _ _) => again
      | .error (.alreadyStarted _ _) => again
      | .error (.runClosed _) => return .ok .alreadyClosed
      | .error error => return .error (.store error)

def decide (engine : Engine) (run : Run) (ref : RunRef) (history : List HistoryEvent)
    (again : Program (Except EngineError TaskResult)) : Program (Except EngineError TaskResult) :=
  match replay engine.limits.replayLimit engine.registry ref history with
  | .error (.crash cause) => .crash cause
  | .error (.error (.registry (.undecodableInput reason))) => engine.failInvalidInput ref reason
  | .error (.error error) => return .error (.replay error)
  | .ok outcome =>
      if outcome.closed then return .ok .alreadyClosed
      else if outcome.newCommands.isEmpty then return .ok .idle
      else commitDecision run history outcome.newCommands again

/-- Advances an open run; the number bounds the rounds. -/
def advance (engine : Engine) (ref : RunRef) : Nat → Program (Except EngineError TaskResult)
  | 0 => return .error (.conflictRetriesExhausted ref)
  | rounds + 1 => do
      match ← .request (.getRun ref) with
      | .error error => return .error (.store error)
      | .ok run =>
          if run.status.isClosed then return .ok .alreadyClosed
          else
            match ← .request (.readEvents ref 0) with
            | .error error => return .error (.store error)
            | .ok history =>
                if engine.limits.maxEvents < history.length then
                  return .error (.tooManyEvents ref history.length engine.limits.maxEvents)
                else engine.decide run ref history (advance engine ref rounds)

def processTask (engine : Engine) (ref : RunRef) : Program (Except EngineError TaskResult) :=
  engine.advance ref engine.rounds

/-! ## Queries -/

/-- Replays the run and asks its workflow; nothing is written. -/
def query (engine : Engine) (ref : RunRef) (name : String) (args : Json) :
    Program (Except EngineError Json) := do
  match ← .request (.readEvents ref 0) with
  | .error error => return .error (.store error)
  | .ok history =>
      match replay engine.limits.replayLimit engine.registry ref history with
      | .error (.crash cause) => .crash cause
      | .error (.error error) => return .error (.replay error)
      | .ok outcome =>
          match outcome.workflow.query outcome.state name args with
          | .ok value => return .ok value
          | .error failure => return .error (.query failure)

end Engine

end Chronicle
