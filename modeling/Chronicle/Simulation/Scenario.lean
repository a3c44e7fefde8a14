import Chronicle.Simulation.Action

/-!
# Scenarios

A scenario is a list of steps.  A step acts until it has to wait, and only then others act; when
everything waits, the clock jumps to the next moment at which something has to be done.
-/

namespace Chronicle

namespace Setting

variable {ρ α : Type}

/-! ## Beginning an action -/

/-- An action ends with an answer, or becomes a frame. -/
abbrev Progress (ρ α : Type) := Session × Except (Frame ρ α) α

def answerOf (setting : Setting ρ α) : Except Crash α → α
  | .ok answer => answer
  | .error _ => setting.crashed

def turnWatch (setting : Setting ρ α) (session : Session) (watch : Watch α) : Progress ρ α :=
  match watch.turn session with
  | (session, .ok result) => (session, .ok (setting.answerOf result))
  | (session, .error watch) => (session, .error (.watch watch))

def beginPoll (setting : Setting ρ α) (session : Session) (label : String) (request : PollRequest)
    (answer : Except StoreError (Option LeasedTask) → α) : Progress ρ α :=
  match session.ask (LongPoll.start request session.moment) with
  | (.error _, session) => (session, .ok setting.crashed)
  | (.ok (.error error), session) => (session, .ok (answer (.error error)))
  | (.ok (.ok poll), session) => setting.turnWatch session (.task label poll answer)

/-- A stopped poller finds nothing, and its pause stays the same. -/
def beginPollerPoll (setting : Setting ρ α) (session : Session) (name label : String)
    (held : HeldPoller) (answer : PollerReport (Except StoreError (Option LeasedTask)) → α) :
    Progress ρ α :=
  if held.stopped then
    (session, .ok (answer (Watch.report session held session.moment (.ok none))))
  else
    match session.ask (LongPoll.start held.poller.request session.moment) with
    | (.error _, session) => (session.dropPoller name, .ok setting.crashed)
    | (.ok (.error error), session) =>
        match Watch.endPollerPoll session name label held session.moment answer (.error error) with
        | (session, .ok result) => (session, .ok (setting.answerOf result))
        | (session, .error watch) => (session, .error (.watch watch))
    | (.ok (.ok poll), session) =>
        setting.turnWatch session (.pollerTask name label held poll session.moment answer)

def beginPollerPause (setting : Setting ρ α) (session : Session) (held : HeldPoller)
    (answer : PollerReport Bool → α) : Progress ρ α :=
  let endsAt := if held.stopped then session.moment
    else session.moment.after held.poller.interval
  setting.turnWatch session (.pollerPause held endsAt session.moment answer)

def beginResult (setting : Setting ρ α) (session : Session) (client : Client)
    (run : Program (Except ClientError RunRef)) (limit : Span)
    (answer : Except ClientError Json → Nat → α) : Progress ρ α :=
  match session.ask run with
  | (.error _, session) => (session, .ok setting.crashed)
  | (.ok (.error error), session) => (session, .ok (answer (.error error) 0))
  | (.ok (.ok ref), session) =>
      let wait : ResultWait := ⟨ref, session.moment.after limit⟩
      setting.turnWatch session (.result client wait session.moment session.moment answer)

def statusAfter (worker : Worker) : Except WorkerError Unit → Except WorkerError WorkerStatus
  | .ok _ => .ok worker.status
  | .error error => .error error

def beginWork (session : Session) (worker : Worker) (span : Span) (sequel : Sequel ρ)
    (answer : WorkReport → List α → α) : Frame ρ α :=
  let (worker, started) := worker.start
  let (again, startedAgain) := worker.start
  .work again span (statusAfter worker started) (statusAfter again startedAgain) .accompanied
    (.rest session.moment [] sequel) answer

def begin (setting : Setting ρ α) (session : Session) : Action ρ α → Progress ρ α
  | .answer value => (session, .ok value)
  | .ask program =>
      let (result, session) := session.ask program
      (session, .ok (setting.answerOf result))
  | .observe program =>
      let (result, session) := session.observe program
      (session, .ok (setting.answerOf result))
  | .change change value => (change session, .ok value)
  | .setForward span answer =>
      let session := session.setForward span
      (session, .error (.watch (.landing session.moment answer)))
  | .poll label request answer => setting.beginPoll session label request answer
  | .pollerPoll name label held answer => setting.beginPollerPoll session name label held answer
  | .pollerPause held answer => setting.beginPollerPause session held answer
  | .pollerStop name held answer =>
      let held := { held with stopped := true }
      (session.keepPoller name held,
        .ok (answer (Watch.report session held session.moment true)))
  | .awaitResult client run limit answer => setting.beginResult session client run limit answer
  | .execute service task sequel answer =>
      (session, .error (.execute service task session.moment .unbegun
        (.rest session.moment [] sequel) answer))
  | .work worker span sequel answer => (session, .error (beginWork session worker span sequel answer))

/-! ## Going on -/

/-- Lets an attempt act, unless there are deadlines that were passed over. -/
def turnAttempt (session : Session) (service : ActivityService) (task : LeasedTask)
    (startedAt : Moment) (stage : AttemptStage) : Session × AttemptStage :=
  let took := Moment.millis (session.moment - startedAt)
  let turn := match stage with
    | .unbegun => some (session.ask (service.begin session.moment task))
    | .running attempt =>
        if session.setFrom.isSome then none
        else some (session.ask (service.turn session.moment attempt))
    | .ended .. => none
  match turn with
  | none => (session, stage)
  | some (.ok (.waiting attempt), session) => (session, .running attempt)
  | some (.ok (.finished report), session) => (session, .ended (.ok report) took)
  | some (.error cause, session) => (session, .ended (.error cause) took)

def turnShutdown (session : Session) (worker : Worker) (shutdown : Shutdown) :
    Worker × Except WorkStage (Except WorkerError Unit) :=
  match worker.continueShutdown session.moment shutdown with
  | (worker, .ok result) => (worker, .ok result)
  | (worker, .error shutdown) => (worker, .error (.stopping shutdown))

/-- Begins the shutdown when its moment has come. -/
def turnWork (session : Session) (worker : Worker) :
    WorkStage → Worker × Except WorkStage (Except WorkerError Unit)
  | .accompanied => (worker, .error .accompanied)
  | .alone endsAt =>
      if session.moment < endsAt then (worker, .error (.alone endsAt))
      else
        match worker.beginShutdown with
        | (worker, none) => (worker, .ok (.ok ()))
        | (worker, some shutdown) => turnShutdown session worker shutdown
  | .stopping shutdown => turnShutdown session worker shutdown

/-- A worker goes on alone when no step is left beside it. -/
def leaveAlone (session : Session) (span : Span) (routine : Routine ρ α) : WorkStage → WorkStage
  | .accompanied =>
      if routine.finished?.isSome then .alone (session.moment.after span) else .accompanied
  | stage => stage

/-- The worker's last words; what still runs stays in the background. -/
def endWork (session : Session) (worker : Worker)
    (started startedAgain : Except WorkerError WorkerStatus) (result : Except WorkerError Unit)
    (answers : List α) (answer : WorkReport → List α → α) : Progress ρ α :=
  let report : WorkReport :=
    { started := started
      startedAgain := startedAgain
      stopped := statusAfter worker result
      stoppedAgain := .ok worker.status
      status := worker.status }
  ({ session with background := session.background ++ [worker] }, .ok (answer report answers))

mutual

/-- Lets an action act until it waits; the number bounds the depth of nested actions. -/
def turnFrame (setting : Setting ρ α) : Nat → Session → Frame ρ α → Progress ρ α
  | 0, session, _ => (session, .ok setting.crashed)
  | limit + 1, session, frame =>
      match frame with
      | .watch watch => setting.turnWatch session watch
      | .execute service task startedAt stage routine answer =>
          let (session, stage) := turnAttempt session service task startedAt stage
          let (session, routine) := turnRoutine setting limit session routine
          match stage, routine.finished? with
          | .ended (.ok report) took, some answers => (session, .ok (answer report took answers))
          | .ended (.error _) _, some _ => (session, .ok setting.crashed)
          | _, _ => (session, .error (.execute service task startedAt stage routine answer))
      | .work worker span started startedAgain stage routine answer =>
          let (session, routine) := turnRoutine setting limit session routine
          let answers := routine.finished?.getD []
          let stage := leaveAlone session span routine stage
          match turnWork session worker stage with
          | (worker, .ok result) =>
              endWork session worker started startedAgain result answers answer
          | (worker, .error stage) =>
              let (session, worker) :=
                session.settleWorker (setting.catalogue session.version) worker
              match turnWork session worker stage with
              | (worker, .ok result) =>
                  endWork session worker started startedAgain result answers answer
              | (worker, .error stage) =>
                  (session, .error (.work worker span started startedAgain stage routine answer))

/-- Performs the steps of a routine whose time has come. -/
def turnRoutine (setting : Setting ρ α) : Nat → Session → Routine ρ α → Session × Routine ρ α
  | 0, session, routine => (session, routine)
  | limit + 1, session, routine =>
      match routine with
      | .resting answers resumesAt [] => (session, .resting answers resumesAt [])
      | .resting answers resumesAt ((pause, step) :: sequel) =>
          if session.moment < resumesAt then
            (session, .resting answers resumesAt ((pause, step) :: sequel))
          else
            match setting.begin session (setting.read session step) with
            | (session, .ok answer) =>
                turnRoutine setting limit session (.rest session.moment (answers ++ [answer]) sequel)
            | (session, .error frame) =>
                turnRoutine setting limit session (.acting answers frame sequel)
      | .acting answers frame sequel =>
          match turnFrame setting limit session frame with
          | (session, .ok answer) =>
              turnRoutine setting limit session (.rest session.moment (answers ++ [answer]) sequel)
          | (session, .error frame) => (session, .acting answers frame sequel)

end

def depthLimit : Nat := 10000

/-! ## Running a scenario -/

/-- Lets the action act, and if it still waits, all workers in the background. -/
def turnAll (setting : Setting ρ α) (session : Session) (frame : Frame ρ α) : Progress ρ α :=
  match setting.turnFrame depthLimit session frame with
  | (session, .ok answer) => (session, .ok answer)
  | (session, .error frame) =>
      (session.settleBackground (setting.catalogue session.version), .error frame)

/-- Brings an action to its end; the number bounds the jumps of the clock. -/
def complete (setting : Setting ρ α) : Nat → Session → Frame ρ α → Session × α
  | 0, session, _ => (session, setting.crashed)
  | limit + 1, session, frame =>
      let seen := session.wakeups
      match setting.turnAll session frame with
      | (session, .ok answer) => (session, answer)
      | (session, .error frame) =>
          if session.wakeups != seen then complete setting limit session frame
          else
            match (frame.nextMoment?.toList ++ session.nextMoment?.toList).min? with
            | some moment => complete setting limit (session.advanceTo moment) frame
            | none => (session, setting.crashed)

def jumpLimit : Nat := 10000000

def perform (setting : Setting ρ α) (session : Session) (step : ρ) : Session × α :=
  match setting.begin session (setting.read session step) with
  | (session, .ok answer) => (session, answer)
  | (session, .error frame) => setting.complete jumpLimit session frame

/-- Performs steps in order, and keeps the session as it is after each. -/
def run (setting : Setting ρ α) : Session → List ρ → List (α × Session)
  | _, [] => []
  | session, step :: rest =>
      let (session, answer) := setting.perform session step
      (answer, session) :: run setting session rest

end Setting

end Chronicle
