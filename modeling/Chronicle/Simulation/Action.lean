import Chronicle.Simulation.Watch

/-!
# Actions

What a step of a scenario does.  An action says how to put its result into an answer; the
answers of one scenario are of one type.  Steps that run beside an action are read only when
their time has come.
-/

namespace Chronicle

/-- Steps one after the other, each with the pause before it. -/
abbrev Sequel (ρ : Type) := List (Span × ρ)

/-- What a worker said when it was started twice and shut down twice. -/
structure WorkReport where
  started : Except WorkerError WorkerStatus
  startedAgain : Except WorkerError WorkerStatus
  stopped : Except WorkerError WorkerStatus
  stoppedAgain : Except WorkerError WorkerStatus
  status : WorkerStatus
  deriving Repr

inductive Action (ρ α : Type) where
  | answer (value : α)
  | ask (program : Program α)
  /-- Asks the store itself, past its shell. -/
  | observe (program : Program α)
  | change (change : Session → Session) (answer : α)
  /-- Sets the clock forward. -/
  | setForward (span : Span) (answer : Instant → α)
  | poll (label : String) (request : PollRequest)
      (answer : Except StoreError (Option LeasedTask) → α)
  | pollerPoll (name label : String) (held : HeldPoller)
      (answer : PollerReport (Except StoreError (Option LeasedTask)) → α)
  | pollerPause (held : HeldPoller) (answer : PollerReport Bool → α)
  | pollerStop (name : String) (held : HeldPoller) (answer : PollerReport Bool → α)
  | awaitResult (client : Client) (run : Program (Except ClientError RunRef)) (limit : Span)
      (answer : Except ClientError Json → Nat → α)
  | execute (service : ActivityService) (task : LeasedTask) (sequel : Sequel ρ)
      (answer : Except EngineError AttemptReport → Nat → List α → α)
  | work (worker : Worker) (span : Span) (sequel : Sequel ρ) (answer : WorkReport → List α → α)

/-- How steps are read and answered. -/
structure Setting (ρ α : Type) where
  /-- The workflow types of each version. -/
  catalogue : Nat → WorkflowRegistry
  read : Session → ρ → Action ρ α
  crashed : α

/-! ## Actions under way -/

inductive AttemptStage where
  | unbegun
  | running (attempt : Attempt)
  | ended (report : Except Crash (Except EngineError AttemptReport)) (took : Nat)

/-- A worker beside which other steps run: it works, and shuts down at a moment. -/
inductive WorkStage where
  | accompanied
  | alone (endsAt : Moment)
  | stopping (shutdown : Shutdown)

mutual

/-- An action that takes time. -/
inductive Frame (ρ α : Type) where
  | watch (watch : Watch α)
  | execute (service : ActivityService) (task : LeasedTask) (startedAt : Moment)
      (stage : AttemptStage) (routine : Routine ρ α)
      (answer : Except EngineError AttemptReport → Nat → List α → α)
  | work (worker : Worker) (span : Span) (started startedAgain : Except WorkerError WorkerStatus)
      (stage : WorkStage) (routine : Routine ρ α) (answer : WorkReport → List α → α)

/-- Steps that run one after the other, with the answers so far. -/
inductive Routine (ρ α : Type) where
  | resting (answers : List α) (resumesAt : Moment) (sequel : Sequel ρ)
  | acting (answers : List α) (frame : Frame ρ α) (sequel : Sequel ρ)

end

namespace Routine

variable {ρ α : Type}

def rest (moment : Moment) (answers : List α) (sequel : Sequel ρ) : Routine ρ α :=
  let pause := match sequel with
    | (pause, _) :: _ => pause
    | [] => .zero
  .resting answers (moment.after pause) sequel

def finished? : Routine ρ α → Option (List α)
  | .resting answers _ [] => some answers
  | _ => none

end Routine

mutual

def Frame.nextMoment? {ρ α : Type} : Frame ρ α → Option Moment
  | .watch watch => some watch.lookAgainAt
  | .execute _ _ _ (.running attempt) routine _ =>
      some ((routine.nextMoment?.getD attempt.nextMoment).min attempt.nextMoment)
  | .execute _ _ _ _ routine _ => routine.nextMoment?
  | .work worker _ _ _ stage routine _ =>
      let own := match stage with
        | .accompanied => routine.nextMoment?
        | .alone endsAt => some endsAt
        | .stopping shutdown => shutdown.nextMoment?
      (own.toList ++ worker.nextMoment?.toList).min?

def Routine.nextMoment? {ρ α : Type} : Routine ρ α → Option Moment
  | .resting _ _ [] => none
  | .resting _ resumesAt _ => some resumesAt
  | .acting _ frame _ => frame.nextMoment?

end

end Chronicle
