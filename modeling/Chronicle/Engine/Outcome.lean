import Chronicle.Engine.Basic

/-!
# Outcomes of activity attempts

An outcome counts only for the current attempt of an open activity.  A failed attempt is
repeated if the retry policy says so, otherwise the workflow is woken.
-/

namespace Chronicle

inductive AttemptOutcome where
  | completed (result : Json)
  | failed (failure : ActivityFailure)
  | timedOut (timeout : TimeoutType)
  deriving DecidableEq, Repr

namespace AttemptOutcome

def attemptTimers (activityId : String) (attempt : Nat) : List TimerPurpose :=
  [.activityAttempt activityId attempt, .activityHeartbeat activityId attempt]

/-- Commit for the end of an attempt, which needs its timers no more. -/
def endCommit (activityId : String) (attempt : Nat) (event : Event) : Commit :=
  { Commit.ofEvents [event] with cancelledTimers := attemptTimers activityId attempt }

def lastRevision (run : Run) (activityId : String) (attempt : Nat) (event : Event) : Revision Unit :=
  .write { endCommit activityId attempt event with tasks := [run.workflowTask] }

/-- An end with another attempt after a delay, from whose end the timer for its pickup runs. -/
def retryRevision (run : Run) (state : ActivityState) (activityId : String) (attempt : Nat)
    (delay : Span) (event : Event) : Revision Unit :=
  let work : ActivityTask :=
    ⟨run.ref, activityId, state.activityType, state.input, state.options, attempt + 1⟩
  let commit := { endCommit activityId attempt event with
    tasks := [⟨state.taskQueue, .activity work, delay⟩] }
  match state.options.pickupTimeout with
  | none => .write commit
  | some timeout =>
      .writeAt fun now =>
        { commit with
          timers := [⟨run.ref, now.after (delay.plus timeout), .activityPickup activityId⟩] }

/-- What follows from a failed attempt; `event` is told whether there is a retry. -/
def failureRevision (run : Run) (state : ActivityState) (activityId : String) (attempt : Nat)
    (failure : ActivityFailure) (event : Bool → Bool → Event) : Revision Unit :=
  match state.options.retryPolicy.decide attempt failure.retryable failure.code with
  | .retry delay => retryRevision run state activityId attempt delay (event true false)
  | .giveUp exhausted => lastRevision run activityId attempt (event false exhausted)

def revision (run : Run) (state : ActivityState) (activityId : String) (attempt : Nat) :
    AttemptOutcome → Revision Unit
  | .completed result =>
      lastRevision run activityId attempt (.activityCompleted activityId attempt result)
  | .failed failure =>
      failureRevision run state activityId attempt failure
        (.activityFailed activityId attempt failure)
  | .timedOut timeout =>
      failureRevision run state activityId attempt (.timedOut timeout.name)
        (.activityTimedOut activityId attempt timeout)

/-- Records an outcome; the outcome of an attempt that is not open is dropped. -/
def reviser (activityId : String) (attempt : Nat) (outcome : AttemptOutcome) : Reviser Unit :=
  fun run ledger =>
    match ledger.activity? activityId with
    | none => .keep ()
    | some state =>
        if ledger.isAttemptOpen activityId attempt then
          outcome.revision run state activityId attempt
        else .keep ()

end AttemptOutcome

end Chronicle
