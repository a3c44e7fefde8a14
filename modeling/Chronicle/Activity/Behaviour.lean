import Chronicle.Workflow.Definition

/-!
# Activities

An activity is ordinary code that may take time.  Its behaviour is a tree of the steps that the
engine can see: pauses, heartbeats, waits for cancellation, and the end.
-/

namespace Chronicle

inductive HeartbeatError where
  | channelClosed
  | cancelled
  deriving DecidableEq, Repr

def HeartbeatError.message : HeartbeatError → String
  | .channelClosed => "heartbeat channel closed"
  | .cancelled => "activity was cancelled"

structure AttemptInfo where
  run : RunRef
  activityId : String
  attempt : Nat
  /-- Greatest number of attempts, zero if there is no limit. -/
  maxAttempts : Nat
  deriving DecidableEq, Repr

def AttemptInfo.isLast (info : AttemptInfo) : Bool :=
  info.maxAttempts != 0 && info.maxAttempts ≤ info.attempt

inductive Behaviour where
  | finish (result : Except ActivityFailure Json)
  | panic (cause : Panic)
  | sleep (span : Span) (next : Behaviour)
  | heartbeat (details : Option Json) (next : Except HeartbeatError Unit → Behaviour)
  | awaitCancellation (next : Behaviour)
  | askCancelled (next : Bool → Behaviour)

namespace Behaviour

def complete (result : Json) : Behaviour := .finish (.ok result)

def fail (failure : ActivityFailure) : Behaviour := .finish (.error failure)

end Behaviour

structure ActivityType where
  name : String
  begin : AttemptInfo → Json → Behaviour

end Chronicle
