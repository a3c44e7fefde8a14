import Chronicle.Workflow.RunRef
import Chronicle.Time.Timestamp

/-!
# Timers

A timer belongs to a run and has a purpose, which says what happens when it fires.
-/

namespace Chronicle

inductive TimerPurpose where
  | workflowTimer (timerId : String)
  | activityPickup (activityId : String)
  | activityAttempt (activityId : String) (attempt : Nat)
  | activityHeartbeat (activityId : String) (attempt : Nat)
  | runTimeout
  deriving DecidableEq, Repr

namespace TimerPurpose

def toJson : TimerPurpose → Json
  | .workflowTimer timerId =>
      .record [("purpose", .text "workflow_timer"), ("timer_id", .text timerId)]
  | .activityPickup activityId =>
      .record [("purpose", .text "activity_schedule_to_start"), ("activity_id", .text activityId)]
  | .activityAttempt activityId attempt =>
      .record [("purpose", .text "activity_start_to_close"), ("activity_id", .text activityId),
        ("attempt", .ofNat attempt)]
  | .activityHeartbeat activityId attempt =>
      .record [("purpose", .text "activity_heartbeat"), ("activity_id", .text activityId),
        ("attempt", .ofNat attempt)]
  | .runTimeout => .record [("purpose", .text "workflow_execution_timeout")]

def ofJson? (value : Json) : Option TimerPurpose := do
  let purpose ← value.required "purpose" Json.text?
  match purpose with
  | "workflow_timer" =>
      let timerId ← value.required "timer_id" Json.text?
      some (.workflowTimer timerId)
  | "activity_schedule_to_start" =>
      let activityId ← value.required "activity_id" Json.text?
      some (.activityPickup activityId)
  | "activity_start_to_close" =>
      let activityId ← value.required "activity_id" Json.text?
      let attempt ← value.required "attempt" (Json.word? 32)
      some (.activityAttempt activityId attempt)
  | "activity_heartbeat" =>
      let activityId ← value.required "activity_id" Json.text?
      let attempt ← value.required "attempt" (Json.word? 32)
      some (.activityHeartbeat activityId attempt)
  | "workflow_execution_timeout" => some .runTimeout
  | _ => none

end TimerPurpose

structure Timer where
  run : RunRef
  fireAt : Instant
  purpose : TimerPurpose
  deriving DecidableEq, Repr

end Chronicle
