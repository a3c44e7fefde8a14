import Chronicle.Activity.Behaviour
import Chronicle.Samples.Script

/-!
# Small activities

`echo` returns its input, `increment` adds one, `deliver` fails at first, `stroll` takes a minute for
the same, and `act` does what its input tells it.
-/

namespace Chronicle.Samples

def echo : ActivityType where
  name := "echo"
  begin _ input := .complete input

/-- Finds nobody at home at the first attempt. -/
def deliver : ActivityType where
  name := "deliver"
  begin info input :=
    if info.attempt = 1 then .fail (.transient "nobody at home") else .complete input

def overflowCode : String := "OVERFLOW"

/-- Adds one to the 32-bit `value` of the input. -/
def increment : ActivityType where
  name := "increment"
  begin _ input :=
    match input.required "value" (Json.signed? 32) with
    | none => .fail (.undecodable undecodableReason)
    | some value =>
        if value + 1 < Nat.pow 2 31 then .complete (.record [("value", .int (value + 1))])
        else .fail ((ActivityFailure.permanent "overflow").withCode overflowCode)

namespace Act

/-- Steps for the attempt: its own, else those for any attempt, else those for all. -/
def stepsFor (attempt : Nat) (input : Json) : List Json :=
  let attempts := input.get "attempts"
  let steps := (attempts.field? (toString attempt)).or (attempts.field? "*")
  (steps.getD (input.get "steps")).items

def infoRecord (info : AttemptInfo) (cancelled : Bool) : Json :=
  .record [("attempt", .ofNat info.attempt), ("max_attempts", .ofNat info.maxAttempts),
    ("activity_id", .text info.activityId), ("workflow_id", .text info.run.workflowId),
    ("last", .bool info.isLast), ("cancelled", .bool cancelled)]

/-- A cancelled activity ends as such; a closed channel is a transient failure. -/
def afterHeartbeat (next : Behaviour) : Except HeartbeatError Unit → Behaviour
  | .ok _ => next
  | .error .cancelled => .fail .cancelled
  | .error error => .fail (.transient error.message)

def perform (info : AttemptInfo) (step : Json) (next : Behaviour) : Behaviour :=
  let has (key : String) : Bool := (step.field? key).isSome
  if has "sleep" then .sleep (.ofMillis (((step.get "sleep").word? 64).getD 0)) next
  else if has "heartbeat" then
    .heartbeat (step.get "heartbeat").nonNull? (afterHeartbeat next)
  else if has "until_cancelled" then .awaitCancellation (.fail .cancelled)
  else if has "ok" then .complete (step.get "ok")
  else if has "ctx" then .askCancelled fun cancelled => .complete (infoRecord info cancelled)
  else if has "err" then
    .fail ((ActivityFailure.ofJson? (step.get "err")).getD (.permanent "bad error"))
  else if has "anyhow" then .fail (.transient (Script.textOf (step.get "anyhow")))
  else if has "panic" then .panic (Script.panicOf (step.get "panic"))
  else next

def performAll (info : AttemptInfo) (steps : List Json) : Behaviour :=
  steps.foldr (perform info) (.complete .null)

end Act

def act : ActivityType where
  name := "act"
  begin info input := Act.performAll info (Act.stepsFor info.attempt input)

end Chronicle.Samples
