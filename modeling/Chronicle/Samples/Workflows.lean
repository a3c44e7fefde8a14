import Chronicle.Workflow.Definition

/-!
# Small workflows

`bare` does nothing; `counter` counts up to a target, one activity at a time; `errand` has something
delivered and sets itself a reminder, and `renewal` takes both back and asks for them again;
`delegation` has a child try something again and again, and `trial` is what that child tries in vain.
`alarm` is set for a minute, may be stopped, and may be set again; `vigil` waits a minute at a time for
a bell that it listens to once; `reception` opens after a minute, and gives every guest a number.
`firework` goes off whatever happens, and `dud` when somebody looks whether it burns.
-/

namespace Chronicle.Samples

/-- Reacts to nothing but failures and cancellation. -/
def bare : WorkflowType where
  name := "bare"
  State := Unit
  create _ := .ok ()
  react _ _ stimulus := .ok ⟨(), stimulus.defaultStep, 0⟩
  acceptsSignal _ _ := .ok false
  conditionHolds _ _ := .ok false
  query _ name _ := .error (WorkflowType.unknownQuery name)

/-- Time for a courier to take over the delivery. -/
def errandOptions : ActivityOptions :=
  { ActivityOptions.standard with pickupTimeout := some (.ofSeconds 30) }

def errandStep : Stimulus → Step
  | .started =>
      .ok [.startTimer "reminder" (.ofSeconds 60),
        .scheduleActivity "delivery" "deliver" .null errandOptions]
  | stimulus => stimulus.defaultStep

def errand : WorkflowType where
  name := "errand"
  State := Unit
  create _ := .ok ()
  react _ _ stimulus := .ok ⟨(), errandStep stimulus, 0⟩
  acceptsSignal _ _ := .ok false
  conditionHolds _ _ := .ok false
  query _ name _ := .error (WorkflowType.unknownQuery name)

/-- A workflow without a state. -/
def reactive (name : String) (step : Stimulus → Step) : WorkflowType where
  name := name
  State := Unit
  create _ := .ok ()
  react _ _ stimulus := .ok ⟨(), step stimulus, 0⟩
  acceptsSignal _ _ := .ok false
  conditionHolds _ _ := .ok false
  query _ name _ := .error (WorkflowType.unknownQuery name)

def renewal : WorkflowType :=
  reactive "renewal" fun
    | .started =>
        .ok [.cancelTimer "reminder", .startTimer "reminder" (.ofSeconds 60),
          .cancelActivity "delivery",
          .scheduleActivity "delivery" "deliver" .null errandOptions]
    | stimulus => stimulus.defaultStep

/-- Every failure of a trial is followed by another attempt. -/
def trialOptions : WorkflowOptions :=
  { WorkflowOptions.standard with retryPolicy := some (.fixed .zero 0) }

def delegation : WorkflowType :=
  reactive "delegation" fun
    | .started => .ok [.startChild "trial" "trial" .null none trialOptions]
    | stimulus => stimulus.defaultStep

def trial : WorkflowType :=
  reactive "trial" fun
    | .started => .error { Failure.application "failed again" with retryable := true }
    | stimulus => stimulus.defaultStep

def firework : WorkflowType :=
  { reactive "firework" Stimulus.defaultStep with react := fun _ _ _ => .error ⟨some "bang"⟩ }

def dudStep : Stimulus → Step
  | .started => .ok [.awaitCondition "burning" none]
  | stimulus => stimulus.defaultStep

def dud : WorkflowType :=
  { reactive "dud" dudStep with conditionHolds := fun _ _ => .error ⟨some "late bang"⟩ }

def setAlarm : Command := .startTimer "alarm" (.ofSeconds 60)

def alarm : WorkflowType :=
  reactive "alarm" fun
    | .started => .ok [setAlarm, .awaitSignal "stop"]
    | .signalled signal =>
        if signal.name = "stop" then .ok [.cancelTimer "alarm", .awaitSignal "set"]
        else .ok [setAlarm]
    | stimulus => stimulus.defaultStep

def rungWithinMinute : Command := .awaitCondition "rung" (some (.ofSeconds 60))

/-- The state says whether the bell has rung. -/
def vigil : WorkflowType where
  name := "vigil"
  State := Bool
  create _ := .ok false
  react rung _
    | .started => .ok ⟨rung, .ok [.awaitSignal "bell", rungWithinMinute], 0⟩
    | .signalled _ => .ok ⟨true, .ok [], 0⟩
    | .conditionResolved _ _ => .ok ⟨false, .ok [rungWithinMinute], 0⟩
    | stimulus => .ok ⟨rung, stimulus.defaultStep, 0⟩
  acceptsSignal _ _ := .ok false
  conditionHolds rung _ := .ok rung
  query _ name _ := .error (WorkflowType.unknownQuery name)

/-- The state says whether the doors are open; until then the guests have to wait. -/
def reception : WorkflowType where
  name := "reception"
  State := Bool
  create _ := .ok false
  react opened _
    | .started => .ok ⟨opened, .ok [.startTimer "opening" (.ofSeconds 60)], 0⟩
    | .timerFired _ => .ok ⟨true, .ok [], 0⟩
    | .signalled _ => .ok ⟨opened, .ok [], 1⟩
    | stimulus => .ok ⟨opened, stimulus.defaultStep, 0⟩
  acceptsSignal opened _ := .ok opened
  conditionHolds _ _ := .ok false
  query _ name _ := .error (WorkflowType.unknownQuery name)

structure CounterInput where
  start : Int
  target : Int
  deriving DecidableEq, Repr

namespace CounterInput

def toJson (input : CounterInput) : Json :=
  .record [("start", .int input.start), ("target", .int input.target)]

def ofJson? (value : Json) : Option CounterInput := do
  let start ← value.required "start" (Json.signed? 32)
  let target ← value.required "target" (Json.signed? 32)
  some ⟨start, target⟩

end CounterInput

structure Counter where
  current : Int
  target : Int
  deriving DecidableEq, Repr

namespace Counter

/-- Completes at the target, otherwise asks for an increment. -/
def next (counter : Counter) : Step :=
  if counter.target ≤ counter.current then
    .ok [.complete (.record [("final_value", .int counter.current)])]
  else
    .ok [.scheduleActivity s!"increment-{counter.current}" "increment"
      (.record [("value", .int counter.current)]) .standard]

/-- The `value` of a result, cut to 32 bits; zero where there is none. -/
def valueOf (result : Json) : Int :=
  match result.get "value" with
  | .int value => if value < Nat.pow 2 63 then Int.bmod value (Nat.pow 2 32) else 0
  | _ => 0

def react (counter : Counter) (stimulus : Stimulus) : Reaction Counter :=
  match stimulus with
  | .started => ⟨counter, counter.next, 0⟩
  | .activityCompleted _ result =>
      let counter := { counter with current := valueOf result }
      ⟨counter, counter.next, 0⟩
  | stimulus => ⟨counter, stimulus.defaultStep, 0⟩

end Counter

def counter : WorkflowType where
  name := "counter"
  State := Counter
  create input :=
    match CounterInput.ofJson? input with
    | some input => .ok ⟨input.start, input.target⟩
    | none => .error (.undecodable undecodableReason)
  react state _ stimulus := .ok (state.react stimulus)
  acceptsSignal _ _ := .ok false
  conditionHolds _ _ := .ok false
  query state name _ :=
    if name = "current" then .ok (.int state.current)
    else .error (.application s!"unknown query: {name}")

end Chronicle.Samples
