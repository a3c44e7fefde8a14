import Chronicle.Workflow.Registry

/-!
# The state of a replay

A replay feeds the events of a history to workflow code and matches the commands that the code
returns against the commands that history records.  This module holds the state of a replay and
the call of a single handler.
-/

namespace Chronicle

/-- Why workflow code did not return at all. -/
inductive Crash where
  | panicked (panic : Panic)
  /-- A loop did not come to an end within its limit. -/
  | endless
  /-- A number outgrew its word. -/
  | overflow
  /-- The clock could not be read. -/
  | noTime
  deriving DecidableEq, Repr

inductive ReplayError where
  | nonDeterminism (eventId : Nat) (expected found : String)
  | handlerPanicked (eventId : Nat) (message : String)
  | missingStart (run : RunRef)
  | registry (error : RegistryError)
  deriving DecidableEq, Repr

def ReplayError.message : ReplayError → String
  | .nonDeterminism eventId expected found =>
      s!"non-determinism at event {eventId}: expected {expected}, history has {found}"
  | .handlerPanicked eventId message => s!"workflow handler panicked at event {eventId}: {message}"
  | .missingStart run => s!"history of {run.text} does not start with WorkflowStarted"
  | .registry error => error.message

/-- An error is an answer; a crash leaves the caller without one. -/
inductive ReplayStop where
  | error (error : ReplayError)
  | crash (crash : Crash)
  deriving DecidableEq, Repr

structure AwaitedCondition where
  id : String
  hasTimer : Bool
  deriving DecidableEq, Repr

structure HandlerCall where
  context : Context
  stimulus : Stimulus
  step : Step
  drawn : Nat

/-- What stays fixed while a history is replayed. -/
structure ReplayFrame where
  run : RunRef
  workflowType : String
  attempt : Nat
  /-- Events with a smaller id were decided by an earlier workflow task. -/
  horizon : Nat
  deriving DecidableEq, Repr

structure Replayer (workflow : WorkflowType) where
  state : workflow.State
  /-- Commands that history has not recorded yet, oldest first. -/
  pending : List Command
  /-- Some commands of the last decision are recorded, others are not. -/
  draining : Bool
  terminalPending : Bool
  awaited : List String
  inbox : List Signal
  conditions : List AwaitedCondition
  startedTimers : List String
  cancelledTimers : List String
  cancelledActivities : List String
  cancelRequested : Bool
  closed : Bool
  calls : List HandlerCall

namespace Replayer

variable {workflow : WorkflowType}

def initial (state : workflow.State) : Replayer workflow :=
  ⟨state, [], false, false, [], [], [], [], [], [], false, false, []⟩

/-- Queues one command; what follows a terminal command is dropped. -/
def acceptCommand (replayer : Replayer workflow) (command : Command) : Replayer workflow :=
  if replayer.terminalPending then replayer
  else
    match command with
    | .awaitSignal signalName => { replayer with awaited := replayer.awaited ++ [signalName] }
    | .awaitCondition conditionId timeout =>
        let timer := match timeout with
          | some timeout => [Command.startTimer (Command.conditionTimer conditionId) timeout]
          | none => []
        { replayer with
          pending := replayer.pending ++ timer
          conditions := replayer.conditions ++ [⟨conditionId, timeout.isSome⟩] }
    | command =>
        { replayer with
          terminalPending := command.isTerminal
          pending := replayer.pending ++ [command] }

/-- Queues the commands of a step; a failure is the command to fail. -/
def accept (replayer : Replayer workflow) (step : Step) : Replayer workflow :=
  match step with
  | .ok commands => commands.foldl acceptCommand replayer
  | .error failure => replayer.acceptCommand (.fail failure)

def contextOf (frame : ReplayFrame) (event : HistoryEvent) : Context :=
  ⟨frame.run, frame.workflowType, frame.attempt, event.eventId, event.timestamp,
    event.eventId < frame.horizon⟩

/-- Runs a handler and queues its commands, unless the run is about to close. -/
def dispatch (frame : ReplayFrame) (event : HistoryEvent) (replayer : Replayer workflow)
    (stimulus : Stimulus) : Except ReplayStop (Replayer workflow) :=
  if replayer.terminalPending || replayer.closed then .ok replayer
  else
    let context := contextOf frame event
    match workflow.react replayer.state context stimulus with
    | .error panic => .error (.error (.handlerPanicked event.eventId panic.message))
    | .ok reaction =>
        let call : HandlerCall := ⟨context, stimulus, reaction.step, reaction.drawn⟩
        .ok ({ replayer with
          state := reaction.state
          calls := replayer.calls ++ [call] }.accept reaction.step)

end Replayer

end Chronicle
