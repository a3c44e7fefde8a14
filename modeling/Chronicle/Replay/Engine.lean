import Chronicle.Replay.State

/-!
# Replaying a history

The commands that workflow code returns must be the ones that history records, in the same
order.  An event that reaches workflow code while recorded commands are outstanding, and a
record that no outstanding command matches, are both non-determinism.
-/

namespace Chronicle

namespace Replayer

variable {workflow : WorkflowType}

def expectedText (commands : List Command) : String :=
  match commands.head?.bind Command.key? with
  | some key => key.text
  | none => "no command"

def mismatch (replayer : Replayer workflow) (eventId : Nat) (found : String) : ReplayStop :=
  .error (.nonDeterminism eventId (expectedText replayer.pending) found)

/-- Keeps track of what recorded commands mean for later events. -/
def noteRecorded (replayer : Replayer workflow) (event : Event) : Replayer workflow :=
  match event with
  | .timerStarted timerId .. =>
      { replayer with startedTimers := timerId :: replayer.startedTimers }
  | .timerCancelled timerId =>
      { replayer with cancelledTimers := timerId :: replayer.cancelledTimers }
  | .activityCancelled activityId =>
      { replayer with cancelledActivities := activityId :: replayer.cancelledActivities }
  | event => if event.isClose then { replayer with closed := true } else replayer

/-- Matches a recorded command against the oldest outstanding one. -/
def matchCommand (replayer : Replayer workflow) (event : HistoryEvent) (found : CommandKey) :
    Except ReplayStop (Replayer workflow) :=
  match replayer.pending with
  | [] => .error (replayer.mismatch event.eventId found.text)
  | command :: rest =>
      if command.key? = some found then
        .ok ({ replayer with pending := rest, draining := !rest.isEmpty }.noteRecorded event.event)
      else .error (replayer.mismatch event.eventId found.text)

/-- Index of the first item for which a predicate of workflow code holds. -/
def findIndex? (holds : α → Except Panic Bool) : Nat → List α → Except Panic (Option Nat)
  | _, [] => .ok none
  | index, item :: rest =>
      match holds item with
      | .error panic => .error panic
      | .ok true => .ok (some index)
      | .ok false => findIndex? holds (index + 1) rest

/-- A signal can be delivered if it is awaited or if the workflow takes it at any time. -/
def isDeliverable (replayer : Replayer workflow) (signal : Signal) : Except Panic Bool :=
  if replayer.awaited.contains signal.name then .ok true
  else workflow.acceptsSignal replayer.state signal.name

def isSatisfied (replayer : Replayer workflow) (condition : AwaitedCondition) :
    Except Panic Bool :=
  workflow.conditionHolds replayer.state condition.id

/-- Takes a signal from the inbox, together with one wait for its name, and delivers it. -/
def deliver (frame : ReplayFrame) (event : HistoryEvent) (replayer : Replayer workflow)
    (index : Nat) : Except ReplayStop (Replayer workflow) :=
  match replayer.inbox[index]? with
  | none => .ok replayer
  | some signal =>
      dispatch frame event
        { replayer with
          inbox := replayer.inbox.eraseIdx index
          awaited := replayer.awaited.erase signal.name }
        (.signalled signal)

/-- Ends the wait for a satisfied condition and cancels its timer. -/
def satisfy (frame : ReplayFrame) (event : HistoryEvent) (replayer : Replayer workflow)
    (index : Nat) : Except ReplayStop (Replayer workflow) :=
  match replayer.conditions[index]? with
  | none => .ok replayer
  | some condition =>
      let replayer := { replayer with conditions := replayer.conditions.eraseIdx index }
      let replayer := if condition.hasTimer
        then replayer.acceptCommand (.cancelTimer (Command.conditionTimer condition.id))
        else replayer
      dispatch frame event replayer (.conditionResolved condition.id .satisfied)

/--
Delivers signals and resolves conditions until nothing is left to do.  The limit counts the
handler calls; a workflow that never comes to rest exhausts it.
-/
def settle (frame : ReplayFrame) (event : HistoryEvent) :
    Nat → Replayer workflow → Except ReplayStop (Replayer workflow)
  | 0, _ => .error (.crash .endless)
  | limit + 1, replayer =>
      if replayer.closed || replayer.terminalPending then .ok replayer
      else
        match findIndex? replayer.isDeliverable 0 replayer.inbox with
        | .error panic => .error (.crash (.panicked panic))
        | .ok (some index) =>
            match deliver frame event replayer index with
            | .error stop => .error stop
            | .ok replayer => settle frame event limit replayer
        | .ok none =>
            match findIndex? replayer.isSatisfied 0 replayer.conditions with
            | .error panic => .error (.crash (.panicked panic))
            | .ok (some index) =>
                match satisfy frame event replayer index with
                | .error stop => .error stop
                | .ok replayer => settle frame event limit replayer
            | .ok none => .ok replayer

/-- Ends the wait for a condition whose time is up. -/
def conditionTimedOut (frame : ReplayFrame) (event : HistoryEvent) (replayer : Replayer workflow)
    (conditionId : String) : Except ReplayStop (Replayer workflow) :=
  match replayer.conditions.findIdx? fun condition => condition.id = conditionId with
  | none => .ok replayer
  | some index =>
      dispatch frame event { replayer with conditions := replayer.conditions.eraseIdx index }
        (.conditionResolved conditionId .timedOut)

/-- A timer counts if it was started and not cancelled. -/
def timerFired (frame : ReplayFrame) (event : HistoryEvent) (replayer : Replayer workflow)
    (timerId : String) : Except ReplayStop (Replayer workflow) :=
  if replayer.cancelledTimers.contains timerId || !replayer.startedTimers.contains timerId then
    .ok replayer
  else
    match Command.conditionOfTimer? timerId with
    | some conditionId => conditionTimedOut frame event replayer conditionId
    | none => dispatch frame event replayer (.timerFired timerId)

/-- Outcome of an activity, unless the workflow cancelled it. -/
def activityClosed (frame : ReplayFrame) (event : HistoryEvent) (replayer : Replayer workflow)
    (activityId : String) (stimulus : Stimulus) : Except ReplayStop (Replayer workflow) :=
  if replayer.cancelledActivities.contains activityId then .ok replayer
  else dispatch frame event replayer stimulus

/-- Hands an event that records no command to workflow code. -/
def perceive (frame : ReplayFrame) (event : HistoryEvent) (replayer : Replayer workflow) :
    Except ReplayStop (Replayer workflow) :=
  match event.event with
  | .workflowStarted .. => dispatch frame event replayer .started
  | .activityCompleted activityId _ result =>
      activityClosed frame event replayer activityId (.activityCompleted activityId result)
  | .activityFailed activityId _ failure _ _ =>
      activityClosed frame event replayer activityId (.activityFailed activityId failure)
  | .activityTimedOut activityId _ timeout _ _ =>
      activityClosed frame event replayer activityId
        (.activityFailed activityId (.timedOut timeout.name))
  | .timerFired timerId => timerFired frame event replayer timerId
  | .signalReceived signal => .ok { replayer with inbox := replayer.inbox ++ [signal] }
  | .childCompleted workflowId _ result =>
      dispatch frame event replayer (.childCompleted workflowId result)
  | .childFailed workflowId _ failure =>
      dispatch frame event replayer (.childFailed workflowId failure)
  | .cancellationRequested reason =>
      if replayer.cancelRequested then .ok replayer
      else dispatch frame event { replayer with cancelRequested := true } (.cancelRequested reason)
  | _ => .ok replayer

end Replayer

/-- Progress reports and attempts that are repeated never reach workflow code. -/
def Event.isProgress : Event → Bool
  | .activityStarted .. | .activityHeartbeat .. => true
  | .activityFailed _ _ _ willRetry _ => willRetry
  | .activityTimedOut _ _ _ willRetry _ => willRetry
  | _ => false

/-- The run was closed from outside. -/
def Event.isForcedClose : Event → Bool
  | .workflowTimedOut | .workflowTerminated _ => true
  | _ => false

namespace Replayer

variable {workflow : WorkflowType}

def apply (limit : Nat) (frame : ReplayFrame) (replayer : Replayer workflow)
    (event : HistoryEvent) : Except ReplayStop (Replayer workflow) :=
  match event.event.key? with
  | some found => replayer.matchCommand event found
  | none =>
      if event.event.isProgress then .ok replayer
      else if event.event.isForcedClose then .ok { replayer with closed := true }
      else if replayer.draining && !replayer.pending.isEmpty then
        .error (replayer.mismatch event.eventId event.event.name)
      else
        match perceive frame event replayer with
        | .error stop => .error stop
        | .ok replayer => settle frame event limit replayer

def applyAll (limit : Nat) (frame : ReplayFrame) :
    Replayer workflow → List HistoryEvent → Except ReplayStop (Replayer workflow)
  | replayer, [] => .ok replayer
  | replayer, event :: rest =>
      match replayer.apply limit frame event with
      | .error stop => .error stop
      | .ok replayer => if replayer.closed then .ok replayer else applyAll limit frame replayer rest

end Replayer

structure ReplayOutcome where
  workflow : WorkflowType
  state : workflow.State
  newCommands : List Command
  closed : Bool
  lastEventId : Nat
  calls : List HandlerCall

namespace Replay

/-- Id of the last event that records a command. -/
def horizon (history : List HistoryEvent) : Nat :=
  match history.reverse.find? fun event => event.event.key?.isSome with
  | some event => event.eventId
  | none => 0

def lastEventId (history : List HistoryEvent) : Nat :=
  match history.getLast? with
  | some event => event.eventId
  | none => 0

/-- Outstanding commands are new, unless history stopped in the middle of a decision. -/
def conclude {workflow : WorkflowType} (replayer : Replayer workflow) (lastEventId : Nat) :
    Except ReplayStop ReplayOutcome :=
  if !replayer.closed && replayer.draining && !replayer.pending.isEmpty then
    .error (replayer.mismatch lastEventId "end of history")
  else
    .ok ⟨workflow, replayer.state, if replayer.closed then [] else replayer.pending,
      replayer.closed, lastEventId, replayer.calls⟩

def run (limit : Nat) (workflow : WorkflowType) (frame : ReplayFrame) (input : Json)
    (history : List HistoryEvent) : Except ReplayStop ReplayOutcome :=
  match workflow.create input with
  | .error (.undecodable reason) => .error (.error (.registry (.undecodableInput reason)))
  | .error (.panicked panic) => .error (.crash (.panicked panic))
  | .ok state =>
      match (Replayer.initial state).applyAll limit frame history with
      | .error stop => .error stop
      | .ok replayer => conclude replayer (lastEventId history)

def standardLimit : Nat := 100000

end Replay

/-- Replays a history, which must begin with the start of the run. -/
def replay (limit : Nat) (registry : WorkflowRegistry) (ref : RunRef)
    (history : List HistoryEvent) : Except ReplayStop ReplayOutcome :=
  match history.head?.map HistoryEvent.event with
  | some (.workflowStarted workflowType input _ attempt _ _) =>
      match registry.find? workflowType with
      | none => .error (.error (.registry (.unknownType workflowType)))
      | some workflow =>
          Replay.run limit workflow ⟨ref, workflowType, attempt, Replay.horizon history⟩ input history
  | _ => .error (.error (.missingStart ref))

end Chronicle
