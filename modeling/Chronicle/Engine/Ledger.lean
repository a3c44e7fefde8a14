import Chronicle.Workflow.Event

/-!
# The ledger of a run

What the engine has to know about a history to act on it: the state of every scheduled activity,
the pending timers and the open children.  It is folded from the events, without running
workflow code.
-/

namespace Chronicle

structure ActivityState where
  activityType : String
  input : Json
  taskQueue : String
  options : ActivityOptions
  attempt : Nat
  /-- A worker has picked up the current attempt. -/
  started : Bool
  closed : Bool
  deriving DecidableEq, Repr

structure Ledger where
  activities : List (String × ActivityState)
  pendingTimers : List String
  openChildren : List (String × Uuid)
  closed : Bool
  deriving DecidableEq, Repr

namespace Ledger

def empty : Ledger := ⟨[], [], [], false⟩

def setEntry (key : String) (value : α) (entries : List (String × α)) : List (String × α) :=
  (key, value) :: entries.filter fun entry => entry.1 != key

def activity? (ledger : Ledger) (activityId : String) : Option ActivityState :=
  ledger.activities.lookup activityId

/-- The attempt is the activity's current one and has no outcome yet. -/
def isAttemptOpen (ledger : Ledger) (activityId : String) (attempt : Nat) : Bool :=
  match ledger.activity? activityId with
  | some state => !state.closed && state.attempt = attempt
  | none => false

def isTimerPending (ledger : Ledger) (timerId : String) : Bool := ledger.pendingTimers.contains timerId

def modifyActivity (ledger : Ledger) (activityId : String)
    (change : ActivityState → ActivityState) : Ledger :=
  match ledger.activity? activityId with
  | some state => { ledger with activities := setEntry activityId (change state) ledger.activities }
  | none => ledger

def modifyAttempt (ledger : Ledger) (activityId : String) (attempt : Nat)
    (change : ActivityState → ActivityState) : Ledger :=
  if ledger.isAttemptOpen activityId attempt then ledger.modifyActivity activityId change else ledger

/-- An attempt ended without success: the next one begins, or the activity is closed. -/
def endAttempt (willRetry : Bool) (state : ActivityState) : ActivityState :=
  if willRetry then { state with attempt := state.attempt + 1, started := false }
  else { state with closed := true }

def removeTimer (ledger : Ledger) (timerId : String) : Ledger :=
  { ledger with pendingTimers := ledger.pendingTimers.filter fun other => other != timerId }

def removeChild (ledger : Ledger) (workflowId : String) : Ledger :=
  { ledger with openChildren := ledger.openChildren.filter fun entry => entry.1 != workflowId }

def apply (ledger : Ledger) : Event → Ledger
  | .activityScheduled activityId activityType input taskQueue options =>
      { ledger with
        activities := setEntry activityId ⟨activityType, input, taskQueue, options, 1, false, false⟩
          ledger.activities }
  | .activityStarted activityId attempt _ =>
      ledger.modifyAttempt activityId attempt fun state => { state with started := true }
  | .activityFailed activityId attempt _ willRetry _ =>
      ledger.modifyAttempt activityId attempt (endAttempt willRetry)
  | .activityTimedOut activityId attempt _ willRetry _ =>
      ledger.modifyAttempt activityId attempt (endAttempt willRetry)
  | .activityCompleted activityId _ _ =>
      ledger.modifyActivity activityId fun state => { state with closed := true }
  | .activityCancelled activityId =>
      ledger.modifyActivity activityId fun state => { state with closed := true }
  | .timerStarted timerId _ _ =>
      let ledger := ledger.removeTimer timerId
      { ledger with pendingTimers := timerId :: ledger.pendingTimers }
  | .timerFired timerId => ledger.removeTimer timerId
  | .timerCancelled timerId => ledger.removeTimer timerId
  | .childStarted workflowId runId _ =>
      if runId = Uuid.nil then ledger
      else { ledger with openChildren := setEntry workflowId runId ledger.openChildren }
  | .childCompleted workflowId _ _ => ledger.removeChild workflowId
  | .childFailed workflowId _ _ => ledger.removeChild workflowId
  | event => if event.isClose then { ledger with closed := true } else ledger

def ofHistory (history : List HistoryEvent) : Ledger :=
  history.foldl (fun ledger event => ledger.apply event.event) empty

def insertRef (ref : RunRef) : List RunRef → List RunRef
  | [] => [ref]
  | other :: rest => if ref.notAfter other then ref :: other :: rest else other :: insertRef ref rest

/-- Children that were started and have not reported back, in ascending order. -/
def children (ledger : Ledger) : List RunRef :=
  ledger.openChildren.foldr (fun (workflowId, runId) refs => insertRef ⟨workflowId, runId⟩ refs) []

end Ledger

end Chronicle
