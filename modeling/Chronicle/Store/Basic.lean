import Chronicle.Store.RunTable
import Chronicle.Store.TaskQueue
import Chronicle.Store.TimerQueue

/-!
# The store

Runs, tasks and timers behind one interface.  A commit names the history version it was built
from and is refused if the history has grown since.
-/

namespace Chronicle

structure Store where
  runs : RunTable
  tasks : TaskQueue
  timers : TimerQueue
  wakeups : Nat
  deriving DecidableEq, Repr

namespace Store

def empty : Store := ⟨.empty, .empty, .empty, 0⟩

def wake (store : Store) : Store := { store with wakeups := store.wakeups + 1 }

/-- Forgets all data, but not which ids were handed out. -/
def clear (store : Store) : Store :=
  { store with
    runs := .empty
    tasks := { store.tasks with records := [] }
    timers := { store.timers with slots := [], live := [] } }

/-! ## Runs -/

def addTask (store : Store) (task : NewTask) (now : Instant) : Store :=
  { store with tasks := (store.tasks.enqueue task now).1 }

def addTimer (store : Store) (timer : Timer) : Store :=
  { store with timers := store.timers.schedule timer }

/-- A new run begins with a workflow task, and with a timer if its time is limited. -/
def startRun (store : Store) (new : NewRun) (now : Instant) : Store :=
  let store := { store with runs := store.runs.create new now }
  let store := store.addTask
    ⟨new.taskQueue, .workflow new.ref new.workflowType, new.firstTaskDelay⟩ now
  match new.options.executionTimeout with
  | none => store
  | some timeout =>
      store.addTimer ⟨new.ref, (now.after new.firstTaskDelay).after timeout, .runTimeout⟩

def createRun (store : Store) (new : NewRun) (now : Instant) : Except StoreError Store :=
  match store.runs.checkStart new none with
  | .error error => .error error
  | .ok _ => .ok (store.startRun new now).wake

def getRun (store : Store) (ref : RunRef) : Except StoreError Run :=
  (store.runs.get ref).map RunRecord.run

def currentRun (store : Store) (workflowId : String) : Except StoreError Run :=
  store.runs.currentRun workflowId

def readEvents (store : Store) (ref : RunRef) (after : Nat) : Except StoreError (List HistoryEvent) :=
  (store.runs.get ref).map fun record => record.events.drop after

def historyVersion (store : Store) (ref : RunRef) : Except StoreError Nat :=
  (store.runs.get ref).map RunRecord.version

/-! ## Commits -/

/-- An open target gets the event and a workflow task; a closed or unknown one gets nothing. -/
def notify (store : Store) (notification : Notification) (now : Instant) : Store :=
  match store.runs.find? notification.target with
  | none => store
  | some record =>
      if record.isClosed then store
      else
        let store := { store with
          runs := store.runs.modify notification.target fun record =>
            record.append [notification.event] now }
        store.addTask ⟨record.run.taskQueue, .workflow notification.target record.run.workflowType,
          .zero⟩ now

def checkStarts (store : Store) (closing : Option RunRef) : List NewRun → Except StoreError Unit
  | [] => .ok ()
  | new :: rest =>
      match store.runs.checkStart new closing with
      | .ok _ => store.checkStarts closing rest
      | .error error => .error error

def apply (store : Store) (ref : RunRef) (commit : Commit) (now : Instant) : Store :=
  let store := { store with
    runs := store.runs.modify ref fun record =>
      let record := record.append commit.events now
      match commit.closing with
      | some closing => record.close closing now
      | none => record }
  let store := commit.tasks.foldl (fun store task => store.addTask task now) store
  let store := commit.timers.foldl addTimer store
  let store := { store with
    timers := commit.cancelledTimers.foldl (fun timers purpose => timers.cancel ref purpose)
      store.timers
    tasks := commit.cancelledActivities.foldl
      (fun tasks activityId => tasks.cancelActivity ref activityId) store.tasks }
  let store := if commit.closing.isSome
    then { store with tasks := store.tasks.purge ref, timers := store.timers.purge ref }
    else store
  let store := commit.newRuns.foldl (fun store new => store.startRun new now) store
  commit.notifications.foldl (fun store notification => store.notify notification now) store

/-- Applies a commit to an open run at the expected version, and tells the new version. -/
def commit (store : Store) (ref : RunRef) (expected : Nat) (commit : Commit) (now : Instant) :
    Except StoreError (Store × Nat) :=
  match store.runs.get ref with
  | .error error => .error error
  | .ok record =>
      if record.isClosed then .error (.runClosed ref)
      else if record.version != expected then .error (.versionConflict expected record.version)
      else
        match store.checkStarts (commit.closing.map fun _ => ref) commit.newRuns with
        | .error error => .error error
        | .ok _ =>
            let applied := (store.apply ref commit now).wake
            let version := match applied.runs.find? ref with
              | some record => record.version
              | none => expected
            .ok (applied, version)

/-! ## Tasks -/

def enqueueTask (store : Store) (task : NewTask) (now : Instant) : Store × Option Uuid :=
  let (tasks, taskId) := store.tasks.enqueue task now
  ({ store with tasks := tasks }.wake, taskId)

def claimTask (store : Store) (request : PollRequest) (now : Instant) : Store × TaskQueue.Claim :=
  let (tasks, claim) := store.tasks.claim request now
  ({ store with tasks := tasks }, claim)

def completeTask (store : Store) (taskId token : Uuid) : Except StoreError Store :=
  (store.tasks.complete taskId token).map fun tasks => { store with tasks := tasks }

def failTask (store : Store) (taskId token : Uuid) (reason : String) (delay : Span)
    (now : Instant) : Except StoreError Store :=
  (store.tasks.fail taskId token reason delay now).map fun tasks => { store with tasks := tasks }.wake

def heartbeatTask (store : Store) (taskId token : Uuid) (extension : Span) (now : Instant) :
    Except StoreError (Store × HeartbeatReply) :=
  (store.tasks.heartbeat taskId token extension now).map fun (tasks, reply) =>
    ({ store with tasks := tasks }, reply)

/-! ## Timers -/

def popDueTimers (store : Store) (now : Instant) (limit : Nat) : Store × List Timer :=
  let (timers, due) := store.timers.popDue now limit
  ({ store with timers := timers }, due)

def nextTimerAt (store : Store) : Store × Option Instant :=
  let (timers, next) := store.timers.nextAt
  ({ store with timers := timers }, next)

end Store

end Chronicle
