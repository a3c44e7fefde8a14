import Chronicle.Store.Commit

/-!
# The run table

Every run with its history, and for each workflow id the run that was created last.
-/

namespace Chronicle

structure RunRecord where
  run : Run
  events : List HistoryEvent
  deriving DecidableEq, Repr

namespace RunRecord

def version (record : RunRecord) : Nat := record.events.length

def isClosed (record : RunRecord) : Bool := record.run.status.isClosed

def start (new : NewRun) (now : Instant) : RunRecord :=
  ⟨new.toRun now, [.ofEvent 1 now new.startEvent]⟩

def number (now : Instant) : Nat → List Event → List HistoryEvent
  | _, [] => []
  | eventId, event :: rest => .ofEvent eventId now event :: number now (eventId + 1) rest

def append (record : RunRecord) (events : List Event) (now : Instant) : RunRecord :=
  let history := record.events ++ number now (record.version + 1) events
  ⟨{ record.run with historyLength := history.length }, history⟩

def close (record : RunRecord) (closing : Closing) (now : Instant) : RunRecord :=
  { record with
    run := { record.run with
      status := closing.status
      result := closing.result
      failure := closing.failure
      closeTime := some now } }

end RunRecord

structure RunTable where
  records : List RunRecord
  /-- Run id that each workflow id stands for. -/
  current : List (String × Uuid)
  deriving DecidableEq, Repr

namespace RunTable

def empty : RunTable := ⟨[], []⟩

def size (table : RunTable) : Nat := table.records.length

def find? (table : RunTable) (ref : RunRef) : Option RunRecord :=
  table.records.find? fun record => record.run.ref = ref

def get (table : RunTable) (ref : RunRef) : Except StoreError RunRecord :=
  match table.find? ref with
  | some record => .ok record
  | none => .error (.runNotFound ref)

def currentRef? (table : RunTable) (workflowId : String) : Option RunRef :=
  (table.current.lookup workflowId).map fun runId => ⟨workflowId, runId⟩

def currentRun (table : RunTable) (workflowId : String) : Except StoreError Run :=
  match table.currentRef? workflowId with
  | none => .error (.workflowNotFound workflowId)
  | some ref => (table.get ref).map RunRecord.run

def modify (table : RunTable) (ref : RunRef) (change : RunRecord → RunRecord) : RunTable :=
  { table with
    records := table.records.map fun record =>
      if record.run.ref = ref then change record else record }

/-- A workflow id is taken while its current run is open, unless that run is about to close. -/
def checkStart (table : RunTable) (new : NewRun) (closing : Option RunRef) :
    Except StoreError Unit :=
  match table.currentRef? new.ref.workflowId with
  | none => .ok ()
  | some current =>
      match table.find? current with
      | none => .ok ()
      | some record =>
          if !record.isClosed && closing != some current then
            .error (.alreadyStarted current.workflowId current.runId)
          else .ok ()

def setCurrent (workflowId : String) (runId : Uuid) (current : List (String × Uuid)) :
    List (String × Uuid) :=
  (workflowId, runId) :: current.filter fun entry => entry.1 != workflowId

/-- Adds a run as the current one of its workflow id, and links the previous one to it. -/
def create (table : RunTable) (new : NewRun) (now : Instant) : RunTable :=
  let linked := match table.currentRef? new.ref.workflowId with
    | none => table
    | some previous => table.modify previous fun record =>
        { record with run := { record.run with nextRunId := some new.ref.runId } }
  let record := RunRecord.start new now
  let records := if (table.find? new.ref).isSome
    then linked.records.map fun other => if other.run.ref = new.ref then record else other
    else linked.records ++ [record]
  ⟨records, setCurrent new.ref.workflowId new.ref.runId table.current⟩

end RunTable

end Chronicle
