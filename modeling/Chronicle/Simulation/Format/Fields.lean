import Chronicle.Json.Lenient
import Chronicle.Simulation.Action

/-!
# Fields of steps

How the steps of a scenario name runs, and how they write tasks, timers, commits and faults.
-/

namespace Chronicle.Simulation.Format

def spanAt (key : String) (usual : Nat) (step : Json) : Span := .ofMillis (step.natAt key usual)

/-- A run by its short name or its full reference. -/
def run? (roster : Roster) : Json → Option RunRef
  | .text label => some (roster.resolve label)
  | value => RunRef.ofJson? value

/-- Some signed number of milliseconds from now. -/
def instantAfter (millis : Int) : Program Instant := do
  let now ← .request .now
  match now.shift? (millis * 1000000) with
  | some instant => return instant
  | none => .crash .overflow

/-! ## Runs to create -/

/-- A run that may still lack its id. -/
structure RunDraft where
  runId : Option Uuid
  complete : Uuid → NewRun

namespace RunDraft

def ofJson? (roster : Roster) (step : Json) : Option RunDraft := do
  let options ← step.readAt "options" WorkflowOptions.ofJson? .standard
  let parent ← step.optional "parent" (run? roster)
  let runId ← step.optional "run_id" Uuid.ofJson?
  some ⟨runId, fun runId =>
    { NewRun.first ⟨step.textAt "id" "", runId⟩ (step.textAt "type" "")
        (step.textAt "queue" "default") (step.get "input") options with
      attempt := step.shortAt "attempt" 1
      parent := parent
      firstTaskDelay := spanAt "delay_ms" 0 step }⟩

def giveId (draft : RunDraft) : Program NewRun := do
  match draft.runId with
  | some runId => return draft.complete runId
  | none => return draft.complete (← .request .freshRunId)

end RunDraft

/-! ## Tasks and timers -/

def work? (roster : Roster) (step : Json) : Option Work := do
  let run ← run? roster (step.get "run")
  if step.textAt "kind" "" = TaskKind.activity.name then
    let options ← step.readAt "options" ActivityOptions.ofJson? .standard
    some (.activity ⟨run, step.textAt "activity_id" "", step.textAt "type" "", step.get "input",
      options, step.shortAt "attempt" 1⟩)
  else some (.workflow run (step.textAt "type" ""))

def task? (roster : Roster) (step : Json) : Option NewTask :=
  (work? roster step).map fun work =>
    ⟨step.textAt "queue" "default", work, spanAt "delay_ms" 0 step⟩

/-- A timer that fires some time from now, or else at an instant. -/
def timer? (roster : Roster) (step : Json) : Option (Program Timer) := do
  let run ← run? roster (step.get "run")
  let purpose ← TimerPurpose.ofJson? (step.get "purpose")
  match (step.get "after_ms").signed? 64 with
  | some millis => some (do return ⟨run, ← instantAfter millis, purpose⟩)
  | none => (Instant.ofJson? (step.get "fire_at")).map fun fireAt => .done ⟨run, fireAt, purpose⟩

def pollRequest? (step : Json) : Option PollRequest := do
  let kind ← step.readAt "kind" TaskKind.ofJson? .workflow
  let types ← step.readAt "types" Json.texts? []
  some
    { taskQueue := step.textAt "queue" "default"
      kind := kind
      types := types
      workerId := "w"
      leaseDuration := spanAt "lease_ms" 60000 step
      waitLimit := spanAt "wait_ms" 0 step }

/-! ## Commits -/

def closing? (value : Json) : Option Closing := do
  let status ← RunStatus.ofJson? (value.get "status")
  let failure ← value.optional "error" Failure.ofJson?
  some ⟨status, (value.get "result").nonNull?, failure⟩

def notification? (roster : Roster) (value : Json) : Option Notification := do
  let target ← run? roster (value.get "run")
  let event ← Event.ofJson? (value.get "event")
  some ⟨target, event⟩

/-- A commit whose new runs may still lack ids, and whose timers may depend on the time. -/
structure CommitDraft where
  /-- The commit without its timers and new runs. -/
  frame : Commit
  timers : List (Program Timer)
  newRuns : List RunDraft

namespace CommitDraft

def complete (draft : CommitDraft) : Program Commit := do
  let timers ← Program.inOrder draft.timers
  let newRuns ← Program.inOrder (draft.newRuns.map RunDraft.giveId)
  return { draft.frame with timers := timers, newRuns := newRuns }

def ofJson? (roster : Roster) (step : Json) : Option CommitDraft := do
  let events ← step.readAt "events" (Json.listOf? Event.ofJson?) []
  let tasks ← Json.readItems (task? roster) (step.itemsAt "tasks")
  let timers ← Json.readItems (timer? roster) (step.itemsAt "timers")
  let cancelledTimers ← step.readAt "cancelled_timers" (Json.listOf? TimerPurpose.ofJson?) []
  let cancelledActivities ← step.readAt "cancelled_activities" Json.texts? []
  let newRuns ← Json.readItems (RunDraft.ofJson? roster) (step.itemsAt "new_instances")
  let notifications ← Json.readItems (notification? roster) (step.itemsAt "notifications")
  let closing ← step.optional "close" closing?
  let frame : Commit := { Commit.empty with
    events, tasks, cancelledTimers, cancelledActivities, notifications, closing }
  some ⟨frame, timers, newRuns⟩

end CommitDraft

/-! ## Faults -/

def method? : String → Option Method
  | "create_instance" => some .createRun
  | "get_instance" => some .getRun
  | "current_run" => some .currentRun
  | "read_events" => some .readEvents
  | "commit" => some .commit
  | "poll_task" => some .poll
  | "complete_task" => some .completeTask
  | "heartbeat_task" => some .heartbeatTask
  | "pop_due_timers" => some .popDueTimers
  | _ => none

def faultKind? : String → Option FaultKind
  | "conflict" => some .conflict
  | "already_started" => some .alreadyStarted
  | "closed" => some .runClosed
  | "not_found" => some .runNotFound
  | "serialization" => some .serialization
  | "unavailable" => some .unavailable
  | "race" => some .race
  | _ => none

def fault? (step : Json) : Option Fault := do
  let method ← method? (step.textAt "method" "")
  let kind ← faultKind? (step.textAt "error" "")
  some ⟨method, kind, step.natAt "times" 1, step.natAt "skip" 0⟩

/-! ## Steps beside a step -/

def sequel (step : Json) : Sequel Json :=
  (step.itemsAt "meanwhile").map fun next => (spanAt "after" 0 next, next)

end Chronicle.Simulation.Format
