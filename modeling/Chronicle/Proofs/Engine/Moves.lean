import Chronicle.Proofs.Engine.Provisions
import Chronicle.Proofs.Engine.Updates
import Chronicle.Proofs.Store.Applying
import Chronicle.Proofs.Store.Histories

/-!
# Moves of the store

Everything that engines, clients, timer services and workers do to a store is a series of moves.
A move says under which conditions it is made: a commit is built from the history that it
continues, and a task is completed only by a worker that has done what it is for.
-/

namespace Chronicle

open Relation (ReflTransGen)

/-! ## Records that have moved on -/

/-- What the life of a run never takes back. -/
structure RunRecord.Outlives (before after : RunRecord) : Prop where
  grows : before.events <+: after.events
  origin : after.run.origin = before.run.origin
  closed : before.isClosed = true → after.isClosed = true

theorem RunRecord.Outlives.refl (record : RunRecord) : record.Outlives record :=
  ⟨List.prefix_rfl, rfl, fun h => h⟩

theorem RunRecord.Outlives.trans {first second third : RunRecord} (early : first.Outlives second)
    (late : second.Outlives third) : first.Outlives third :=
  ⟨early.grows.trans late.grows, late.origin.trans early.origin,
    fun h => late.closed (early.closed h)⟩

theorem RunTable.outlives_of_steps {warrants : RunRecord → Commit → Prop} {announces : Event → Prop}
    {before after : RunTable} (steps : ReflTransGen (Step warrants announces) before after)
    {ref : RunRef} {record : RunRecord} (hfind : before.find? ref = some record) :
    ∃ later, after.find? ref = some later ∧ record.Outlives later := by
  apply related_of_steps RunRecord.Outlives.refl (fun _ _ _ early late => early.trans late) _ steps
    hfind
  intro first second step
  refine ⟨step.events_prefix, step.origin, ?_⟩
  intro hclosed
  rw [RunRecord.isClosed, (step.continues.settled hclosed).status]
  exact hclosed

/-! ## Work that is done -/

namespace Store

/-- The task is for an attempt that its run has provided for. -/
def Provides (store : Store) (work : ActivityTask) : Prop :=
  ∃ record, store.runs.find? work.run = some record ∧ Provided record.events work

/-- A worker has begun the attempt. -/
def HasBegun (store : Store) (work : ActivityTask) : Prop :=
  ∃ record, store.runs.find? work.run = some record ∧
    PickedUp work.activityId work.attempt record.events

end Store

/-- The attempt is over, unless the activity was scheduled again. -/
def AttemptOver (work : ActivityTask) (history : List HistoryEvent) : Prop :=
  SchedulesOnce work.activityId history → ∃ state,
    (Ledger.ofHistory history).activity? work.activityId = some state ∧
      (state.closed = true ∨ work.attempt < state.attempt)

theorem AttemptOver.of_prefix {work : ActivityTask} {first second : List HistoryEvent}
    (isOver : AttemptOver work first) (h : first <+: second) : AttemptOver work second := by
  intro once
  obtain ⟨state, hstate, hover⟩ := isOver (once.of_prefix h)
  obtain ⟨later, hlater, advances⟩ := Ledger.advances_of_prefix once h hstate
  exact ⟨later, hlater, hover.imp advances.closed fun hlt => Nat.lt_of_lt_of_le hlt advances.attempt⟩

/-- There is nothing left to do for the task. -/
def Store.IsDone (store : Store) (work : ActivityTask) : Prop :=
  ∃ record, store.runs.find? work.run = some record ∧
    (record.isClosed = true ∨ AttemptOver work record.events)

/-- Nobody holds the task, or someone to whom it was handed out under the lease of the given number
or a later one. -/
def TaskSlot.isSince (bound : Nat) (slot : TaskSlot) : Prop :=
  ∀ token, slot.token = some token →
    ∃ number, bound ≤ number ∧ token = TaskQueue.leaseToken number

/-! ## Rules -/

/-- What moves depend on: whose decisions count, on which histories nothing is left to decide, and
what is known of all runs. -/
structure Rules where
  decides : Engine → Prop
  settled : RunRef → List HistoryEvent → Prop
  keeps : RunRecord → Prop

namespace Rules

/-- Rules that ask for nothing. -/
def lax : Rules := ⟨fun _ => True, fun _ _ => True, fun _ => True⟩

def Writes (rules : Rules) (fires : Prop) (run : Run) (history : List HistoryEvent)
    (commit : Commit) : Prop :=
  Update fires run history commit ∨
    ∃ engine, rules.decides engine ∧ engine.Decided run.ref run history commit

def Warrants (rules : Rules) (record : RunRecord) (commit : Commit) : Prop :=
  ∃ run : Run, run.origin = record.run.origin ∧ rules.Writes True run record.events commit

/-- The run is closed, nothing is left to decide for it, or there is a workflow task for it that was
not handed out under an earlier lease than the bound says. -/
def Attended (rules : Rules) (store : Store) (ref : RunRef) (bound : Nat) : Prop :=
  ∀ record, store.runs.find? ref = some record → record.isClosed = false →
    rules.settled ref record.events ∨
      ∃ slot ∈ store.tasks.slots, slot.work.isWorkflowOf ref = true ∧ slot.isSince bound

/-- Others than the holder of the lease attend to the run from now on. -/
def Relieved (rules : Rules) (store : Store) (ref : RunRef) (token : Uuid) : Prop :=
  ∃ number, token = TaskQueue.leaseToken number ∧ rules.Attended store ref (number + 1)

/-- Whoever holds the task under the token has done what it is for. -/
def MayComplete (rules : Rules) (store : Store) (taskId token : Uuid) : Prop :=
  ∀ slot, store.tasks.Holds slot taskId token →
    match slot.work with
    | .activity work => store.IsDone work
    | .workflow ref _ => rules.Relieved store ref token

end Rules

def Commit.BeginsNew (commit : Commit) (table : RunTable) : Prop :=
  (∀ new ∈ commit.newRuns, table.find? new.ref = none) ∧ (commit.newRuns.map NewRun.ref).Nodup

/-- One change of a store; timers are taken out and put back only where they may fire. -/
inductive Move (rules : Rules) (fires : Prop) : Store → Store → Prop where
  | still {before after : Store} (runs : after.runs = before.runs) (tasks : after.tasks = before.tasks)
      (timers : after.timers.live = before.timers.live)
      (issued : after.timers.issued = before.timers.issued) : Move rules fires before after
  | created {before : Store} {new : NewRun} (now : Instant)
      (fresh : before.runs.find? new.ref = none) :
      Move rules fires before (before.startRun new now)
  | committed {before : Store} {ref : RunRef} {record : RunRecord} {run : Run} {commit : Commit}
      (now : Instant) (found : before.runs.find? ref = some record)
      (isOpen : record.isClosed = false) (origin : run.origin = record.run.origin)
      (writes : rules.Writes fires run record.events commit)
      (begins : commit.BeginsNew before.runs) : Move rules fires before (before.apply ref commit now)
  | claimed {before : Store} {request : PollRequest} {now : Instant} {tasks : TaskQueue}
      {task : LeasedTask} (h : before.tasks.claim request now = (tasks, .claimed task)) :
      Move rules fires before { before with tasks := tasks }
  | extended {before : Store} {taskId token : Uuid} {extension : Span} {now : Instant}
      {tasks : TaskQueue} {reply : HeartbeatReply}
      (h : before.tasks.heartbeat taskId token extension now = .ok (tasks, reply)) :
      Move rules fires before { before with tasks := tasks }
  | failed {before : Store} {taskId token : Uuid} {reason : String} {delay : Span} {now : Instant}
      {tasks : TaskQueue} (h : before.tasks.fail taskId token reason delay now = .ok tasks) :
      Move rules fires before { before with tasks := tasks }
  | completed {before : Store} {taskId token : Uuid} {tasks : TaskQueue}
      (h : before.tasks.complete taskId token = .ok tasks)
      (done : rules.MayComplete before taskId token) :
      Move rules fires before { before with tasks := tasks }
  | popped {before : Store} (now : Instant) (limit : Nat) (allowed : fires) :
      Move rules fires before (before.popDueTimers now limit).1
  | rescheduled {before : Store} (timer : Timer) (allowed : fires) :
      Move rules fires before (before.addTimer timer)

/-- Everybody may have made moves in between. -/
abbrev Leads (rules : Rules) : Store → Store → Prop := ReflTransGen (Move rules True)

theorem Rules.Writes.mono {rules : Rules} {fires others : Prop} {run : Run}
    {history : List HistoryEvent} {commit : Commit} (writes : rules.Writes fires run history commit)
    (h : fires → others) : rules.Writes others run history commit :=
  writes.imp_left fun update => update.mono h

theorem Move.mono {rules : Rules} {fires others : Prop} {before after : Store}
    (move : Move rules fires before after) (h : fires → others) : Move rules others before after := by
  cases move with
  | still runs tasks timers issued => exact .still runs tasks timers issued
  | created now fresh => exact .created now fresh
  | committed now found isOpen origin writes begins =>
      exact .committed now found isOpen origin (writes.mono h) begins
  | claimed h => exact .claimed h
  | extended h => exact .extended h
  | failed h => exact .failed h
  | completed h done => exact .completed h done
  | popped now limit allowed => exact .popped now limit (h allowed)
  | rescheduled timer allowed => exact .rescheduled timer (h allowed)

/-! ## Commits -/

theorem Update.tidy {fires : Prop} {run : Run} {history : List HistoryEvent} {commit : Commit}
    (update : Update fires run history commit) : commit.Tidy := by
  cases update with
  | @reported event report =>
      apply Commit.Tidy.single rfl
      · cases event <;> first | rfl | cases report
      · cases event <;> first | rfl | cases report
      · simp [Commit.ofEvents]
  | @forced event closing ends =>
      refine .single rfl ?_ ends.symm ?_
      · cases event <;> first | rfl | cases ends
      · apply Decision.announced_close
        simp [Commit.ofEvents]
  | started => exact .single rfl rfl rfl (by simp [Commit.ofEvents])
  | beat => exact .single rfl rfl rfl (by simp [Commit.ofEvents])
  | ended attempted picked ends =>
      obtain ⟨-, hstart, hclose, -⟩ := ends.facts
      exact .single rfl hstart (Event.closing?_eq_none hclose).symm
        (by simp [AttemptOutcome.endCommit, Commit.ofEvents])
  | retried now attempted picked ends =>
      obtain ⟨-, hstart, hclose, -⟩ := ends.facts
      exact .single rfl hstart (Event.closing?_eq_none hclose).symm
        (by simp [AttemptOutcome.endCommit, Commit.ofEvents])
  | fired => exact .single rfl rfl rfl (by simp [Commit.ofEvents])
  | missed => exact .single rfl rfl rfl (by simp [Commit.ofEvents])

theorem Rules.Writes.tidy {rules : Rules} {fires : Prop} {run : Run} {history : List HistoryEvent}
    {commit : Commit} (writes : rules.Writes fires run history commit) : commit.Tidy := by
  rcases writes with update | ⟨engine, -, decided⟩
  · exact update.tidy
  · exact decided.batch.1

/-! ## What moves do to runs and tasks -/

def Rules.announces (event : Event) : Prop := event.isAnnouncement = true

theorem Move.runs {rules : Rules} {fires : Prop} {before after : Store}
    (move : Move rules fires before after) :
    ReflTransGen (RunTable.Step rules.Warrants Rules.announces) before.runs after.runs := by
  cases move with
  | still runs tasks timers issued => rw [runs]
  | created now fresh =>
      rw [Store.startRun_runs]
      exact .single (.created now fresh)
  | committed now found isOpen origin writes begins =>
      rw [Store.apply_runs]
      have warrants := writes.mono fun _ => trivial
      exact (RunTable.steps_applied now found isOpen ⟨_, origin, warrants⟩ writes.tidy.announced
        begins.1 begins.2).1
  | claimed h => exact .refl
  | extended h => exact .refl
  | failed h => exact .refl
  | completed h done => exact .refl
  | popped now limit allowed => exact .refl
  | rescheduled timer allowed => exact .refl

theorem Move.taskSteps {rules : Rules} {fires : Prop} {before after : Store}
    (move : Move rules fires before after) :
    ReflTransGen TaskQueue.Step before.tasks after.tasks := by
  cases move with
  | still runs tasks timers issued => rw [tasks]
  | created now fresh => exact .single (Store.startRun_wakes _ _ _).step
  | committed now found isOpen origin writes begins => exact Store.apply_taskSteps _ _ _ _
  | claimed h => exact .single (.claimed h)
  | extended h => exact .single (.extended h)
  | failed h => exact .single (.failed h)
  | completed h done => exact .single (.completed h)
  | popped now limit allowed => exact .refl
  | rescheduled timer allowed => exact .refl

namespace Leads

variable {rules : Rules} {before after : Store}

theorem runs (leads : Leads rules before after) :
    ReflTransGen (RunTable.Step rules.Warrants Rules.announces) before.runs after.runs := by
  induction leads with
  | refl => exact .refl
  | tail _ move ih => exact ih.trans move.runs

theorem taskSteps (leads : Leads rules before after) :
    ReflTransGen TaskQueue.Step before.tasks after.tasks := by
  induction leads with
  | refl => exact .refl
  | tail _ move ih => exact ih.trans move.taskSteps

theorem outlives (leads : Leads rules before after) {ref : RunRef} {record : RunRecord}
    (hfind : before.runs.find? ref = some record) :
    ∃ later, after.runs.find? ref = some later ∧ record.Outlives later :=
  RunTable.outlives_of_steps leads.runs hfind

theorem provides (leads : Leads rules before after) {work : ActivityTask}
    (provides : before.Provides work) : after.Provides work := by
  obtain ⟨record, hfind, provided⟩ := provides
  obtain ⟨later, hlater, outlives⟩ := leads.outlives hfind
  exact ⟨later, hlater, provided.of_prefix outlives.grows⟩

theorem hasBegun (leads : Leads rules before after) {work : ActivityTask}
    (begun : before.HasBegun work) : after.HasBegun work := by
  obtain ⟨record, hfind, picked⟩ := begun
  obtain ⟨later, hlater, outlives⟩ := leads.outlives hfind
  exact ⟨later, hlater, picked.of_prefix outlives.grows⟩

theorem isDone (leads : Leads rules before after) {work : ActivityTask}
    (done : before.IsDone work) : after.IsDone work := by
  obtain ⟨record, hfind, hdone⟩ := done
  obtain ⟨later, hlater, outlives⟩ := leads.outlives hfind
  exact ⟨later, hlater, hdone.imp outlives.closed fun isOver => isOver.of_prefix outlives.grows⟩

theorem assigned (leads : Leads rules before after) {id : Uuid} {work : Work}
    (assigned : before.tasks.Assigned id work) : after.tasks.Assigned id work :=
  assigned.steps leads.taskSteps

end Leads

end Chronicle
