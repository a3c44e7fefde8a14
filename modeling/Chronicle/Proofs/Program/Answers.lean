import Chronicle.Proofs.Program.Charter
import Chronicle.Proofs.Store.DueTimers
import Chronicle.Proofs.Store.Leases

/-!
# What an answered request changes

A request that is not answered changes nothing.  The runs of a world change only when a run is created
and when a commit is accepted; any other request changes the tasks by one act, or the timers, or draws
a run id, or changes nothing.  Run ids are drawn one after the other and never twice.
-/

namespace Chronicle

open Relation (ReflTransGen)

/-! ## Kinds of requests -/

namespace Request

/-- Requests that look at runs and at the clock, or draw a run id. -/
def isInquiry : Request → Bool
  | .now | .freshRunId | .getRun _ | .currentRun _ | .readEvents _ _ => true
  | _ => false

/-- Every request but those that begin or revise a run. -/
def leavesRuns : Request → Bool
  | .createRun _ | .commit .. => false
  | _ => true

def concernsTimers : Request → Bool
  | .commit .. | .popDueTimers .. | .scheduleTimer _ => true
  | _ => false

/-- What the request does to the task queue, if that is all that it does. -/
def act? : Request → Option TaskQueue.Act
  | .enqueueTask task => some (.enqueue task)
  | .claimTask request => some (.claim request)
  | .completeTask taskId token => some (.complete taskId token)
  | .failTask taskId token reason delay => some (.fail taskId token reason delay)
  | .heartbeatTask taskId token extension => some (.heartbeat taskId token extension)
  | _ => none

end Request

def RunTable.Uses (table : RunTable) (runId : Uuid) : Prop :=
  ∃ ref record, table.find? ref = some record ∧ ref.runId = runId

theorem RunTable.find?_of_not_uses {table : RunTable} {ref : RunRef}
    (h : ¬ table.Uses ref.runId) : table.find? ref = none := by
  cases hfind : table.find? ref with
  | none => rfl
  | some record => exact absurd ⟨ref, record, hfind, rfl⟩ h

theorem RunTable.map_get {β : Type} (table : RunTable) (ref : RunRef) (view : RunRecord → β) :
    (table.find? ref = none ∧ (table.get ref).map view = .error (.runNotFound ref)) ∨
      ∃ record, table.find? ref = some record ∧ (table.get ref).map view = .ok (view record) := by
  unfold get
  cases hfind : table.find? ref with
  | none => exact .inl ⟨rfl, rfl⟩
  | some record => exact .inr ⟨record, rfl, rfl⟩

namespace World

theorem runId_injective {first second : Nat} (h : runId first = runId second) : first = second := by
  simp only [runId, Uuid.generated, Uuid.mk.injEq] at h
  omega

@[simp] theorem timeless_eq_ok {α : Type} {answer : α × World} {value : α} {after : World} :
    timeless answer = (.ok value, after) ↔ answer = (value, after) := by
  obtain ⟨result, world⟩ := answer
  simp [timeless]

theorem timed_eq_ok {α : Type} {world after : World} {answer : Instant → α × World} {value : α}
    (h : world.timed answer = (.ok value, after)) :
    ∃ now, world.now = some now ∧ answer now = (value, after) := by
  unfold timed at h
  cases hnow : world.now with
  | none => simp [hnow] at h
  | some now =>
      simp only [hnow, timeless_eq_ok] at h
      exact ⟨now, rfl, h⟩

/-- A request that crashes leaves the world as it is. -/
theorem answer_eq_error {request : Request} {world after : World} {cause : Crash}
    (h : answer request world = (.error cause, after)) : after = world := by
  have htimed : ∀ {α : Type} {reply : Instant → α × World},
      world.timed reply = (.error cause, after) → after = world := by
    intro α reply hreply
    unfold timed at hreply
    cases hnow : world.now with
    | none =>
        simp only [hnow, Prod.mk.injEq] at hreply
        exact hreply.2.symm
    | some now => simp [hnow, timeless] at hreply
  cases request with
  | now => exact htimed h
  | enqueueTask task => exact htimed h
  | claimTask poll => exact htimed h
  | failTask taskId token reason delay => exact htimed h
  | commit ref expected commit => exact htimed h
  | createRun new =>
      unfold answer at h
      simp only at h
      split at h
      · simp [timeless] at h
      · exact htimed h
  | heartbeatTask taskId token extension =>
      unfold answer at h
      simp only at h
      split at h
      · simp [timeless] at h
      · exact htimed h
  | _ => simp [answer, timeless] at h

/-! ## Requests about tasks -/

/-- A request about tasks changes nothing but the queue, by its act, and may wake those who poll. -/
theorem answer_act {request : Request} {act : TaskQueue.Act} {answer : request.Answer}
    {world after : World} (hact : request.act? = some act)
    (h : World.answer request world = (.ok answer, after)) :
    ∃ wakeups, after = { world with store := { world.store with
      tasks := world.store.tasks.perform act (world.now.getD ⟨0, 0⟩), wakeups := wakeups } } := by
  have hclock : ∀ now, world.now = some now → world.now.getD ⟨0, 0⟩ = now := by
    intro now hnow
    rw [hnow, Option.getD_some]
  cases request with
  | enqueueTask task =>
      obtain rfl := Option.some.inj hact
      obtain ⟨now, hnow, hreply⟩ := timed_eq_ok h
      rw [hclock now hnow]
      exact ⟨_, (Prod.mk.inj hreply).2.symm⟩
  | claimTask poll =>
      obtain rfl := Option.some.inj hact
      obtain ⟨now, hnow, hreply⟩ := timed_eq_ok h
      rw [hclock now hnow]
      exact ⟨_, (Prod.mk.inj hreply).2.symm⟩
  | completeTask taskId token =>
      obtain rfl := Option.some.inj hact
      simp only [World.answer, timeless_eq_ok, Store.completeTask] at h
      simp only [TaskQueue.perform]
      cases hdone : world.store.tasks.complete taskId token <;>
        simp only [hdone, Except.map, update, Prod.mk.injEq] at h <;>
        exact ⟨_, h.2.symm⟩
  | failTask taskId token reason delay =>
      obtain rfl := Option.some.inj hact
      obtain ⟨now, hnow, hreply⟩ := timed_eq_ok h
      simp only [Store.failTask] at hreply
      simp only [TaskQueue.perform, hclock now hnow]
      cases hfailed : world.store.tasks.fail taskId token reason delay now <;>
        simp only [hfailed, Except.map, update, Prod.mk.injEq] at hreply <;>
        exact ⟨_, hreply.2.symm⟩
  | heartbeatTask taskId token extension =>
      obtain rfl := Option.some.inj hact
      simp only [World.answer] at h
      simp only [TaskQueue.perform, TaskQueue.heartbeat]
      cases hheld : world.store.tasks.held taskId token with
      | error error =>
          simp only [hheld, timeless_eq_ok, Prod.mk.injEq] at h
          exact ⟨_, h.2.symm⟩
      | ok held =>
          simp only [hheld] at h
          obtain ⟨now, hnow, hreply⟩ := timed_eq_ok h
          simp only [Store.heartbeatTask, TaskQueue.heartbeat, hheld, Except.map, update,
            Prod.mk.injEq] at hreply
          rw [hclock now hnow]
          exact ⟨_, hreply.2.symm⟩
  | _ => cases hact

theorem answer_claimTask {poll : PollRequest} {claim : TaskQueue.Claim} {world after : World}
    (h : answer (.claimTask poll) world = (.ok claim, after)) :
    ∃ now tasks, world.now = some now ∧ world.store.tasks.claim poll now = (tasks, claim) ∧
      after = { world with store := { world.store with tasks := tasks } } := by
  obtain ⟨now, hnow, hreply⟩ := timed_eq_ok h
  obtain ⟨hclaim, hafter⟩ := Prod.mk.inj hreply
  exact ⟨now, _, hnow, Prod.ext rfl hclaim, hafter.symm⟩

/-! ## Requests about runs -/

theorem answer_getRun_cases {ref : RunRef} {world after : World} {reply : Except StoreError Run}
    (h : answer (.getRun ref) world = (.ok reply, after)) :
    after = world ∧ ((world.store.runs.find? ref = none ∧ reply = .error (.runNotFound ref)) ∨
      ∃ record, world.store.runs.find? ref = some record ∧ reply = .ok record.run) := by
  obtain ⟨rfl, rfl⟩ := Prod.mk.inj (timeless_eq_ok.1 h)
  exact ⟨rfl, world.store.runs.map_get ref RunRecord.run⟩

theorem answer_getRun {ref : RunRef} {world after : World} {run : Run}
    (h : answer (.getRun ref) world = (.ok (.ok run), after)) :
    after = world ∧ ∃ record, world.store.runs.find? ref = some record ∧ run = record.run := by
  obtain ⟨hafter, ⟨-, hreply⟩ | ⟨record, hfind, hreply⟩⟩ := answer_getRun_cases h
  · cases hreply
  · exact ⟨hafter, record, hfind, Except.ok.inj hreply⟩

theorem answer_getRun_of_find {ref : RunRef} {world : World} {record : RunRecord}
    (h : world.store.runs.find? ref = some record) :
    answer (.getRun ref) world = (.ok (.ok record.run), world) := by
  simp [answer, timeless, Store.getRun, RunTable.get, h, Except.map]

theorem answer_getRun_of_unknown {ref : RunRef} {world : World}
    (h : world.store.runs.find? ref = none) :
    answer (.getRun ref) world = (.ok (.error (.runNotFound ref)), world) := by
  simp [answer, timeless, Store.getRun, RunTable.get, h, Except.map]

theorem answer_readEvents_cases {ref : RunRef} {world after : World}
    {reply : Except StoreError (List HistoryEvent)}
    (h : answer (.readEvents ref 0) world = (.ok reply, after)) :
    after = world ∧ ((world.store.runs.find? ref = none ∧ reply = .error (.runNotFound ref)) ∨
      ∃ record, world.store.runs.find? ref = some record ∧ reply = .ok record.events) := by
  obtain ⟨rfl, rfl⟩ := Prod.mk.inj (timeless_eq_ok.1 h)
  exact ⟨rfl, world.store.runs.map_get ref fun record => record.events.drop 0⟩

theorem answer_readEvents {ref : RunRef} {world after : World} {history : List HistoryEvent}
    (h : answer (.readEvents ref 0) world = (.ok (.ok history), after)) :
    after = world ∧
      ∃ record, world.store.runs.find? ref = some record ∧ history = record.events := by
  obtain ⟨hafter, ⟨-, hreply⟩ | ⟨record, hfind, hreply⟩⟩ := answer_readEvents_cases h
  · cases hreply
  · exact ⟨hafter, record, hfind, Except.ok.inj hreply⟩

theorem answer_readEvents_of_find {ref : RunRef} {world : World} {record : RunRecord}
    (h : world.store.runs.find? ref = some record) :
    answer (.readEvents ref 0) world = (.ok (.ok record.events), world) := by
  simp [answer, timeless, Store.readEvents, RunTable.get, h, Except.map]

theorem answer_createRun {new : NewRun} {world after : World} {result : Except StoreError Unit}
    (h : answer (.createRun new) world = (.ok result, after)) :
    (∃ error, result = .error error ∧ after = world) ∨
      (result = .ok () ∧ ∃ now, world.now = some now ∧
        after = { world with store := (world.store.startRun new now).wake }) := by
  unfold answer at h
  simp only at h
  cases hcheck : world.store.runs.checkStart new none with
  | error error =>
      simp only [hcheck, timeless_eq_ok, Prod.mk.injEq] at h
      exact .inl ⟨error, h.1.symm, h.2.symm⟩
  | ok allowed =>
      simp only [hcheck] at h
      obtain ⟨now, hnow, hreply⟩ := timed_eq_ok h
      simp only [Store.createRun, hcheck, Except.map, update, Prod.mk.injEq] at hreply
      exact .inr ⟨hreply.1.symm, now, hnow, hreply.2.symm⟩

theorem answer_commit {ref : RunRef} {expected : Nat} {commit : Commit} {world after : World}
    {result : Except StoreError Nat}
    (h : answer (.commit ref expected commit) world = (.ok result, after)) :
    (∃ error, result = .error error ∧ after = world) ∨
      ∃ version now record, result = .ok version ∧ world.now = some now ∧
        world.store.runs.find? ref = some record ∧ record.isClosed = false ∧
        record.events.length = expected ∧
        after = { world with store := (world.store.apply ref commit now).wake } ∧
        ∀ revised, after.store.runs.find? ref = some revised →
          version = revised.events.length := by
  obtain ⟨now, hnow, hreply⟩ := timed_eq_ok h
  unfold update at hreply
  cases hcommit : world.store.commit ref expected commit now with
  | error error =>
      simp only [hcommit, Prod.mk.injEq] at hreply
      exact .inl ⟨error, hreply.1.symm, hreply.2.symm⟩
  | ok applied =>
      obtain ⟨store, version⟩ := applied
      simp only [hcommit, Prod.mk.injEq] at hreply
      obtain ⟨record, hfind, hopen, hlength, hstore, hversion⟩ := Store.commit_eq_ok hcommit
      refine .inr ⟨version, now, record, hreply.1.symm, hnow, hfind, hopen, hlength, ?_, ?_⟩
      · rw [← hreply.2, hstore]
      · rw [← hreply.2]
        exact hversion

/-! ## Requests that leave the runs alone -/

/-- What becomes of a world when a request is answered that neither begins nor revises a run. -/
structure LeavesRuns (request : Request) (before after : World) : Prop where
  clock : after.now = before.now
  supply : request ≠ .freshRunId → after.drawnRuns = before.drawnRuns
  runs : after.store.runs = before.store.runs
  tasks : after.store.tasks = match request.act? with
    | some act => before.store.tasks.perform act (before.now.getD ⟨0, 0⟩)
    | none => before.store.tasks
  live : request.concernsTimers = false → after.store.timers.live = before.store.timers.live
  issued : request.concernsTimers = false → after.store.timers.issued = before.store.timers.issued
  timerSteps : ReflTransGen TimerQueue.Step before.store.timers after.store.timers
  inquiry : request.isInquiry = true → after.store = before.store

theorem LeavesRuns.same {request : Request} (world : World) (hact : request.act? = none) :
    world.LeavesRuns request world where
  clock := rfl
  supply := fun _ => rfl
  runs := rfl
  tasks := by rw [hact]
  live := fun _ => rfl
  issued := fun _ => rfl
  timerSteps := .refl
  inquiry := fun _ => rfl

theorem LeavesRuns.of_act {request : Request} {act : TaskQueue.Act} {answer : request.Answer}
    {world after : World} (hact : request.act? = some act) (hinquiry : request.isInquiry = false)
    (h : World.answer request world = (.ok answer, after)) : world.LeavesRuns request after := by
  obtain ⟨wakeups, rfl⟩ := answer_act hact h
  exact ⟨rfl, fun _ => rfl, rfl, by rw [hact], fun _ => rfl, fun _ => rfl, .refl,
    fun h => by simp [hinquiry] at h⟩

theorem leavesRuns_of_answer {request : Request} {answer : request.Answer} {world after : World}
    (hleaves : request.leavesRuns = true) (h : World.answer request world = (.ok answer, after)) :
    world.LeavesRuns request after := by
  cases request with
  | createRun new => cases hleaves
  | commit ref expected commit => cases hleaves
  | enqueueTask task => exact .of_act rfl rfl h
  | claimTask poll => exact .of_act rfl rfl h
  | completeTask taskId token => exact .of_act rfl rfl h
  | failTask taskId token reason delay => exact .of_act rfl rfl h
  | heartbeatTask taskId token extension => exact .of_act rfl rfl h
  | now =>
      obtain ⟨now, -, hreply⟩ := timed_eq_ok h
      obtain ⟨-, rfl⟩ := Prod.mk.inj hreply
      exact .same world rfl
  | freshRunId =>
      obtain ⟨-, rfl⟩ := Prod.mk.inj h
      exact ⟨rfl, fun hdraw => absurd rfl hdraw, rfl, rfl, fun _ => rfl, fun _ => rfl, .refl,
        fun _ => rfl⟩
  | popDueTimers now limit =>
      obtain ⟨-, rfl⟩ := Prod.mk.inj h
      exact ⟨rfl, fun _ => rfl, rfl, rfl, nofun, nofun, .single (.popped now limit), nofun⟩
  | scheduleTimer timer =>
      obtain ⟨-, rfl⟩ := Prod.mk.inj h
      exact ⟨rfl, fun _ => rfl, rfl, rfl, nofun, nofun, .single (.scheduled timer), nofun⟩
  | nextTimerAt =>
      obtain ⟨-, rfl⟩ := Prod.mk.inj h
      exact ⟨rfl, fun _ => rfl, rfl, rfl, fun _ => rfl, fun _ => rfl, .single .peeked, nofun⟩
  | _ =>
      obtain ⟨-, rfl⟩ := Prod.mk.inj h
      exact .same world rfl

theorem store_of_inquiry {request : Request} {answer : request.Answer} {world after : World}
    (hinquiry : request.isInquiry = true)
    (h : World.answer request world = (.ok answer, after)) : after.store = world.store := by
  have hleaves : request.leavesRuns = true := by
    cases request <;> first | rfl | cases hinquiry
  exact (leavesRuns_of_answer hleaves h).inquiry hinquiry

/-- Parts of the world that only new runs, commits and drawn ids can change. -/
def lasting (world : World) : RunTable × Nat := (world.store.runs, world.drawnRuns)

theorem LeavesRuns.lasting {request : Request} {before after : World}
    (leaves : before.LeavesRuns request after) (hdraw : request ≠ .freshRunId) :
    after.lasting = before.lasting :=
  Prod.ext leaves.runs (leaves.supply hdraw)

/-! ## Tasks and timers of any world -/

open TaskQueue

/-- The tasks of the second world come from those of the first by acts. -/
def Performs (before after : World) : Prop :=
  ∃ acts, after.store.tasks = before.store.tasks.performAll acts

theorem Performs.same {before after : World} (h : after.store.tasks = before.store.tasks) :
    Performs before after := ⟨[], h⟩

theorem Performs.act {before after : World} (act : Act) (now : Instant)
    (h : after.store.tasks = before.store.tasks.perform act now) : Performs before after :=
  ⟨[(act, now)], h⟩

theorem performs_commit (store : Store) (ref : RunRef) (commit : Commit) (now : Instant) :
    ∃ acts, (store.apply ref commit now).tasks = store.tasks.performAll acts := by
  obtain ⟨more, hmore⟩ := performAll_of_wakes (store.apply_wakes ref commit now)
  rw [hmore, ownTasks_eq, ← performAll_append]
  exact ⟨_, rfl⟩

theorem LeavesRuns.performs {request : Request} {before after : World}
    (leaves : before.LeavesRuns request after) : Performs before after := by
  have htasks := leaves.tasks
  cases hact : request.act? with
  | none => exact .same (by rw [htasks, hact])
  | some act => exact .act act (before.now.getD ⟨0, 0⟩) (by rw [htasks, hact])

theorem performs_answer (request : Request) (world : World) :
    Performs world (World.answer request world).2 := by
  cases hanswer : World.answer request world with
  | mk result after =>
      cases result with
      | error cause => exact .same (by rw [answer_eq_error hanswer])
      | ok answer =>
          cases request with
          | createRun new =>
              rcases answer_createRun hanswer with ⟨_, -, rfl⟩ | ⟨-, now, -, rfl⟩
              · exact .same rfl
              · exact performAll_of_wakes (.single (Store.startRun_wakes world.store new now))
          | commit ref expected commit =>
              rcases answer_commit hanswer with ⟨_, -, rfl⟩ | ⟨_, now, _, -, -, -, -, -, rfl, -⟩
              · exact .same rfl
              · exact performs_commit world.store ref commit now
          | _ => exact (leavesRuns_of_answer rfl hanswer).performs

/-- The timers of the second world come from those of the first. -/
def KeepsTimers (before after : World) : Prop :=
  ReflTransGen TimerQueue.Step before.store.timers after.store.timers

theorem KeepsTimers.same {before after : World} (h : after.store.timers = before.store.timers) :
    KeepsTimers before after := by
  rw [KeepsTimers, h]

theorem keepsTimers_answer (request : Request) (world : World) :
    KeepsTimers world (World.answer request world).2 := by
  cases hanswer : World.answer request world with
  | mk result after =>
      cases result with
      | error cause => exact .same (by rw [answer_eq_error hanswer])
      | ok answer =>
          cases request with
          | createRun new =>
              rcases answer_createRun hanswer with ⟨_, -, rfl⟩ | ⟨-, now, -, rfl⟩
              · exact .same rfl
              · exact world.store.startRun_timerSteps new now
          | commit ref expected commit =>
              rcases answer_commit hanswer with ⟨_, -, rfl⟩ | ⟨_, now, _, -, -, -, -, -, rfl, -⟩
              · exact .same rfl
              · exact world.store.apply_timerSteps ref commit now
          | _ => exact (leavesRuns_of_answer rfl hanswer).timerSteps

end World

/-- Whatever the store is asked for, the tasks change by such acts only. -/
theorem TaskQueue.Log.answer {deeds : List TaskQueue.Deed} {world : World} (request : Request)
    (log : TaskQueue.Log deeds world.store.tasks) :
    ∃ more, TaskQueue.Log (deeds ++ more) (World.answer request world).2.store.tasks := by
  obtain ⟨acts, hacts⟩ := World.performs_answer request world
  exact ⟨_, hacts ▸ log.performAll acts⟩

end Chronicle
