import Chronicle.Proofs.Program.Courses
import Chronicle.Proofs.Store.Availability
import Chronicle.Proofs.Store.Slumber
import Chronicle.Proofs.Worker.Timeliness

/-!
# Nothing is up before its time

A task waits for its delay or for the end of its lease, and what is recorded as late was given all
the time that it had.  The one exception are deadlines that lie past the end of time: these have
passed already when they are set.
-/

namespace Chronicle

/-! ## Tasks -/

/-- The lease of the task has lasted as long as the deed says that was the last one to lease it; or
the task is free, and has waited as long as some deed says. -/
inductive TaskRecord.HasWaited (record : TaskRecord) (deeds : List TaskQueue.Deed) (now : Instant) :
    Prop where
  | leased {early late : List TaskQueue.Deed} {deed : TaskQueue.Deed} {span : Span}
      (held : record.lease.isSome = true) (split : deeds = early ++ deed :: late)
      (leases : deed.lease? record.taskId = some span)
      (last : ∀ later ∈ late, later.lease? record.taskId = none)
      (isMet : (Deadline.exact deed.now span).IsMet now) : HasWaited record deeds now
  | free {deed : TaskQueue.Deed} {span : Span} (free : record.lease = none) (mem : deed ∈ deeds)
      (delays : deed.Delays record span) (isMet : (Deadline.exact deed.now span).IsMet now) :
      HasWaited record deeds now

theorem TaskQueue.Log.hasWaited {deeds : List Deed} {queue after : TaskQueue}
    (log : Log deeds queue) {request : PollRequest} {now : Instant} {task : LeasedTask}
    (h : queue.claim request now = (after, .claimed task)) :
    ∃ record ∈ queue.records, record.taskId = task.taskId ∧ record.HasWaited deeds now := by
  obtain ⟨record, hmem, hid, -, available⟩ := exists_of_claim h
  refine ⟨record, hmem, hid.symm, ?_⟩
  cases log.timed record hmem with
  | leased held split leases expires last =>
      simp only [TaskRecord.Available, held, expires] at available
      exact .leased (by rw [held]; rfl) split leases last (Deadline.exact_isMet available)
  | waiting free mem delays visible =>
      simp only [TaskRecord.Available, free, visible] at available
      exact .free free mem delays (Deadline.exact_isMet available)

/-! ## Prompt roles -/

/-- A role that does not say that a time is up without having looked at the clock. -/
structure PromptRole : Type 1 where
  role : Role
  prompt : role.isPrompt = true

namespace PromptRole

def program (prompt : PromptRole) : Program Unit := prompt.role.program

/-- A worker whose turns are far enough apart for a limit that the history of the run sets. -/
def Outlasts (prompt : PromptRole) (store : Store) (ref : RunRef) (purpose : TimerPurpose) : Prop :=
  ∃ span, Outlast prompt.role.turns span ∧ ∃ record, store.runs.find? ref = some record ∧
    ∃ event ∈ record.events.map HistoryEvent.event, event.limit? purpose = some span

variable {start : World} {past : List Exchange} {scene : Scene PromptRole Unit}

theorem punctual (hempty : start.store = .empty)
    (course : Scene.Course program (.opening start) past scene) :
    scene.Punctual (fun prompt => Outlast prompt.role.turns) past :=
  course.punctual (fun prompt => prompt.role.program_obeys)
    (fun prompt => prompt.role.program_plays Rules.lax_lawful (fun _ _ => trivial) fun _ => trivial)
    (fun prompt => Role.program_timely prompt.prompt) hempty

theorem alarm (hempty : start.store = .empty)
    (course : Scene.Course program (.opening start) past scene) {index : Nat} {prompt : PromptRole}
    {ref : RunRef} {expected version : Nat} {commit : Commit}
    {next : Except StoreError Nat → Program Unit} {world : World}
    (turn : scene.actors[index]? = some ⟨prompt, .ask (.commit ref expected commit) next⟩)
    (answered : World.answer (.commit ref expected commit) scene.world = (.ok (.ok version), world))
    {purpose : TimerPurpose} (hmem : purpose ∈ commit.alarms) :
    (∃ deadline, Ripe past index (ref, purpose) deadline) ∨
      prompt.Outlasts scene.world.store ref purpose := by
  obtain ⟨sight, sees, permits, -⟩ := (punctual hempty course).actors index _ turn
  rcases World.answer_commit answered with ⟨error, herror, -⟩ | haccepted
  · cases herror
  · obtain ⟨-, -, record, -, -, hfind, -⟩ := haccepted
    refine (sees.alarm permits hfind hmem).imp_right ?_
    rintro ⟨span, outlasts, hevent⟩
    exact ⟨span, outlasts, record, hfind, hevent⟩

/-- An instant after a delay is no earlier than the delay says, unless it lies past the end of time.
No task is handed out before its time, and nothing is recorded as late before its deadline. -/
theorem deadlines_areMet (hempty : start.store = .empty)
    (course : Scene.Course program (.opening start) past scene) :
    (∀ instant : Instant, instant.InRange → (instant.shift? Instant.century.nanos).isSome = true →
      ∀ delay : Span, ∃ floor, instant.shift? (delay.min Instant.century).nanos = some floor ∧
        (floor ≤ instant.after delay ↔ ¬(delay.nanos ≤ Instant.longestShift.nanos ∧
          instant.shift? delay.nanos = none))) ∧
    (∀ (deeds : List TaskQueue.Deed) (queue : TaskQueue), TaskQueue.Log deeds queue →
      ∀ request now after task, queue.claim request now = (after, .claimed task) →
        ∃ record ∈ queue.records, record.taskId = task.taskId ∧ record.HasWaited deeds now) ∧
    ∀ index prompt ref expected commit next,
      scene.actors[index]? = some ⟨prompt, .ask (.commit ref expected commit) next⟩ →
      ∀ version world now, scene.world.now = some now →
        World.answer (.commit ref expected commit) scene.world = (.ok (.ok version), world) →
        (∀ exchange ∈ past, ∀ shown ∈ exchange.world.now, shown ≤ now) →
        ∀ purpose ∈ commit.alarms,
          (∃ deadline, Ripe past index (ref, purpose) deadline ∧ deadline.IsMet now) ∨
            prompt.Outlasts scene.world.store ref purpose := by
  refine ⟨?_, fun deeds queue log request now after task => log.hasWaited, ?_⟩
  · intro instant inRange hcentury delay
    obtain ⟨floor, hfloor⟩ := Instant.elapsed_exists inRange hcentury delay
    exact ⟨floor, hfloor, by rw [Instant.le_after_iff hfloor, Instant.overruns_iff hcentury]⟩
  · intro index prompt ref expected commit next turn version world now hnow answered steady purpose
      hmem
    refine (alarm hempty course turn answered hmem).imp_left ?_
    rintro ⟨deadline, ripe⟩
    exact ⟨deadline, ripe, ripe.isMet steady⟩

/-! ## A sleeper -/

/-- Sleeps for the span, and does nothing then. -/
def sleeper (span : Span) : WorkflowType :=
  Samples.reactive "sleeper" fun
    | .started => .ok [.startTimer "waking" span]
    | stimulus => stimulus.defaultStep

def sleeperEngine (span : Span) : Engine := ⟨⟨[sleeper span]⟩, .standard⟩

def sleeperStart : PromptRole :=
  ⟨.operate (.start (.first Operation.sampleRun "sleeper" "default" .null .standard)) rfl, rfl⟩

def sleeperTask (span : Span) : PromptRole :=
  ⟨.operate (.processTask (sleeperEngine span) Operation.sampleRun) rfl, rfl⟩

def sleeperWatch (span : Span) : PromptRole :=
  ⟨.operate (.fireDue ⟨sleeperEngine span, .standard⟩) rfl, rfl⟩

/-- A timer service has no turns of its own. -/
theorem sleeperWatch_idle (span : Span) (store : Store) (ref : RunRef) (purpose : TimerPurpose) :
    ¬(sleeperWatch span).Outlasts store ref purpose := by
  rintro ⟨limit, ⟨begun, hnone, -⟩, -⟩
  cases hnone

theorem sleeper_entered (span : Span) : Scene.Course program (.opening Operation.blankWorld) []
    ⟨Operation.blankWorld, [⟨sleeperStart, program sleeperStart⟩,
      ⟨sleeperTask span, program (sleeperTask span)⟩,
      ⟨sleeperWatch span, program (sleeperWatch span)⟩], []⟩ :=
  ((Scene.Course.opening.enter _).enter _).enter _

/-- A task that waits for a minute. -/
def delayedTask : NewTask :=
  ⟨"default", .workflow Operation.sampleRun "sleeper", .ofSeconds 60⟩

def delayedDeed : TaskQueue.Deed := ⟨.enqueue delayedTask, ⟨0, 0⟩, .empty⟩

def delayedQueue : TaskQueue := TaskQueue.empty.perform delayedDeed.act delayedDeed.now

def sleeperPoll : PollRequest := Role.courier.pollRequest .workflow

/-- What waits for a minute, and whoever sleeps for one, has to do so until the minute is over. -/
theorem minute_isMet :
    Instant.InRange ⟨0, 0⟩ ∧ (Instant.shift? ⟨0, 0⟩ Instant.century.nanos).isSome = true ∧
    (∃ floor, Instant.shift? ⟨0, 0⟩ ((Span.ofSeconds 60).min Instant.century).nanos = some floor ∧
      floor ≤ Instant.after ⟨0, 0⟩ (.ofSeconds 60)) ∧
    TaskQueue.Log [delayedDeed] delayedQueue ∧
    (∃ after task, delayedQueue.claim sleeperPoll ⟨60, 0⟩ = (after, .claimed task) ∧
      ∃ record ∈ delayedQueue.records, record.taskId = task.taskId ∧
        record.HasWaited [delayedDeed] ⟨60, 0⟩) ∧
    ∃ (past : List Exchange) (scene : Scene PromptRole Unit) (expected : Nat) (commit : Commit)
      (next : Except StoreError Nat → Program Unit) (version : Nat) (world : World),
      Scene.Course program (.opening Operation.blankWorld) past scene ∧
      scene.actors[2]? = some ⟨sleeperWatch (.ofSeconds 60),
        .ask (.commit Operation.sampleRun expected commit) next⟩ ∧
      scene.world.now = some ⟨60, 0⟩ ∧
      World.answer (.commit Operation.sampleRun expected commit) scene.world =
        (.ok (.ok version), world) ∧
      .workflowTimer "waking" ∈ commit.alarms ∧
      ∃ deadline, Ripe past 2 (Operation.sampleRun, .workflowTimer "waking") deadline ∧
        deadline.IsMet ⟨60, 0⟩ := by
  have started := ((sleeper_entered (.ofSeconds 60)).act 0 rfl rfl).act 0 rfl rfl
  have decided := (((started.act 1 rfl rfl).act 1 rfl rfl).act 1 rfl rfl).act 1 rfl rfl
  have fired := ((((decided.tick (some ⟨60, 0⟩)).act 2 rfl rfl).act 2 rfl rfl).act 2 rfl rfl).act
    2 rfl rfl
  obtain ⟨hsum, htasks, halarms⟩ := deadlines_areMet rfl fired
  have inRange : Instant.InRange ⟨0, 0⟩ := ⟨by decide, by decide⟩
  have hcentury : (Instant.shift? ⟨0, 0⟩ Instant.century.nanos).isSome = true := by decide
  obtain ⟨floor, hfloor, hiff⟩ := hsum ⟨0, 0⟩ inRange hcentury (.ofSeconds 60)
  have log : TaskQueue.Log [delayedDeed] delayedQueue := .deed .start _ _
  have hup := halarms 2 _ _ _ _ _ rfl _ _ _ rfl rfl (by decide +kernel) (.workflowTimer "waking")
    List.mem_cons_self
  exact ⟨inRange, hcentury, ⟨floor, hfloor, hiff.2 (by decide)⟩, log,
    ⟨_, _, rfl, htasks _ _ log sleeperPoll ⟨60, 0⟩ _ _ rfl⟩, _, _, _, _, _, _, _, fired, rfl, rfl, rfl,
    List.mem_cons_self, hup.resolve_right (sleeperWatch_idle _ _ _ _)⟩

/-- About 299,800 years. -/
def endless : Span := .ofMillis 9460800000000000

/-- Whoever sleeps for so long that he would wake past the end of time wakes at once. -/
theorem endless_wakesAtOnce :
    ∃ (past : List Exchange) (scene : Scene PromptRole Unit) (commit : Commit)
      (next : Except StoreError Nat → Program Unit) (world : World) (record : RunRecord)
      (fireAt : Instant),
      Scene.Course program (.opening Operation.blankWorld) past scene ∧
      scene.actors[2]? = some ⟨sleeperWatch endless,
        .ask (.commit Operation.sampleRun 2 commit) next⟩ ∧
      World.answer (.commit Operation.sampleRun 2 commit) scene.world = (.ok (.ok 3), world) ∧
      scene.world.now = some ⟨0, 0⟩ ∧ (∀ exchange ∈ past, exchange.world.now = some ⟨0, 0⟩) ∧
      commit.alarms = [.workflowTimer "waking"] ∧
      scene.world.store.runs.find? Operation.sampleRun = some record ∧
      .timerStarted "waking" fireAt endless ∈ record.events.map HistoryEvent.event ∧
      ¬Instant.Elapsed ⟨0, 0⟩ endless ⟨0, 0⟩ := by
  have started := ((sleeper_entered endless).act 0 rfl rfl).act 0 rfl rfl
  have decided := (((started.act 1 rfl rfl).act 1 rfl rfl).act 1 rfl rfl).act 1 rfl rfl
  have fired := (((decided.act 2 rfl rfl).act 2 rfl rfl).act 2 rfl rfl).act 2 rfl rfl
  have early : ¬Instant.Elapsed ⟨0, 0⟩ endless ⟨0, 0⟩ := fun elapsed =>
    absurd (elapsed ⟨3153600000, 0⟩ (by decide)) (by decide)
  exact ⟨_, _, _, _, _, _, _, fired, rfl, rfl, rfl, by decide +kernel, rfl, rfl,
    List.mem_cons_of_mem _ List.mem_cons_self, early⟩

end PromptRole

end Chronicle
