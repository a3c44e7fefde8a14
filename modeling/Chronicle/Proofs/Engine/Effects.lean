import Chronicle.Proofs.Engine.Balancing
import Chronicle.Proofs.Engine.Books

/-!
# Effects of a decision

The commands of a decision start timers and schedule activities, and cancel them.  The store first
does all that they ask for and then cancels all that they take back, whatever their order.  So
something is there after the commit if no command takes it back.  That is what the last command says
of it, unless it is asked for again after it was taken back.
-/

namespace Chronicle

universe u

open Relation (ReflTransGen)

/-! ## What commands ask for -/

/-- What one command can ask for and another one take back. -/
inductive Subject where
  | timer (timerId : String)
  | activity (activityId : String)
  deriving DecidableEq, Repr

namespace CommandKey

/-- Whether the command asks for something or takes it back, if it does either. -/
def request? : CommandKey → Option (Subject × Bool)
  | .startTimer timerId => some (.timer timerId, true)
  | .cancelTimer timerId => some (.timer timerId, false)
  | .scheduleActivity activityId _ => some (.activity activityId, true)
  | .cancelActivity activityId => some (.activity activityId, false)
  | _ => none

/-- All that the keys say of the subject, in order. -/
def news (subject : Subject) (keys : List CommandKey) : List Bool :=
  (keys.filterMap request?).filterMap fun request =>
    if request.1 = subject then some request.2 else none

theorem mem_news {subject : Subject} {keys : List CommandKey} {asked : Bool} :
    asked ∈ news subject keys ↔ ∃ key ∈ keys, key.request? = some (subject, asked) := by
  simp only [news, List.mem_filterMap, Option.ite_none_right_eq_some, Option.some.injEq]
  constructor
  · rintro ⟨⟨_, _⟩, ⟨key, hmem, hrequest⟩, rfl, rfl⟩
    exact ⟨key, hmem, hrequest⟩
  · rintro ⟨key, hmem, hrequest⟩
    exact ⟨_, ⟨key, hmem, hrequest⟩, rfl, rfl⟩

/-- What is spoken of and never taken back is asked for. -/
theorem true_mem_news {subject : Subject} {keys : List CommandKey} (hsome : news subject keys ≠ [])
    (hnever : false ∉ news subject keys) : true ∈ news subject keys := by
  obtain ⟨asked, hasked⟩ := List.exists_mem_of_ne_nil _ hsome
  cases asked with
  | true => exact hasked
  | false => exact absurd hasked hnever

end CommandKey

def Command.news (subject : Subject) (commands : List Command) : List Bool :=
  CommandKey.news subject (commands.filterMap Command.key?)

/-- What was asked for is there just if it was never taken back.  If it was not asked for again after
that, the last of the news tells which. -/
structure Settles (news : List Bool) (held : Prop) : Prop where
  held_iff : held ↔ false ∉ news
  inOrder : ¬ [false, true].Sublist news → (held ↔ news.getLast? = some true)

theorem Settles.of_iff {news : List Bool} {held : Prop} (hsome : news ≠ [])
    (h : held ↔ false ∉ news) : Settles news held := by
  refine ⟨h, fun hordered => h.trans ?_⟩
  obtain ⟨front, last, rfl⟩ := (List.eq_nil_or_concat news).resolve_left hsome
  rw [List.concat_eq_append] at hordered ⊢
  rw [List.getLast?_concat, Option.some.injEq]
  constructor
  · intro hnever
    by_contra hlast
    exact hnever (by simp [hlast])
  · rintro rfl hmem
    have hfront : false ∈ front := by simpa using hmem
    exact hordered ((List.singleton_sublist.2 hfront).append (.refl [true]))

/-! ## Queued attempts -/

namespace TaskQueue

/-- A task for the attempt waits for a worker. -/
def Queues (queue : TaskQueue) (run : RunRef) (activityId : String) (attempt : Nat) : Prop :=
  ∃ slot ∈ queue.slots, slot.token = none ∧ slot.work.isAttempt run activityId attempt = true

variable {queue : TaskQueue} {run : RunRef} {activityId : String} {attempt : Nat}

theorem queues_enqueue {task : NewTask} (htask : task.work.isAttempt run activityId attempt = true)
    (now : Instant) : (queue.enqueue task now).1.Queues run activityId attempt := by
  obtain ⟨work, hwork, -⟩ := Work.isAttempt_iff.1 htask
  rcases queue.enqueue_cases task now with ⟨hcovered, -⟩ | ⟨-, hslots, -⟩
  · rw [isCovered_eq, hwork] at hcovered
    cases hcovered
  · refine ⟨⟨taskId queue.issued, task.taskQueue, task.work, none⟩, ?_, rfl, htask⟩
    rw [hslots]
    simp

theorem queues_enqueueAll {tasks : List NewTask} {task : NewTask} (hmem : task ∈ tasks)
    (htask : task.work.isAttempt run activityId attempt = true) (now : Instant)
    (queue : TaskQueue) : (enqueueAll now tasks queue).Queues run activityId attempt := by
  induction tasks generalizing queue with
  | nil => cases hmem
  | cons first rest ih =>
      rcases List.mem_cons.1 hmem with rfl | hrest
      · obtain ⟨slot, hslot, hpending⟩ := @queues_enqueue queue _ _ _ task htask now
        exact ⟨slot, mem_enqueueAll_of_mem hslot now rest, hpending⟩
      · exact ih hrest _

theorem queues_cancelActivity (cancelled : String) :
    (queue.cancelActivity run cancelled).Queues run activityId attempt ↔
      activityId ≠ cancelled ∧ queue.Queues run activityId attempt := by
  have hslots := slots_withdraw queue fun work => work.isActivityOf run cancelled
  have hselected : ∀ work : Work, work.isAttempt run activityId attempt = true →
      (work.isActivityOf run cancelled = true ↔ activityId = cancelled) := by
    intro work hwork
    obtain ⟨task, rfl, rfl, rfl, -⟩ := Work.isAttempt_iff.1 hwork
    simp [Work.isActivityOf]
  constructor
  · rintro ⟨slot, hslot, hpending, hattempt⟩
    rw [cancelActivity, hslots, List.mem_filter] at hslot
    refine ⟨fun hsame => ?_, slot, hslot.1, hpending, hattempt⟩
    simp [(hselected _ hattempt).2 hsame, hpending] at hslot
  · rintro ⟨hother, slot, hslot, hpending, hattempt⟩
    refine ⟨slot, ?_, hpending, hattempt⟩
    rw [cancelActivity, hslots, List.mem_filter]
    exact ⟨hslot, by simp [mt (hselected _ hattempt).1 hother]⟩

theorem queues_cancelActivities (cancelled : List String) :
    (cancelActivities run cancelled queue).Queues run activityId attempt ↔
      activityId ∉ cancelled ∧ queue.Queues run activityId attempt := by
  induction cancelled generalizing queue with
  | nil => simp [cancelActivities]
  | cons first rest ih =>
      refine (@ih (queue.cancelActivity run first)).trans ?_
      rw [queues_cancelActivity, List.mem_cons, not_or]
      tauto

theorem queues_of_wakes {before after : TaskQueue} (wakes : ReflTransGen Wakes before after) :
    after.Queues run activityId attempt ↔ before.Queues run activityId attempt := by
  constructor
  · rintro ⟨slot, hslot, hpending, hattempt⟩
    rcases mem_of_wakes wakes hslot with hold | ⟨ref, workflowType, hwork⟩
    · exact ⟨slot, hold, hpending, hattempt⟩
    · rw [hwork] at hattempt
      cases hattempt
  · rintro ⟨slot, hslot, hpending⟩
    exact ⟨slot, mem_wakes_of_mem hslot wakes, hpending⟩

end TaskQueue

namespace Store

/-- Of the attempts of its own run, a commit that leaves the run open queues what it has tasks for,
and keeps what was queued, except for what it cancels. -/
theorem queues_apply {commit : Commit} (hopen : commit.closing = none) (store : Store) (ref : RunRef)
    (now : Instant) (activityId : String) (attempt : Nat) :
    (store.apply ref commit now).tasks.Queues ref activityId attempt ↔
      activityId ∉ commit.cancelledActivities ∧
        (TaskQueue.enqueueAll now commit.tasks store.tasks).Queues ref activityId attempt := by
  rw [TaskQueue.queues_of_wakes (store.apply_wakes ref commit now)]
  simp only [Commit.ownTasks, hopen, Option.isSome_none, Bool.false_eq_true, if_false]
  exact TaskQueue.queues_cancelActivities _

theorem workflowTimer_apply {commit : Commit} {store : Store} {ref : RunRef} (now : Instant)
    (hfresh : ∀ new ∈ commit.newRuns, store.runs.find? new.ref = none)
    (hdistinct : (commit.newRuns.map NewRun.ref).Nodup) (timerId : String) :
    (ref, .workflowTimer timerId) ∈ (store.apply ref commit now).timers.keys ↔
      (ref, .workflowTimer timerId) ∈ (commit.ownTimers ref store.timers).keys := by
  refine @apply_induction (fun after => (ref, .workflowTimer timerId) ∈ after.timers.keys ↔
    (ref, .workflowTimer timerId) ∈ (commit.ownTimers ref store.timers).keys) _ _ _ _ hfresh hdistinct
    ?_ ?_ ?_
  · rw [revise_timers]
  · intro middle new _ _ hmiddle
    rw [← hmiddle, mem_keys_startRun, or_iff_left]
    simp
  · intro middle notification _ hmiddle
    rw [← hmiddle]
    rcases middle.notify_cases notification now with hsame | ⟨record, -, -, -, htimers, -⟩
    · rw [hsame]
    · rw [htimers]

end Store

/-- The store has what the commands of the run ask for. -/
def Store.Has (store : Store) (ref : RunRef) : Subject → Prop
  | .timer timerId => (ref, .workflowTimer timerId) ∈ store.timers.keys
  | .activity activityId => store.tasks.Queues ref activityId 1

/-! ## Effects of a commit -/

namespace Commit

def Arranges (commit : Commit) (ref : RunRef) : Subject → Prop
  | .timer timerId => .workflowTimer timerId ∈ commit.timers.map Timer.purpose
  | .activity activityId => ∃ task ∈ commit.tasks, task.work.isAttempt ref activityId 1 = true

def TakesBack (commit : Commit) : Subject → Prop
  | .timer timerId => .workflowTimer timerId ∈ commit.cancelledTimers
  | .activity activityId => activityId ∈ commit.cancelledActivities

end Commit

/-- Whatever a commit arranges for, it takes back last. -/
theorem Store.has_apply {commit : Commit} {store : Store} {ref : RunRef} (now : Instant)
    (hopen : commit.closing = none)
    (hfresh : ∀ new ∈ commit.newRuns, store.runs.find? new.ref = none)
    (hdistinct : (commit.newRuns.map NewRun.ref).Nodup)
    (hown : ∀ timer ∈ commit.timers, timer.run = ref) (subject : Subject) :
    (commit.TakesBack subject → ¬ (store.apply ref commit now).Has ref subject) ∧
      (commit.Arranges ref subject → ¬ commit.TakesBack subject →
        (store.apply ref commit now).Has ref subject) := by
  cases subject with
  | timer timerId =>
      simp only [Has]
      rw [workflowTimer_apply now hfresh hdistinct, Commit.mem_keys_ownTimers_of_open hown hopen]
      exact ⟨fun htaken held => held.2 htaken, fun harranged hkept => ⟨.inr harranged, hkept⟩⟩
  | activity activityId =>
      simp only [Has]
      rw [queues_apply hopen]
      refine ⟨fun htaken held => held.1 htaken, fun harranged hkept => ⟨hkept, ?_⟩⟩
      obtain ⟨task, hmem, htask⟩ := harranged
      exact TaskQueue.queues_enqueueAll hmem htask now store.tasks

namespace Decision.Provisions

variable {run : Run} {ledger : Ledger} {now : Instant} {commit : Commit}

theorem takesBack_iff (provisions : Provisions run ledger now commit) (subject : Subject) :
    commit.TakesBack subject ↔
      ∃ key ∈ commit.events.filterMap Event.key?, key.request? = some (subject, false) := by
  simp only [List.mem_filterMap]
  constructor
  · intro htaken
    cases subject with
    | timer timerId =>
        simp only [Commit.TakesBack, provisions.cancelledTimers] at htaken
        exact ⟨_, ⟨_, mem_disarmed_of_timer htaken, rfl⟩, rfl⟩
    | activity activityId =>
        exact ⟨_, ⟨_, provisions.mem_cancelledActivities htaken, rfl⟩, rfl⟩
  · rintro ⟨key, ⟨event, hmem, hkey⟩, hrequest⟩
    cases key with
    | cancelTimer timerId =>
        cases hrequest
        cases event <;> cases hkey
        simp only [Commit.TakesBack, provisions.cancelledTimers]
        exact List.mem_flatMap.2 ⟨_, hmem, List.mem_singleton_self _⟩
    | cancelActivity activityId =>
        cases hrequest
        cases event <;> cases hkey
        simp only [Commit.TakesBack, provisions.cancelledActivities]
        exact List.mem_filterMap.2 ⟨_, hmem, rfl⟩
    | _ => cases hrequest

theorem arranges_of_key (provisions : Provisions run ledger now commit) {subject : Subject}
    {key : CommandKey} (hkey : key ∈ commit.events.filterMap Event.key?)
    (hrequest : key.request? = some (subject, true)) : commit.Arranges run.ref subject := by
  obtain ⟨event, hmem, hevent⟩ := List.mem_filterMap.1 hkey
  cases key with
  | startTimer timerId =>
      cases hrequest
      cases event <;> cases hevent
      simp only [Commit.Arranges, provisions.timers, List.map_flatMap]
      exact List.mem_flatMap.2 ⟨_, hmem, List.mem_singleton_self _⟩
  | scheduleActivity activityId activityType =>
      cases hrequest
      obtain ⟨wakes, htasks, -⟩ := provisions.tasks
      cases event with
      | activityScheduled scheduled scheduledType input taskQueue options =>
          cases hevent
          have htask := List.mem_filterMap.2
            ⟨_, hmem, show Event.scheduledTask? run (.activityScheduled activityId activityType input
              taskQueue options) = some _ from rfl⟩
          exact ⟨_, htasks ▸ List.mem_append_left _ htask, by simp [Work.isAttempt]⟩
      | _ => cases hevent
  | _ => cases hrequest

end Decision.Provisions

/-- What the store has for the run is settled by the commands. -/
def Command.TakeEffect (commands : List Command) (ref : RunRef) (store : Store) : Prop :=
  ∀ subject, Command.news subject commands ≠ [] →
    Settles (Command.news subject commands) (store.Has ref subject)

namespace Decision.Provisions

variable {run : Run} {ledger : Ledger} {built : Instant} {commit : Commit}

theorem takeEffect (provisions : Provisions run ledger built commit) {commands : List Command}
    (hkeys : commit.events.filterMap Event.key? = commands.filterMap Command.key?)
    (hopen : commit.closing = none) {store : Store}
    (hfresh : ∀ new ∈ commit.newRuns, store.runs.find? new.ref = none)
    (hdistinct : (commit.newRuns.map NewRun.ref).Nodup) (now : Instant) :
    Command.TakeEffect commands run.ref (store.apply run.ref commit now) := by
  intro subject hsome
  obtain ⟨htaken, hgranted⟩ :=
    store.has_apply now hopen hfresh hdistinct
      (fun timer hmem => (provisions.isCalledFor hmem).own) subject
  have hback : commit.TakesBack subject ↔ false ∈ Command.news subject commands := by
    rw [provisions.takesBack_iff, hkeys]
    exact CommandKey.mem_news.symm
  apply Settles.of_iff hsome
  refine ⟨fun held hmem => htaken (hback.2 hmem) held, fun hnever => ?_⟩
  obtain ⟨key, hkey, hrequest⟩ := CommandKey.mem_news.1 (CommandKey.true_mem_news hsome hnever)
  exact hgranted (provisions.arranges_of_key (hkeys ▸ hkey) hrequest) (mt hback.1 hnever)

end Decision.Provisions

/-! ## Scenes -/

/-- A batch records the keys of its commands, and no others. -/
theorem Decision.Batch.filterMap_key? {commands : List Command} {commit : Commit}
    {recorded rejected : List Event} (batch : Batch commands commit recorded rejected) :
    commit.events.filterMap Event.key? =
      (Command.untilTerminal commands).filterMap Command.key? := by
  have hrejected : rejected.filterMap Event.key? = [] :=
    List.filterMap_eq_nil_iff.2 fun event hmem => key?_of_isRejection (batch.rejections event hmem)
  have hrecorded := congrArg (List.filterMap id) batch.keys
  rw [List.filterMap_map, List.filterMap_map] at hrecorded
  rw [batch.events, List.filterMap_append, hrejected, List.append_nil]
  simpa using hrecorded

/-- The log grows by the commit that was just accepted. -/
theorem Scene.Step.accepted {ι : Type u} {ρ : Type} {begins : ι → Program ρ} {scene later : Scene ι ρ}
    (step : Scene.Step begins scene later) {entry : LogEntry}
    (hlog : later.log = scene.log ++ [entry]) :
    ∃ label next, scene.actors[entry.actor]? =
        some ⟨label, .ask (.commit entry.ref entry.acceptance.expected entry.commit) next⟩ ∧
      World.answer (.commit entry.ref entry.acceptance.expected entry.commit) scene.world =
        (.ok (.ok entry.acceptance.version), later.world) := by
  cases step with
  | enter label => simp at hlog
  | tick now => simp at hlog
  | fall turn answered => simp at hlog
  | @act index label request next answer world turn answered =>
      have hentries : entries index scene.world request answer = [entry] := by simpa using hlog
      cases request with
      | commit ref expected commit =>
          cases answer with
          | error error => cases hentries
          | ok version =>
              obtain ⟨now, hnow, -⟩ := World.timed_eq_ok answered
              rw [entries_commit hnow] at hentries
              obtain rfl := List.singleton_inj.1 hentries
              exact ⟨label, next, turn, answered⟩
      | _ => cases hentries

namespace Operation

/-- A workflow task that leaves its run open settles all timers and activities that its commands have
news of. -/
theorem commands_takeEffect {start : World} (blank : start.IsBlank) {scene : Scene Operation Unit}
    (reaches : Scene.Reaches program (.opening start) scene) {later : Scene Operation Unit}
    (step : Scene.Step program scene later) {entry : LogEntry}
    (hlog : later.log = scene.log ++ [entry]) {actor : Actor Operation Unit}
    (hactor : scene.actors[entry.actor]? = some actor) (htask : actor.label.isTask = true)
    (hopen : entry.commit.closing = none) :
    ∃ engine record outcome, actor.label.engine? = some engine ∧
      scene.book.runs.find? entry.ref = some record ∧
      replay engine.limits.replayLimit engine.registry entry.ref record.events = .ok outcome ∧
      Command.TakeEffect outcome.newCommands entry.ref later.world.store := by
  have hkeeps : ∀ operation : Operation,
      operation.program.Keeps operation.charter (fun _ _ => True) .nothing :=
    fun operation => operation.program_obeys .nothing
  have opening : Scene.Follows charter (fun _ _ _ => True) (.opening start : Scene Operation Unit)
      fun _ => .nothing := .opening blank.supplied
  obtain ⟨know, follows⟩ := opening.reaches hkeeps charter_fits reaches
  obtain ⟨label, next, turn, answered⟩ := step.accepted hlog
  obtain rfl : actor = _ := Option.some.inj (hactor.symm.trans turn)
  obtain ⟨-, hpermits, -⟩ := follows.keeps entry.actor _ turn
  obtain ⟨now, run, record, -, hfind, -, -, horigin, hwarrants, hfresh, hdistinct, hafter, -⟩ :=
    (follows.knows entry.actor).commit hpermits answered
  have href : run.ref = entry.ref :=
    (Run.ref_eq_of_origin horigin).trans (RunTable.ref_of_find? hfind)
  rcases hwarrants with ⟨hnone, -⟩ | ⟨engine, hengine, decided | refused⟩
  · rw [htask] at hnone
    cases hnone
  · obtain ⟨-, outcome, built, hreplay, -, -, hyields⟩ := decided
    obtain ⟨-, hcut⟩ := Replay.decided_of_replay hreplay
    obtain ⟨recorded, rejected, batch⟩ := Decision.batch_of_build hyields
    have hkeys := batch.filterMap_key?
    rw [hcut] at hkeys
    have takes :=
      (Decision.provisions_of_build hyields).takeEffect hkeys hopen hfresh hdistinct now
    rw [href] at hreplay takes
    refine ⟨engine, record, outcome, hengine, hfind, hreplay, ?_⟩
    rw [hafter]
    exact takes
  · obtain ⟨-, reason, -, hwrites⟩ := refused
    rw [(Engine.tells_of_forceClose hwrites).1] at hopen
    cases hopen

def errandEngine : Engine := ⟨⟨[Samples.errand, Samples.renewal]⟩, .standard⟩

/-- An errand has its reminder and its delivery. -/
theorem errand_takesEffect :
    ∃ (scene later : Scene Operation Unit) (entry : LogEntry) (actor : Actor Operation Unit),
      Scene.Reaches program (.opening blankWorld) scene ∧ Scene.Step program scene later ∧
      later.log = scene.log ++ [entry] ∧ scene.actors[entry.actor]? = some actor ∧
      actor.label.isTask = true ∧ entry.commit.closing = none ∧
      later.world.store.timers.keys =
        [(sampleRun, .workflowTimer "reminder"), (sampleRun, .activityPickup "delivery")] ∧
      ∃ engine record outcome, actor.label.engine? = some engine ∧
        scene.book.runs.find? entry.ref = some record ∧
        replay engine.limits.replayLimit engine.registry entry.ref record.events = .ok outcome ∧
        Command.TakeEffect outcome.newCommands entry.ref later.world.store := by
  have blank : blankWorld.IsBlank := rfl
  have entered := Scene.reaches_entered program blankWorld
    [.start (.first sampleRun "errand" "default" .null .standard),
      .processTask errandEngine sampleRun]
  have started := (entered.act 0 rfl rfl).act 0 rfl rfl
  have replayed := ((started.act 1 rfl rfl).act 1 rfl rfl).act 1 rfl rfl
  exact ⟨_, _, _, _, replayed, @Scene.Step.act _ _ program _ 1 _ _ _ _ _ rfl rfl,
    rfl, rfl, rfl, rfl, rfl,
    commands_takeEffect blank replayed (@Scene.Step.act _ _ program _ 1 _ _ _ _ _ rfl rfl)
      rfl rfl rfl rfl⟩

/-- What is taken back first and then asked for is recorded, and does not come about. -/
theorem renewal_comesToNothing :
    ∃ (scene later : Scene Operation Unit) (entry : LogEntry) (actor : Actor Operation Unit)
      (record : RunRecord) (outcome : ReplayOutcome),
      Scene.Reaches program (.opening blankWorld) scene ∧ Scene.Step program scene later ∧
      later.log = scene.log ++ [entry] ∧ scene.actors[entry.actor]? = some actor ∧
      actor.label = .processTask errandEngine sampleRun ∧ entry.commit.closing = none ∧
      scene.book.runs.find? sampleRun = some record ∧
      replay errandEngine.limits.replayLimit errandEngine.registry sampleRun record.events =
        .ok outcome ∧
      (Command.news (.timer "reminder") outcome.newCommands).getLast? = some true ∧
      (sampleRun, .workflowTimer "reminder") ∉ later.world.store.timers.keys ∧
      (Command.news (.activity "delivery") outcome.newCommands).getLast? = some true ∧
      ¬ later.world.store.tasks.Queues sampleRun "delivery" 1 := by
  have entered := Scene.reaches_entered program blankWorld
    [.start (.first sampleRun "renewal" "default" .null .standard),
      .processTask errandEngine sampleRun]
  have started := (entered.act 0 rfl rfl).act 0 rfl rfl
  have replayed := ((started.act 1 rfl rfl).act 1 rfl rfl).act 1 rfl rfl
  refine ⟨_, _, _, _, _, _, replayed, @Scene.Step.act _ _ program _ 1 _ _ _ _ _ rfl rfl,
    rfl, rfl, rfl, rfl, rfl, rfl, rfl, ?_, rfl, ?_⟩
  · exact List.not_mem_nil
  · rintro ⟨slot, hslot, -, hattempt⟩
    -- the only task that is left is the one of the workflow
    cases List.mem_singleton.1 hslot
    cases hattempt

end Operation

end Chronicle
