import Chronicle.Proofs.Engine.Upkeep
import Chronicle.Proofs.Store.Leases

/-!
# Runs that wait for their time

A run that begins with a delay has one workflow task, and nobody is given it before its time.  What
is done for other runs does not change that, and neither do polls that come too early.  Whatever is
recorded for the run itself ends the wait.
-/

namespace Chronicle

namespace TaskQueue

/-! ## The tasks of one run -/

def tasksOf (queue : TaskQueue) (ref : RunRef) : List TaskRecord :=
  queue.records.filter fun record => record.work.run = ref

/-- Nobody holds a task of the run. -/
def Free (queue : TaskQueue) (ref : RunRef) : Prop :=
  ∀ record ∈ queue.tasksOf ref, record.lease = none

/-- Nobody holds a task of the run, and none is visible yet. -/
structure Rests (queue : TaskQueue) (ref : RunRef) (now : Instant) : Prop where
  free : queue.Free ref
  early : ∀ record ∈ queue.tasksOf ref, now < record.visibleAt

/-- The act is not for the run, and it is no poll either. -/
def Act.Passes (ref : RunRef) : Act → Prop
  | .enqueue task => task.work.run ≠ ref
  | .claim _ => False
  | .cancelActivity run _ => run ≠ ref
  | .purge run => run ≠ ref
  | _ => True

variable {queue : TaskQueue} {ref : RunRef} {now : Instant}

theorem mem_tasksOf {record : TaskRecord} :
    record ∈ queue.tasksOf ref ↔ record ∈ queue.records ∧ record.work.run = ref := by
  simp [tasksOf]

theorem run_of_isPendingWorkflowOf {record : TaskRecord} {run : RunRef}
    (h : record.isPendingWorkflowOf run = true) : record.work.run = run := by
  simp only [TaskRecord.isPendingWorkflowOf, Bool.and_eq_true] at h
  cases hwork : record.work with
  | activity work => simp [hwork, Work.isWorkflowOf] at h
  | workflow target workflowType => simpa [hwork, Work.isWorkflowOf, Work.run] using h.2

/-! ### What leaves them as they are -/

theorem tasksOf_modify {id : Uuid} {change : TaskRecord → TaskRecord}
    (hwork : ∀ record, (change record).work = record.work)
    (hother : ∀ record ∈ queue.tasksOf ref, record.taskId ≠ id) :
    (queue.modify id change).tasksOf ref = queue.tasksOf ref := by
  have hsame : (fun record : TaskRecord => decide (record.work.run = ref)) ∘
      (fun record => if record.taskId = id then change record else record) =
        fun record => decide (record.work.run = ref) := by
    funext record
    simp only [Function.comp]
    split <;> simp [hwork]
  simp only [tasksOf, modify, List.filter_map, hsame]
  conv_rhs => rw [← List.map_id (List.filter _ queue.records)]
  apply List.map_congr_left
  intro record hmem
  exact if_neg (hother record hmem)

theorem tasksOf_remove {id : Uuid} (hother : ∀ record ∈ queue.tasksOf ref, record.taskId ≠ id) :
    (queue.remove id).tasksOf ref = queue.tasksOf ref := by
  simp only [tasksOf, remove, List.filter_filter]
  apply List.filter_congr
  intro record hmem
  by_cases href : record.work.run = ref
  · simp [href, hother record (mem_tasksOf.2 ⟨hmem, href⟩)]
  · simp [href]

theorem filter_modifyFirst {condition keeps : TaskRecord → Bool} {change : TaskRecord → TaskRecord}
    (h : ∀ record, condition record = true → keeps record = false ∧ keeps (change record) = false)
    (records : List TaskRecord) :
    (modifyFirst condition change records).filter keeps = records.filter keeps := by
  induction records with
  | nil => rfl
  | cons record rest ih =>
      unfold modifyFirst
      split
      · rename_i hcondition
        obtain ⟨hbefore, hafter⟩ := h record hcondition
        rw [List.filter_cons_of_neg (by simp [hafter]), List.filter_cons_of_neg (by simp [hbefore])]
      · rw [List.filter_cons, List.filter_cons, ih]

theorem tasksOf_enqueue {task : NewTask} (hother : task.work.run ≠ ref) (now : Instant) :
    (queue.enqueue task now).1.tasksOf ref = queue.tasksOf ref := by
  unfold enqueue tasksOf
  simp only
  split
  · apply filter_modifyFirst
    intro record hpending
    have hrun := run_of_isPendingWorkflowOf hpending
    simp [hasten, hrun, hother]
  · simp [add, hother]

theorem tasksOf_add {task : NewTask} (href : task.work.run = ref) (visibleAt : Instant) :
    (queue.add task visibleAt).tasksOf ref = queue.tasksOf ref ++
      [⟨taskId queue.issued, task.taskQueue, task.work, visibleAt, none, 0, false, none⟩] := by
  simp [tasksOf, add, href]

theorem tasksOf_withdraw {selected : Work → Bool}
    (hother : ∀ work, work.run = ref → selected work = false) :
    (queue.withdraw selected).tasksOf ref = queue.tasksOf ref := by
  unfold withdraw tasksOf
  simp only
  induction queue.records with
  | nil => rfl
  | cons record rest ih =>
      by_cases href : record.work.run = ref
      · simpa [hother _ href, href] using ih
      · simp only [List.filterMap_cons, List.filter_cons, href]
        cases selected record.work <;> cases record.lease.isNone <;> simpa [href] using ih

/-- A task that somebody holds is none of the run. -/
theorem Free.apart (free : queue.Free ref) (wellKept : queue.WellKept) {taskId token : Uuid}
    {held : TaskRecord} (hheld : queue.held taskId token = .ok held) :
    ∀ record ∈ queue.tasksOf ref, record.taskId ≠ taskId := by
  intro record hmem hid
  obtain ⟨hthere, hsame, htoken⟩ := mem_of_held hheld
  rw [wellKept.eq_of_id hthere (mem_tasksOf.1 hmem).1 (hsame.trans hid.symm),
    free record hmem] at htoken
  cases htoken

theorem exists_of_claim {request : PollRequest} {after : TaskQueue} {task : LeasedTask}
    (h : queue.claim request now = (after, .claimed task)) :
    ∃ record ∈ queue.records, task.taskId = record.taskId ∧ task.work = record.work ∧
      record.Available now := by
  unfold claim at h
  simp only at h
  split at h
  · cases h
  · rename_i record hfind
    cases h
    refine ⟨record, List.mem_of_mem_filter (List.mem_of_find?_eq_some hfind), rfl, rfl, ?_⟩
    exact TaskRecord.available_iff.2 (by simpa using List.find?_some hfind)

theorem Rests.not_available (rests : queue.Rests ref now) {record : TaskRecord}
    (hmem : record ∈ queue.tasksOf ref) : ¬record.Available now := by
  simp only [TaskRecord.Available, rests.free record hmem]
  exact fun hvisible => Instant.not_lt_of_le hvisible (rests.early record hmem)

/-- Nobody is handed out a task of the run. -/
theorem Rests.not_claimed (rests : queue.Rests ref now) {request : PollRequest} {after : TaskQueue}
    {task : LeasedTask} (h : queue.claim request now = (after, .claimed task)) :
    task.work.run ≠ ref := by
  intro href
  obtain ⟨record, hmem, -, hwork, havailable⟩ := exists_of_claim h
  exact rests.not_available (mem_tasksOf.2 ⟨hmem, hwork ▸ href⟩) havailable

theorem tasksOf_claim (rests : queue.Rests ref now) (wellKept : queue.WellKept)
    (request : PollRequest) : (queue.claim request now).1.tasksOf ref = queue.tasksOf ref := by
  unfold claim
  simp only
  split
  · rfl
  · rename_i found hfind
    have hfound := List.mem_of_mem_filter (List.mem_of_find?_eq_some hfind)
    refine @tasksOf_modify queue ref found.taskId (fun record =>
      { record with
        lease := some ⟨leaseToken queue.granted, request.workerId, now.after request.leaseDuration⟩
        deliveryCount := found.deliveryCount + 1 }) (fun _ => rfl) ?_
    intro record hmem hid
    rw [wellKept.eq_of_id (mem_tasksOf.1 hmem).1 hfound hid] at hmem
    exact rests.not_available hmem
      (TaskRecord.available_iff.2 (by simpa using List.find?_some hfind))

theorem tasksOf_fail (free : queue.Free ref) (wellKept : queue.WellKept)
    {taskId token : Uuid} {reason : String} {delay : Span} {after : TaskQueue}
    (h : queue.fail taskId token reason delay now = .ok after) :
    after.tasksOf ref = queue.tasksOf ref := by
  unfold fail at h
  split at h
  · cases h
  · rename_i held hheld
    have happart := free.apart wellKept hheld
    have hreleased := @tasksOf_modify queue ref taskId (fun record =>
      { record with lease := none, visibleAt := now.after delay, lastError := some reason })
      (fun _ => rfl) happart
    split at h <;> cases h
    · exact (tasksOf_remove (hreleased ▸ happart)).trans hreleased
    · exact hreleased

/-- Acts for others leave the tasks of a run as they are, as long as nobody holds one of these. -/
theorem tasksOf_perform (free : queue.Free ref) (wellKept : queue.WellKept) {act : Act}
    (passes : act.Passes ref) (now : Instant) :
    (queue.perform act now).tasksOf ref = queue.tasksOf ref := by
  cases act with
  | enqueue task => exact tasksOf_enqueue passes now
  | claim request => exact passes.elim
  | complete taskId token =>
      cases hheld : queue.held taskId token with
      | error error => simp only [perform, complete, hheld]
      | ok held =>
          simp only [perform, complete, hheld]
          exact tasksOf_remove (free.apart wellKept hheld)
  | fail taskId token reason delay =>
      cases hfail : queue.fail taskId token reason delay now with
      | error error => simp only [perform, hfail]
      | ok after =>
          simp only [perform, hfail]
          exact tasksOf_fail free wellKept hfail
  | heartbeat taskId token extension =>
      cases hheld : queue.held taskId token with
      | error error => simp only [perform, heartbeat, hheld]
      | ok held =>
          simp only [perform, heartbeat, hheld]
          refine @tasksOf_modify queue ref taskId (fun record =>
            { record with
              lease := record.lease.map fun lease =>
                { lease with expiresAt := now.after extension } }) (fun _ => rfl) ?_
          exact free.apart wellKept hheld
  | cancelActivity run activityId =>
      apply tasksOf_withdraw
      rintro (⟨target, workflowType⟩ | work) href
      · rfl
      · have hother : work.run ≠ run := fun heq => passes (heq.symm.trans href)
        simp [Work.isActivityOf, hother]
  | purge run =>
      apply tasksOf_withdraw
      intro work href
      exact decide_eq_false fun heq => passes (heq.symm.trans href)

theorem tasksOf_performAll {acts : List (Act × Instant)} (free : queue.Free ref)
    (wellKept : queue.WellKept) (passes : ∀ act ∈ acts, act.1.Passes ref) :
    (queue.performAll acts).tasksOf ref = queue.tasksOf ref := by
  induction acts generalizing queue with
  | nil => rfl
  | cons act rest ih =>
      have hfirst := tasksOf_perform free wellKept (passes act List.mem_cons_self) act.2
      have hrest : Free (queue.perform act.1 act.2) ref := by
        rw [Free, hfirst]
        exact free
      exact (ih hrest (wellKept.steps (perform_step queue act.1 act.2))
        fun other hother => passes other (List.mem_cons_of_mem _ hother)).trans hfirst

/-- The tasks and cancellations of a commit to another run. -/
theorem tasksOf_ownTasks {commit : Commit} {target : RunRef} (free : queue.Free ref)
    (wellKept : queue.WellKept) (hother : target ≠ ref)
    (htasks : ∀ task ∈ commit.tasks, task.work.run = target) (now : Instant) :
    (commit.ownTasks target now queue).tasksOf ref = queue.tasksOf ref := by
  rw [ownTasks_eq]
  apply tasksOf_performAll free wellKept
  intro act hmem
  rcases List.mem_append.1 hmem with hmem | hpurge
  · rcases List.mem_append.1 hmem with htask | hcancel
    · obtain ⟨task, hadded, rfl⟩ := List.mem_map.1 htask
      exact fun heq => hother ((htasks task hadded).symm.trans heq)
    · obtain ⟨activityId, -, rfl⟩ := List.mem_map.1 hcancel
      exact hother
  · split at hpurge
    · rw [List.mem_singleton.1 hpurge]
      exact hother
    · cases hpurge

end TaskQueue

/-! ## What commits have for tasks -/

/-- Whoever writes to a run records something, and has tasks for that run only. -/
theorem Update.records {fires : Prop} {run : Run} {history : List HistoryEvent} {commit : Commit}
    (update : Update fires run history commit) :
    commit.events ≠ [] ∧ ∀ task ∈ commit.tasks, task.work.run = run.ref := by
  cases update <;> simp [Commit.ofEvents, Decision.close, Run.workflowTask, Work.run,
    AttemptOutcome.endCommit]

theorem Decision.Provisions.tasks_run {run : Run} {ledger : Ledger} {now : Instant}
    {commit : Commit} (provisions : Decision.Provisions run ledger now commit) :
    ∀ task ∈ commit.tasks, task.work.run = run.ref := by
  obtain ⟨wakes, htasks, hwakes⟩ := provisions.tasks
  intro task hmem
  rw [htasks, List.mem_append] at hmem
  rcases hmem with hscheduled | hwake
  · obtain ⟨event, -, htask⟩ := List.mem_filterMap.1 hscheduled
    cases event <;> cases htask
    rfl
  · rcases hwakes with rfl | ⟨rfl, -⟩
    · rw [List.mem_singleton.1 hwake]
      rfl
    · cases hwake

theorem Rules.Writes.records {rules : Rules} {fires : Prop} {run : Run}
    {history : List HistoryEvent} {commit : Commit}
    (writes : rules.Writes fires run history commit) :
    commit.events ≠ [] ∧ ∀ task ∈ commit.tasks, task.work.run = run.ref := by
  rcases writes with update | ⟨engine, -, decided⟩
  · exact update.records
  · obtain ⟨now, provisions⟩ := decided.provisions
    exact ⟨List.ne_nil_of_length_pos decided.batch.2, provisions.tasks_run⟩

/-! ## The sleep of a run -/

namespace Store

/-- Something has been recorded for the run since its start. -/
def Stirred (store : Store) (ref : RunRef) : Prop :=
  ∃ record, store.runs.find? ref = some record ∧ 1 < record.events.length

/-- The run waits for the instant, unless it has not begun yet or something has been recorded. -/
inductive Slumbers (store : Store) (ref : RunRef) (due : Instant) : Prop where
  | unborn (missing : store.runs.find? ref = none) (nothing : store.tasks.tasksOf ref = [])
  | asleep {record : RunRecord} {task : TaskRecord} (found : store.runs.find? ref = some record)
      (alone : record.events.length = 1) (only : store.tasks.tasksOf ref = [task])
      (begins : task.work.isWorkflowOf ref = true) (free : task.lease = none)
      (visibleAt : task.visibleAt = due)
  | awake (stirred : store.Stirred ref)

namespace Slumbers

variable {store after : Store} {ref : RunRef} {due now : Instant}

theorem free (slumbers : store.Slumbers ref due) (quiet : ¬store.Stirred ref) :
    store.tasks.Free ref := by
  cases slumbers with
  | unborn missing nothing => simp [TaskQueue.Free, nothing]
  | asleep found alone only begins free visibleAt => simp [TaskQueue.Free, only, free]
  | awake stirred => exact absurd stirred quiet

/-- Before its time nobody gets a task of the run. -/
theorem rests (slumbers : store.Slumbers ref due) (quiet : ¬store.Stirred ref)
    (early : store.runs.find? ref = none ∨ now < due) : store.tasks.Rests ref now where
  free := slumbers.free quiet
  early := by
    cases slumbers with
    | unborn missing nothing => simp [nothing]
    | @asleep record task found alone only begins free visibleAt =>
        have hearly : now < due := by
          rcases early with hmissing | hearly
          · rw [found] at hmissing
            cases hmissing
          · exact hearly
        simpa [only, visibleAt] using hearly
    | awake stirred => exact absurd stirred quiet

/-- What leaves the history of the run and its tasks as they are does not wake it. -/
theorem frame (slumbers : store.Slumbers ref due)
    (hevents : (after.runs.find? ref).map RunRecord.events =
      (store.runs.find? ref).map RunRecord.events)
    (htasks : ¬store.Stirred ref → after.tasks.tasksOf ref = store.tasks.tasksOf ref) :
    after.Slumbers ref due := by
  have hfinds : ∀ record, store.runs.find? ref = some record →
      ∃ later, after.runs.find? ref = some later ∧ later.events = record.events := by
    intro record hfind
    rw [hfind, Option.map_some, Option.map_eq_some_iff] at hevents
    exact hevents
  cases slumbers with
  | unborn missing nothing =>
      have quiet : ¬store.Stirred ref := by
        rintro ⟨record, hfind, -⟩
        rw [missing] at hfind
        cases hfind
      rw [missing, Option.map_none, Option.map_eq_none_iff] at hevents
      exact .unborn hevents ((htasks quiet).trans nothing)
  | @asleep record task found alone only begins free visibleAt =>
      have quiet : ¬store.Stirred ref := by
        rintro ⟨other, hfind, hlong⟩
        rw [found, Option.some.injEq] at hfind
        rw [← hfind, alone] at hlong
        exact Nat.lt_irrefl 1 hlong
      obtain ⟨later, hlater, hsame⟩ := hfinds record found
      exact .asleep hlater (hsame ▸ alone) ((htasks quiet).trans only) begins free visibleAt
  | awake stirred =>
      obtain ⟨record, hfind, hlong⟩ := stirred
      obtain ⟨later, hlater, hsame⟩ := hfinds record hfind
      exact .awake ⟨later, hlater, hsame ▸ hlong⟩

/-- The run is there, and its history does not end with what it has. -/
theorem stirs (slumbers : store.Slumbers ref due) {record later : RunRecord}
    {events : List HistoryEvent} (hfind : store.runs.find? ref = some record)
    (hlater : after.runs.find? ref = some later) (hevents : later.events = record.events ++ events)
    (hsome : events ≠ []) : after.Slumbers ref due := by
  refine .awake ⟨later, hlater, ?_⟩
  have hmore := List.length_pos_of_ne_nil hsome
  rw [hevents, List.length_append]
  cases slumbers with
  | unborn missing =>
      rw [missing] at hfind
      cases hfind
  | asleep found alone =>
      rw [found, Option.some.injEq] at hfind
      subst hfind
      omega
  | awake stirred =>
      obtain ⟨found, hfound, hlong⟩ := stirred
      rw [hfind, Option.some.injEq] at hfound
      subst hfound
      omega

theorem wake (slumbers : store.Slumbers ref due) : store.wake.Slumbers ref due :=
  slumbers.frame rfl fun _ => rfl

/-! ### Commits -/

theorem startRun (slumbers : store.Slumbers ref due) {new : NewRun}
    (fresh : store.runs.find? new.ref = none)
    (hdue : new.ref = ref → now.after new.firstTaskDelay = due) :
    (store.startRun new now).Slumbers ref due := by
  by_cases href : new.ref = ref
  · subst href
    have nothing : store.tasks.tasksOf new.ref = [] := by
      cases slumbers with
      | unborn missing nothing => exact nothing
      | asleep found =>
          rw [fresh] at found
          cases found
      | awake stirred =>
          obtain ⟨record, hfind, -⟩ := stirred
          rw [fresh] at hfind
          cases hfind
    have hfree : store.tasks.records.any
        (fun record => record.isPendingWorkflowOf new.ref) = false := by
      rw [List.any_eq_false]
      intro record hmem hpending
      have hrun := TaskQueue.run_of_isPendingWorkflowOf hpending
      have hthere := TaskQueue.mem_tasksOf.2 ⟨hmem, hrun⟩
      rw [nothing] at hthere
      cases hthere
    let task : TaskRecord :=
      ⟨TaskQueue.taskId store.tasks.issued, new.taskQueue, .workflow new.ref new.workflowType,
        now.after new.firstTaskDelay, none, 0, false, none⟩
    refine @Slumbers.asleep _ _ _ (.start new now) task ?_ rfl ?_ (decide_eq_true rfl) rfl (hdue rfl)
    · rw [startRun_runs, RunTable.find?_create fresh, if_pos rfl]
    rw [startRun_tasks]
    simp only [TaskQueue.enqueue, TaskQueue.isCovered, hfree, Bool.false_eq_true, if_false]
    refine (@TaskQueue.tasksOf_add store.tasks new.ref _ rfl _).trans ?_
    rw [nothing]
    rfl
  · apply slumbers.frame
    · rw [startRun_runs, RunTable.find?_create fresh, if_neg (Ne.symm href)]
      unfold RunTable.linked
      cases store.runs.currentRef? new.ref.workflowId with
      | none => rfl
      | some previous =>
          simp only
          rw [RunTable.find?_modify _ _ _ _ fun record => RunRecord.link_ref record new.ref.runId]
          split
          · rename_i hprevious
            rw [hprevious, Option.map_map]
            rfl
          · rfl
    · intro _
      have hother : (Work.workflow new.ref new.workflowType).run ≠ ref := href
      rw [startRun_tasks]
      exact TaskQueue.tasksOf_enqueue hother now

theorem notify (slumbers : store.Slumbers ref due) (notification : Notification) (now : Instant) :
    (store.notify notification now).Slumbers ref due := by
  rcases store.notify_cases notification now with
    hsame | ⟨record, hfind, -, htasks, -, hfinds⟩
  · rwa [hsame]
  · by_cases href : ref = notification.target
    · subst href
      refine slumbers.stirs hfind ((hfinds _).trans (if_pos rfl)) (RunRecord.append_events _ _ _) ?_
      simp [RunRecord.number]
    · apply slumbers.frame
      · rw [hfinds, if_neg href]
      · intro _
        rw [htasks]
        exact TaskQueue.tasksOf_enqueue (Ne.symm href) now

theorem revise (slumbers : store.Slumbers ref due) (wellKept : store.tasks.WellKept)
    {target : RunRef} {record : RunRecord} {commit : Commit}
    (hfind : store.runs.find? target = some record) (hevents : commit.events ≠ [])
    (htasks : ∀ task ∈ commit.tasks, task.work.run = target) (now : Instant) :
    (store.revise target commit now).Slumbers ref due := by
  by_cases href : ref = target
  · subst href
    refine slumbers.stirs hfind (RunTable.find?_revised hfind commit now)
      (RunRecord.revise_events _ _ _) ?_
    cases hsome : commit.events with
    | nil => exact absurd hsome hevents
    | cons event rest => simp [RunRecord.number]
  · apply slumbers.frame
    · rw [find?_revise, if_neg href]
    · intro quiet
      exact TaskQueue.tasksOf_ownTasks (slumbers.free quiet) wellKept (Ne.symm href) htasks now

/-- A commit wakes the run only if it records something for it. -/
theorem apply (slumbers : store.Slumbers ref due) (wellKept : store.tasks.WellKept)
    {target : RunRef} {record : RunRecord} {commit : Commit}
    (hfind : store.runs.find? target = some record) (hevents : commit.events ≠ [])
    (htasks : ∀ task ∈ commit.tasks, task.work.run = target) (begins : commit.BeginsNew store.runs)
    (hdue : ∀ new ∈ commit.newRuns, new.ref = ref → now.after new.firstTaskDelay = due) :
    (store.apply target commit now).Slumbers ref due := by
  refine @Store.apply_induction (·.Slumbers ref due) _ _ _ _ begins.1 begins.2 ?_ ?_ ?_
  · exact slumbers.revise wellKept hfind hevents htasks now
  · exact fun middle new hmem fresh held => held.startRun fresh (hdue new hmem)
  · exact fun middle notification _ held => held.notify notification now

end Slumbers

end Store

end Chronicle
