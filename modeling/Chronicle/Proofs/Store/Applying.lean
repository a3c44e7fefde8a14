import Chronicle.Proofs.Store.Growth
import Chronicle.Proofs.Store.Tasks

/-!
# Applying a commit

The tasks and timers that a commit leaves: first it changes those of its own run, then the runs
that it begins or tells something get workflow tasks.
-/

namespace Chronicle

open Relation (ReflTransGen)

namespace TaskQueue

/-- A workflow task is enqueued, or hastens one that waits already. -/
def Wakes (before after : TaskQueue) : Prop :=
  ∃ task now ref workflowType, task.work = .workflow ref workflowType ∧
    after = (before.enqueue task now).1

theorem Wakes.step {before after : TaskQueue} (wakes : Wakes before after) : Step before after := by
  obtain ⟨task, now, -, -, -, rfl⟩ := wakes
  exact .enqueued before task now

def enqueueAll (now : Instant) (tasks : List NewTask) (queue : TaskQueue) : TaskQueue :=
  tasks.foldl (fun queue task => (queue.enqueue task now).1) queue

def cancelActivities (run : RunRef) (activityIds : List String) (queue : TaskQueue) : TaskQueue :=
  activityIds.foldl (fun queue activityId => queue.cancelActivity run activityId) queue

theorem WellKept.steps {before after : TaskQueue} (wellKept : before.WellKept)
    (steps : ReflTransGen Step before after) : after.WellKept := by
  induction steps with
  | refl => exact wellKept
  | tail _ step ih => exact ih.step step

theorem Assigned.steps {before after : TaskQueue} {id : Uuid} {work : Work}
    (assigned : before.Assigned id work) (steps : ReflTransGen Step before after) :
    after.Assigned id work := by
  induction steps with
  | refl => exact assigned
  | tail _ step ih => exact ih.step step

theorem granted_le_of_steps {before after : TaskQueue} (steps : ReflTransGen Step before after) :
    before.granted ≤ after.granted := by
  induction steps with
  | refl => exact Nat.le_refl _
  | tail _ step ih => exact Nat.le_trans ih step.origin.2.1

theorem enqueueAll_steps (now : Instant) (tasks : List NewTask) (queue : TaskQueue) :
    ReflTransGen Step queue (enqueueAll now tasks queue) := by
  induction tasks generalizing queue with
  | nil => exact .refl
  | cons task rest ih => exact (ReflTransGen.single (.enqueued queue task now)).trans (ih _)

theorem cancelActivities_steps (run : RunRef) (activityIds : List String) (queue : TaskQueue) :
    ReflTransGen Step queue (cancelActivities run activityIds queue) := by
  induction activityIds generalizing queue with
  | nil => exact .refl
  | cons activityId rest ih =>
      exact (ReflTransGen.single (.withdrawn queue _)).trans (ih _)

/-! ### Where the tasks come from -/

theorem mem_enqueue {queue : TaskQueue} {task : NewTask} {now : Instant} {slot : TaskSlot}
    (h : slot ∈ (queue.enqueue task now).1.slots) : slot ∈ queue.slots ∨ slot.work = task.work := by
  rcases queue.enqueue_cases task now with ⟨-, hslots, -⟩ | ⟨-, hslots, -⟩
  · exact .inl (hslots ▸ h)
  · rw [hslots] at h
    rcases List.mem_append.1 h with hold | hnew
    · exact .inl hold
    · rw [List.mem_singleton.1 hnew]
      exact .inr rfl

theorem mem_enqueueAll {queue : TaskQueue} {tasks : List NewTask} {now : Instant} {slot : TaskSlot}
    (h : slot ∈ (enqueueAll now tasks queue).slots) :
    slot ∈ queue.slots ∨ ∃ task ∈ tasks, slot.work = task.work := by
  induction tasks generalizing queue with
  | nil => exact .inl h
  | cons task rest ih =>
      rcases @ih (queue.enqueue task now).1 h with hthere | ⟨other, hmem, hwork⟩
      · rcases mem_enqueue hthere with hold | hnew
        · exact .inl hold
        · exact .inr ⟨task, List.mem_cons_self, hnew⟩
      · exact .inr ⟨other, List.mem_cons_of_mem _ hmem, hwork⟩

theorem mem_withdraw {queue : TaskQueue} {selected : Work → Bool} {slot : TaskSlot}
    (h : slot ∈ (queue.withdraw selected).slots) : slot ∈ queue.slots := by
  rw [slots_withdraw] at h
  exact List.mem_of_mem_filter h

theorem mem_cancelActivities {queue : TaskQueue} {run : RunRef} {activityIds : List String}
    {slot : TaskSlot} (h : slot ∈ (cancelActivities run activityIds queue).slots) :
    slot ∈ queue.slots := by
  induction activityIds generalizing queue with
  | nil => exact h
  | cons activityId rest ih => exact mem_withdraw (@ih (queue.cancelActivity run activityId) h)

theorem mem_of_wakes {before after : TaskQueue} {slot : TaskSlot}
    (wakes : ReflTransGen Wakes before after) (h : slot ∈ after.slots) :
    slot ∈ before.slots ∨ ∃ ref workflowType, slot.work = .workflow ref workflowType := by
  induction wakes with
  | refl => exact .inl h
  | tail _ wake ih =>
      obtain ⟨task, now, ref, workflowType, hwork, rfl⟩ := wake
      rcases mem_enqueue h with hold | hnew
      · exact ih hold
      · exact .inr ⟨ref, workflowType, hnew.trans hwork⟩

/-! ### Workflow tasks stay -/

/-- A workflow task of the run waits for a worker. -/
def Awaits (queue : TaskQueue) (ref : RunRef) : Prop :=
  ∃ slot ∈ queue.slots, slot.isPending ref = true

theorem mem_enqueue_of_mem {queue : TaskQueue} {slot : TaskSlot} (h : slot ∈ queue.slots)
    (task : NewTask) (now : Instant) : slot ∈ (queue.enqueue task now).1.slots := by
  rcases queue.enqueue_cases task now with ⟨-, hslots, -⟩ | ⟨-, hslots, -⟩
  · rw [hslots]
    exact h
  · rw [hslots]
    exact List.mem_append_left _ h

theorem mem_enqueueAll_of_mem {queue : TaskQueue} {slot : TaskSlot} (h : slot ∈ queue.slots)
    (now : Instant) (tasks : List NewTask) : slot ∈ (enqueueAll now tasks queue).slots := by
  induction tasks generalizing queue with
  | nil => exact h
  | cons task rest ih => exact ih (mem_enqueue_of_mem h task now)

theorem mem_wakes_of_mem {before after : TaskQueue} {slot : TaskSlot} (h : slot ∈ before.slots)
    (wakes : ReflTransGen Wakes before after) : slot ∈ after.slots := by
  induction wakes with
  | refl => exact h
  | tail _ wake ih =>
      obtain ⟨task, now, ref, workflowType, -, rfl⟩ := wake
      exact mem_enqueue_of_mem ih task now

theorem mem_withdraw_of_mem {queue : TaskQueue} {selected : Work → Bool} {slot : TaskSlot}
    (h : slot ∈ queue.slots) (hother : selected slot.work = false) :
    slot ∈ (queue.withdraw selected).slots := by
  rw [slots_withdraw]
  exact List.mem_filter.2 ⟨h, by simp [hother]⟩

theorem mem_cancelActivities_of_mem {queue : TaskQueue} {slot : TaskSlot} {target : RunRef}
    (h : slot ∈ queue.slots) (hworkflow : slot.work.isWorkflowOf target = true) (run : RunRef)
    (activityIds : List String) : slot ∈ (cancelActivities run activityIds queue).slots := by
  induction activityIds generalizing queue with
  | nil => exact h
  | cons activityId rest ih =>
      apply @ih (queue.cancelActivity run activityId)
      apply mem_withdraw_of_mem h
      cases hwork : slot.work with
      | workflow ref workflowType => rfl
      | activity work => simp [hwork, Work.isWorkflowOf] at hworkflow

theorem awaits_enqueue {queue : TaskQueue} {task : NewTask} {ref : RunRef}
    (hworkflow : task.work.isWorkflowOf ref = true) (now : Instant) :
    (queue.enqueue task now).1.Awaits ref := by
  rcases queue.enqueue_cases task now with ⟨hcovered, hslots, -⟩ | ⟨-, hslots, -⟩
  · rw [isCovered_eq] at hcovered
    cases hwork : task.work with
    | activity work => simp [hwork, Work.isWorkflowOf] at hworkflow
    | workflow target workflowType =>
        have htarget : target = ref := by simpa [hwork, Work.isWorkflowOf] using hworkflow
        rw [hwork, htarget] at hcovered
        rw [Awaits, hslots]
        simpa using hcovered
  · refine ⟨_, hslots ▸ List.mem_append_right _ (List.mem_singleton_self _), ?_⟩
    simp [TaskSlot.isPending, hworkflow]

theorem awaits_enqueueAll {tasks : List NewTask} {task : NewTask} {ref : RunRef}
    (hmem : task ∈ tasks) (hworkflow : task.work.isWorkflowOf ref = true) (now : Instant)
    (queue : TaskQueue) : (enqueueAll now tasks queue).Awaits ref := by
  induction tasks generalizing queue with
  | nil => cases hmem
  | cons first rest ih =>
      rcases List.mem_cons.1 hmem with rfl | hrest
      · obtain ⟨slot, hslot, hpending⟩ := @awaits_enqueue queue task ref hworkflow now
        exact ⟨slot, mem_enqueueAll_of_mem hslot now rest, hpending⟩
      · exact ih hrest _

end TaskQueue

namespace Commit

/-- What the commit does to tasks on behalf of its own run. -/
def ownTasks (commit : Commit) (ref : RunRef) (now : Instant) (queue : TaskQueue) : TaskQueue :=
  let queue := TaskQueue.cancelActivities ref commit.cancelledActivities
    (TaskQueue.enqueueAll now commit.tasks queue)
  if commit.closing.isSome then queue.purge ref else queue

theorem ownTasks_steps (commit : Commit) (ref : RunRef) (now : Instant) (queue : TaskQueue) :
    ReflTransGen TaskQueue.Step queue (commit.ownTasks ref now queue) := by
  have hsteps := (TaskQueue.enqueueAll_steps now commit.tasks queue).trans
    (TaskQueue.cancelActivities_steps ref commit.cancelledActivities _)
  unfold ownTasks
  simp only
  split
  · exact hsteps.tail (.withdrawn _ _)
  · exact hsteps

theorem mem_ownTasks_of_mem {commit : Commit} {ref target : RunRef} {now : Instant}
    {queue : TaskQueue} {slot : TaskSlot}
    (h : slot ∈ (TaskQueue.enqueueAll now commit.tasks queue).slots)
    (hworkflow : slot.work.isWorkflowOf target = true)
    (hother : commit.closing = none ∨ target ≠ ref) :
    slot ∈ (commit.ownTasks ref now queue).slots := by
  have hkept := TaskQueue.mem_cancelActivities_of_mem h hworkflow ref commit.cancelledActivities
  unfold ownTasks
  simp only
  split
  · rename_i hclosing
    apply TaskQueue.mem_withdraw_of_mem hkept
    rcases hother with hnone | hne
    · simp [hnone] at hclosing
    · cases hwork : slot.work with
      | activity work => simp [hwork, Work.isWorkflowOf] at hworkflow
      | workflow other workflowType =>
          have htarget : other = target := by simpa [hwork, Work.isWorkflowOf] using hworkflow
          simpa [Work.run, htarget] using hne
  · exact hkept

theorem mem_ownTasks {commit : Commit} {ref : RunRef} {now : Instant} {queue : TaskQueue}
    {slot : TaskSlot} (h : slot ∈ (commit.ownTasks ref now queue).slots) :
    slot ∈ queue.slots ∨ ∃ task ∈ commit.tasks, slot.work = task.work := by
  unfold ownTasks at h
  simp only at h
  split at h
  · exact TaskQueue.mem_enqueueAll (TaskQueue.mem_cancelActivities (TaskQueue.mem_withdraw h))
  · exact TaskQueue.mem_enqueueAll (TaskQueue.mem_cancelActivities h)

end Commit

namespace Store

theorem startRun_tasks (store : Store) (new : NewRun) (now : Instant) :
    (store.startRun new now).tasks = (store.tasks.enqueue
      ⟨new.taskQueue, .workflow new.ref new.workflowType, new.firstTaskDelay⟩ now).1 := by
  unfold startRun
  cases new.options.executionTimeout <;> rfl

theorem startRun_wakes (store : Store) (new : NewRun) (now : Instant) :
    TaskQueue.Wakes store.tasks (store.startRun new now).tasks :=
  ⟨_, now, _, _, rfl, startRun_tasks store new now⟩

theorem notify_wakes (store : Store) (notification : Notification) (now : Instant) :
    ReflTransGen TaskQueue.Wakes store.tasks (store.notify notification now).tasks := by
  unfold notify
  split
  · exact .refl
  · split
    · exact .refl
    · exact .single ⟨_, now, _, _, rfl, rfl⟩

theorem foldl_wakes {α : Type} {act : Store → α → Store}
    (hact : ∀ store item, ReflTransGen TaskQueue.Wakes store.tasks (act store item).tasks)
    (items : List α) (store : Store) :
    ReflTransGen TaskQueue.Wakes store.tasks (items.foldl act store).tasks := by
  induction items generalizing store with
  | nil => exact .refl
  | cons item rest ih => exact (hact store item).trans (ih _)

/-- The store after the commit has changed its own run, with all that belongs to it. -/
def revise (store : Store) (ref : RunRef) (commit : Commit) (now : Instant) : Store :=
  let timers := commit.cancelledTimers.foldl (fun timers purpose => timers.cancel ref purpose)
    (commit.timers.foldl TimerQueue.schedule store.timers)
  { store with
    runs := store.runs.modify ref fun record => record.revise commit now
    tasks := commit.ownTasks ref now store.tasks
    timers := if commit.closing.isSome then timers.purge ref else timers }

theorem foldl_addTask (tasks : List NewTask) (now : Instant) (store : Store) :
    tasks.foldl (fun store task => store.addTask task now) store =
      { store with tasks := TaskQueue.enqueueAll now tasks store.tasks } := by
  induction tasks generalizing store with
  | nil => rfl
  | cons task rest ih => exact ih _

theorem foldl_addTimer (timers : List Timer) (store : Store) :
    timers.foldl addTimer store =
      { store with timers := timers.foldl TimerQueue.schedule store.timers } := by
  induction timers generalizing store with
  | nil => rfl
  | cons timer rest ih => exact ih _

/-- A commit first revises its own run, then begins its new runs, and tells others last. -/
theorem apply_eq (store : Store) (ref : RunRef) (commit : Commit) (now : Instant) :
    store.apply ref commit now =
      commit.notifications.foldl (fun store notification => store.notify notification now)
        (commit.newRuns.foldl (fun store new => store.startRun new now)
          (store.revise ref commit now)) := by
  unfold apply
  simp only [foldl_addTask, foldl_addTimer]
  unfold revise Commit.ownTasks TaskQueue.cancelActivities RunRecord.revise
  cases commit.closing <;> rfl

theorem apply_wakes (store : Store) (ref : RunRef) (commit : Commit) (now : Instant) :
    ReflTransGen TaskQueue.Wakes (commit.ownTasks ref now store.tasks)
      (store.apply ref commit now).tasks := by
  rw [apply_eq]
  exact (foldl_wakes (fun store new => .single (startRun_wakes store new now)) commit.newRuns
    (store.revise ref commit now)).trans (foldl_wakes (fun store notification =>
      notify_wakes store notification now) commit.notifications _)

theorem apply_taskSteps (store : Store) (ref : RunRef) (commit : Commit) (now : Instant) :
    ReflTransGen TaskQueue.Step store.tasks (store.apply ref commit now).tasks :=
  (commit.ownTasks_steps ref now store.tasks).trans
    ((store.apply_wakes ref commit now).lift id fun _ _ wakes => wakes.step)

theorem awaits_apply {commit : Commit} {task : NewTask} {ref target : RunRef}
    (hmem : task ∈ commit.tasks) (hworkflow : task.work.isWorkflowOf target = true)
    (hother : commit.closing = none ∨ target ≠ ref) (store : Store) (now : Instant) :
    (store.apply ref commit now).tasks.Awaits target := by
  obtain ⟨slot, hslot, hpending⟩ :=
    TaskQueue.awaits_enqueueAll hmem hworkflow now store.tasks
  have hslotted : slot.work.isWorkflowOf target = true := by
    simp only [TaskSlot.isPending, Bool.and_eq_true] at hpending
    exact hpending.2
  refine ⟨slot, ?_, hpending⟩
  apply TaskQueue.mem_wakes_of_mem _ (store.apply_wakes ref commit now)
  exact Commit.mem_ownTasks_of_mem hslot hslotted hother

/-- After a commit, work on an activity is work that was there before or that the commit gives. -/
theorem mem_apply_tasks {store : Store} {ref : RunRef} {commit : Commit} {now : Instant}
    {slot : TaskSlot} {work : ActivityTask} (hwork : slot.work = .activity work)
    (h : slot ∈ (store.apply ref commit now).tasks.slots) :
    slot ∈ store.tasks.slots ∨ ∃ task ∈ commit.tasks, task.work = .activity work := by
  rcases TaskQueue.mem_of_wakes (store.apply_wakes ref commit now) h with
    hown | ⟨target, workflowType, hother⟩
  · rcases Commit.mem_ownTasks hown with hold | ⟨task, hmem, hsame⟩
    · exact .inl hold
    · exact .inr ⟨task, hmem, hsame ▸ hwork⟩
  · rw [hwork] at hother
    cases hother

/-! ### Piece by piece -/

theorem find?_revise (store : Store) (ref target : RunRef) (commit : Commit) (now : Instant) :
    (store.revise ref commit now).runs.find? target =
      if target = ref then (store.runs.find? ref).map fun record => record.revise commit now
      else store.runs.find? target :=
  RunTable.find?_modify _ _ _ _ fun record => RunRecord.revise_ref record commit now

/-- When a run begins, others keep their histories, and are open or closed as before. -/
theorem find?_startRun {store : Store} {new : NewRun} {now : Instant} {target : RunRef}
    {record : RunRecord} (fresh : store.runs.find? new.ref = none)
    (h : (store.startRun new now).runs.find? target = some record) :
    (target = new.ref ∧ record = .start new now) ∨
      (target ≠ new.ref ∧ ∃ earlier, store.runs.find? target = some earlier ∧
        record.events = earlier.events ∧ record.run.status = earlier.run.status ∧
        record.run.origin = earlier.run.origin) := by
  rw [startRun_runs, RunTable.find?_create fresh] at h
  split at h
  · rename_i htarget
    cases h
    exact .inl ⟨htarget, rfl⟩
  · rename_i htarget
    refine .inr ⟨htarget, ?_⟩
    unfold RunTable.linked at h
    cases hcurrent : store.runs.currentRef? new.ref.workflowId with
    | none =>
        rw [hcurrent] at h
        exact ⟨record, h, rfl, rfl, rfl⟩
    | some previous =>
        simp only [hcurrent] at h
        rw [RunTable.find?_modify _ _ _ _ fun record =>
          RunRecord.link_ref record new.ref.runId] at h
        split at h
        · rename_i hprevious
          obtain ⟨earlier, hearlier, rfl⟩ := Option.map_eq_some_iff.1 h
          exact ⟨earlier, hprevious ▸ hearlier, rfl, rfl, rfl⟩
        · exact ⟨record, h, rfl, rfl, rfl⟩

theorem startRun_timers (store : Store) (new : NewRun) (now : Instant) :
    (store.startRun new now).timers = match new.options.executionTimeout with
      | none => store.timers
      | some timeout => store.timers.schedule
          ⟨new.ref, (now.after new.firstTaskDelay).after timeout, .runTimeout⟩ := by
  unfold startRun
  cases new.options.executionTimeout <;> rfl

/-- An open target is told the event and woken; nothing happens otherwise. -/
theorem notify_cases (store : Store) (notification : Notification) (now : Instant) :
    store.notify notification now = store ∨
      ∃ record, store.runs.find? notification.target = some record ∧ record.isClosed = false ∧
        (store.notify notification now).tasks = (store.tasks.enqueue ⟨record.run.taskQueue,
          .workflow notification.target record.run.workflowType, .zero⟩ now).1 ∧
        (store.notify notification now).timers = store.timers ∧
        ∀ target, (store.notify notification now).runs.find? target =
          if target = notification.target then some (record.append [notification.event] now)
          else store.runs.find? target := by
  unfold notify
  cases hfind : store.runs.find? notification.target with
  | none => exact .inl rfl
  | some record =>
      simp only
      split
      · exact .inl rfl
      · rename_i hopen
        refine .inr ⟨record, rfl, by simpa using hopen, rfl, rfl, ?_⟩
        intro target
        rw [addTask_runs, RunTable.find?_modify _ _ _ _ fun record =>
          RunRecord.append_ref record [notification.event] now]
        simp [hfind]

theorem holds_foldl_notify {holds : Store → Prop} {notifications : List Notification}
    {store : Store} {now : Instant}
    (notified : ∀ middle notification, notification ∈ notifications → holds middle →
      holds (middle.notify notification now)) (hholds : holds store) :
    holds (notifications.foldl (fun store notification => store.notify notification now) store) := by
  induction notifications generalizing store with
  | nil => exact hholds
  | cons notification rest ih =>
      apply ih
      · exact fun middle other hother => notified middle other (List.mem_cons_of_mem _ hother)
      · exact notified store notification List.mem_cons_self hholds

theorem holds_foldl_startRun {holds : Store → Prop} {newRuns : List NewRun} {store : Store}
    {now : Instant} (hfresh : ∀ new ∈ newRuns, store.runs.find? new.ref = none)
    (hdistinct : (newRuns.map NewRun.ref).Nodup)
    (started : ∀ middle new, new ∈ newRuns → middle.runs.find? new.ref = none → holds middle →
      holds (middle.startRun new now)) (hholds : holds store) :
    holds (newRuns.foldl (fun store new => store.startRun new now) store) := by
  induction newRuns generalizing store with
  | nil => exact hholds
  | cons new rest ih =>
      rw [List.map_cons, List.nodup_cons] at hdistinct
      have hnew := hfresh new List.mem_cons_self
      apply ih
      · -- the run that has begun is none of those to come
        rw [startRun_runs]
        exact RunTable.fresh_created now hfresh hdistinct.1
      · exact hdistinct.2
      · exact fun middle other hother => started middle other (List.mem_cons_of_mem _ hother)
      · exact started store new List.mem_cons_self hnew hholds

/-- What holds after the run itself was revised, and stays when runs begin and others are told,
holds after the commit. -/
theorem apply_induction {holds : Store → Prop} {store : Store} {ref : RunRef} {commit : Commit}
    {now : Instant} (hfresh : ∀ new ∈ commit.newRuns, store.runs.find? new.ref = none)
    (hdistinct : (commit.newRuns.map NewRun.ref).Nodup)
    (revised : holds (store.revise ref commit now))
    (started : ∀ middle new, new ∈ commit.newRuns → middle.runs.find? new.ref = none →
      holds middle → holds (middle.startRun new now))
    (notified : ∀ middle notification, notification ∈ commit.notifications → holds middle →
      holds (middle.notify notification now)) :
    holds (store.apply ref commit now) := by
  rw [apply_eq]
  apply holds_foldl_notify notified
  exact holds_foldl_startRun (RunTable.fresh_of_revised now hfresh) hdistinct started revised

end Store

end Chronicle
