import Chronicle.Proofs.Engine.Playing

/-!
# Nobody drops the last workflow task

A run that is attended to stays so, whatever moves are made: a workflow task is handed out under a
later lease, replaced by another one, or completed by a worker that others have relieved.
-/

namespace Chronicle

open Relation (ReflTransGen)

namespace TaskSlot

theorem isSince_of_free {slot : TaskSlot} (h : slot.token = none) (bound : Nat) :
    slot.isSince bound := by
  intro token htoken
  rw [h] at htoken
  cases htoken

theorem isSince.mono {slot : TaskSlot} {early late : Nat} (since : slot.isSince late)
    (h : early ≤ late) : slot.isSince early := by
  intro token htoken
  obtain ⟨number, hnumber, hsame⟩ := since token htoken
  exact ⟨number, Nat.le_trans h hnumber, hsame⟩

end TaskSlot

/-! ## Commits -/

theorem RunRecord.isClosed_revise {record : RunRecord} {commit : Commit} (tidy : commit.Tidy)
    (hclosing : commit.closing ≠ none) (now : Instant) :
    (record.revise commit now).isClosed = true := by
  obtain ⟨closing, hsome⟩ := Option.ne_none_iff_exists'.1 hclosing
  have hlast := tidy.closing
  rw [hsome] at hlast
  obtain ⟨event, -, hevent⟩ := Option.bind_eq_some_iff.1 hlast.symm
  exact isClosed_revise_some record hsome (Event.isClosed_of_closing? hevent) now

/-- What is written to an open run closes it, wakes it, or leaves nothing new to decide. -/
theorem Rules.Writes.attends {rules : Rules} {fires : Prop} {run : Run} {history : List HistoryEvent}
    {commit : Commit} (writes : rules.Writes fires run history commit) :
    commit.closing ≠ none ∨ run.workflowTask ∈ commit.tasks ∨
      (∀ event ∈ commit.events, event.isProgress = true) ∨
      ∃ engine, rules.decides engine ∧ engine.Decided run.ref run history commit ∧
        ∀ event ∈ commit.events, Decision.isRejection event = false := by
  rcases writes with update | ⟨engine, decides, decided⟩
  · cases update with
    | reported report => exact .inr (.inl (List.mem_singleton_self _))
    | forced ends => exact .inl (Option.some_ne_none _)
    | started workerId now own provided attempted waits =>
        exact .inr (.inr (.inl (by simp [Commit.ofEvents, Event.isProgress])))
    | beat details now own provided picked attempted =>
        exact .inr (.inr (.inl (by simp [Commit.ofEvents, Event.isProgress])))
    | ended attempted picked ends => exact .inr (.inl (List.mem_singleton_self _))
    | retried now attempted picked ends =>
        refine .inr (.inr (.inl ?_))
        cases ends <;> simp [AttemptOutcome.endCommit, Commit.ofEvents, Event.isProgress]
    | fired allowed pending => exact .inr (.inl (List.mem_singleton_self _))
    | missed allowed attempted waits => exact .inr (.inl (List.mem_singleton_self _))
  · obtain ⟨built, provisions⟩ := decided.provisions
    obtain ⟨wakes, htasks, hone | ⟨-, haccepted⟩⟩ := provisions.tasks
    · exact .inr (.inl (by simp [htasks, hone]))
    · exact .inr (.inr (.inr ⟨engine, decides, decided, haccepted⟩))

namespace Rules.Attended

variable {rules : Rules} {fires : Prop} {ref : RunRef} {bound : Nat}

theorem of_awaits {store : Store} (awaits : store.tasks.Awaits ref) :
    rules.Attended store ref bound :=
  Rules.Served.of_awaits awaits bound

theorem startRun {store : Store} (attended : rules.Attended store ref bound) {new : NewRun}
    (fresh : store.runs.find? new.ref = none) (now : Instant) :
    rules.Attended (store.startRun new now) ref bound := by
  intro record hfind hopen
  rw [Store.startRun_tasks]
  rcases Store.find?_startRun fresh hfind with ⟨href, -⟩ | ⟨-, earlier, hearlier, hevents, hstatus, -⟩
  · obtain ⟨slot, hslot, hpending⟩ := @TaskQueue.awaits_enqueue store.tasks
      ⟨new.taskQueue, .workflow new.ref new.workflowType, new.firstTaskDelay⟩ ref
      (by simp [Work.isWorkflowOf, href]) now
    simp only [TaskSlot.isPending, Bool.and_eq_true, Option.isNone_iff_eq_none] at hpending
    exact .inr ⟨slot, hslot, hpending.2, TaskSlot.isSince_of_free hpending.1 bound⟩
  · rw [RunRecord.isClosed, hstatus] at hopen
    rw [hevents]
    apply (attended earlier hearlier hopen).imp_right
    rintro ⟨slot, hslot, hkind⟩
    exact ⟨slot, TaskQueue.mem_enqueue_of_mem hslot _ now, hkind⟩

theorem notify {store : Store} (attended : rules.Attended store ref bound)
    (notification : Notification) (now : Instant) :
    rules.Attended (store.notify notification now) ref bound := by
  rcases store.notify_cases notification now with hsame | ⟨told, -, -, htasks, -, hfinds⟩
  · rw [hsame]
    exact attended
  · by_cases htarget : ref = notification.target
    · apply of_awaits
      rw [htasks]
      exact TaskQueue.awaits_enqueue (by simp [Work.isWorkflowOf, htarget]) now
    · intro record hfind hopen
      rw [hfinds, if_neg htarget] at hfind
      apply (attended record hfind hopen).imp_right
      rintro ⟨slot, hslot, hkind⟩
      exact ⟨slot, htasks ▸ TaskQueue.mem_enqueue_of_mem hslot _ now, hkind⟩

theorem revise_other {store : Store} (attended : rules.Attended store ref bound) {target : RunRef}
    (hother : ref ≠ target) (commit : Commit) (now : Instant) :
    rules.Attended (store.revise target commit now) ref bound := by
  intro record hfind hopen
  rw [Store.find?_revise, if_neg hother] at hfind
  apply (attended record hfind hopen).imp_right
  rintro ⟨slot, hslot, hworkflow, hsince⟩
  exact ⟨slot, Commit.mem_ownTasks_of_mem (TaskQueue.mem_enqueueAll_of_mem hslot now commit.tasks)
    hworkflow (.inr hother), hworkflow, hsince⟩

theorem revise_own {store : Store} (attended : rules.Attended store ref bound)
    (lawful : rules.Lawful) {record : RunRecord} {run : Run} {commit : Commit} (now : Instant)
    (hfind : store.runs.find? ref = some record) (hopen : record.isClosed = false)
    (keeps : rules.keeps record) (horigin : run.origin = record.run.origin)
    (writes : rules.Writes fires run record.events commit) :
    rules.Attended (store.revise ref commit now) ref bound := by
  have href : run.ref = ref := (Run.ref_eq_of_origin horigin).trans (RunTable.ref_of_find? hfind)
  have hrecord := RunTable.ref_of_find? hfind
  intro later hlater hstill
  rw [Store.find?_revise, if_pos rfl, hfind, Option.map_some, Option.some.injEq] at hlater
  subst hlater
  have hclosing : commit.closing = none := by
    by_contra hclosing
    rw [RunRecord.isClosed_revise writes.tidy hclosing now] at hstill
    cases hstill
  have hkept : ∀ slot ∈ (TaskQueue.enqueueAll now commit.tasks store.tasks).slots,
      slot.work.isWorkflowOf ref = true → slot ∈ (store.revise ref commit now).tasks.slots :=
    fun slot hslot hworkflow => Commit.mem_ownTasks_of_mem hslot hworkflow (.inl hclosing)
  rw [RunRecord.revise_events]
  rcases writes.attends with hcloses | hwakes | hprogress | ⟨engine, decides, decided, haccepted⟩
  · exact absurd hclosing hcloses
  · right
    have hkind : run.workflowTask.work.isWorkflowOf ref = true := by
      simp [Run.workflowTask, Work.isWorkflowOf, href]
    obtain ⟨slot, hslot, hpending⟩ := TaskQueue.awaits_enqueueAll hwakes hkind now store.tasks
    simp only [TaskSlot.isPending, Bool.and_eq_true, Option.isNone_iff_eq_none] at hpending
    exact ⟨slot, hkept slot hslot hpending.2, hpending.2, TaskSlot.isSince_of_free hpending.1 bound⟩
  · rcases attended record hfind hopen with hsettled | ⟨slot, hslot, hworkflow, hsince⟩
    · left
      rw [← hrecord] at hsettled ⊢
      apply lawful.progress record _ keeps hsettled
      exact fun event hmem => hprogress _ (RunRecord.event_mem_of_mem_number hmem)
    · exact .inr ⟨slot, hkept slot (TaskQueue.mem_enqueueAll_of_mem hslot now commit.tasks) hworkflow,
        hworkflow, hsince⟩
  · left
    rw [href, ← hrecord] at decided
    rw [← hrecord]
    exact lawful.decided engine record run commit decides keeps decided haccepted now _

/-! ## Moves -/

theorem completed {before : Store} {taskId token : Uuid} {tasks : TaskQueue}
    (attended : rules.Attended before ref bound) (wellKept : before.tasks.WellKept)
    (h : before.tasks.complete taskId token = .ok tasks)
    (done : rules.MayComplete before taskId token) :
    rules.Attended { before with tasks := tasks } ref bound := by
  obtain ⟨held, holds, hslots, -⟩ := TaskQueue.complete_ok h
  obtain ⟨hheld, hid, htoken⟩ := holds
  have hstays : ∀ slot ∈ before.tasks.slots, slot.taskId ≠ taskId → slot ∈ tasks.slots := by
    intro slot hslot hne
    rw [hslots]
    exact List.mem_filter.2 ⟨hslot, by simpa using hne⟩
  intro record hfind hopen
  rcases attended record hfind hopen with hsettled | ⟨slot, hslot, hworkflow, hsince⟩
  · exact .inl hsettled
  by_cases hsame : slot.taskId = taskId
  · -- the task itself is completed, by a worker that others have relieved
    have heq := wellKept.eq_of_taskId hslot hheld (hsame.trans hid.symm)
    subst heq
    have hrelieved := done slot ⟨hslot, hid, htoken⟩
    cases hwork : slot.work with
    | activity work => simp [hwork, Work.isWorkflowOf] at hworkflow
    | workflow target workflowType =>
        have htarget : target = ref := by simpa [hwork, Work.isWorkflowOf] using hworkflow
        subst htarget
        rw [hwork] at hrelieved
        obtain ⟨number, hnumber, hothers⟩ := hrelieved
        obtain ⟨earliest, hearliest, hfirst⟩ := hsince token htoken
        have hsupply := TaskQueue.leaseToken_injective (hnumber.symm.trans hfirst)
        apply (hothers record hfind hopen).imp_right
        rintro ⟨other, hother, hkind, hlater⟩
        refine ⟨other, hstays other hother ?_, hkind, hlater.mono (by omega)⟩
        intro hotherId
        have hsameSlot := wellKept.eq_of_taskId hother hslot (hotherId.trans hid.symm)
        rw [hsameSlot] at hlater
        obtain ⟨late, hlate, hlast⟩ := hlater token htoken
        have hagain := TaskQueue.leaseToken_injective (hnumber.symm.trans hlast)
        omega
  · exact .inr ⟨slot, hstays slot hslot hsame, hworkflow, hsince⟩

theorem failed {before : Store} {taskId token : Uuid} {reason : String} {delay : Span} {now : Instant}
    {tasks : TaskQueue} (attended : rules.Attended before ref bound)
    (wellKept : before.tasks.WellKept)
    (h : before.tasks.fail taskId token reason delay now = .ok tasks) :
    rules.Attended { before with tasks := tasks } ref bound := by
  obtain ⟨held, ⟨hheld, hid, htoken⟩, hslots, -⟩ := TaskQueue.fail_ok h
  intro record hfind hopen
  apply (attended record hfind hopen).imp_right
  rintro ⟨slot, hslot, hworkflow, hsince⟩
  by_cases hsame : slot.taskId = taskId
  · have heq := wellKept.eq_of_taskId hslot hheld (hsame.trans hid.symm)
    subst heq
    split at hslots
    · -- the task disappears because another one waits
      rename_i hcovered
      rw [TaskQueue.isCovered_eq] at hcovered
      cases hwork : slot.work with
      | activity work => simp [hwork, Work.isWorkflowOf] at hworkflow
      | workflow target workflowType =>
          have htarget : target = ref := by simpa [hwork, Work.isWorkflowOf] using hworkflow
          rw [hwork, htarget] at hcovered
          obtain ⟨other, hother, hpending⟩ := List.any_eq_true.1 hcovered
          simp only [TaskSlot.isPending, Bool.and_eq_true, Option.isNone_iff_eq_none] at hpending
          refine ⟨other, ?_, hpending.2, TaskSlot.isSince_of_free hpending.1 bound⟩
          rw [hslots]
          refine List.mem_filter.2 ⟨hother, ?_⟩
          have hne : other.taskId ≠ taskId := by
            intro hotherId
            have heq := wellKept.eq_of_taskId hother hslot (hotherId.trans hid.symm)
            rw [heq, htoken] at hpending
            cases hpending.1
          simpa using hne
    · refine ⟨{ slot with token := none }, ?_, hworkflow, TaskSlot.isSince_of_free rfl bound⟩
      rw [hslots]
      exact List.mem_map.2 ⟨slot, hslot, by simp [hsame]⟩
  · refine ⟨slot, ?_, hworkflow, hsince⟩
    rw [hslots]
    split
    · exact List.mem_filter.2 ⟨hslot, by simpa using hsame⟩
    · exact List.mem_map.2 ⟨slot, hslot, by simp [hsame]⟩

theorem claimed {before : Store} {request : PollRequest} {now : Instant} {tasks : TaskQueue}
    {task : LeasedTask} (attended : rules.Attended before ref bound)
    (hbound : bound ≤ before.tasks.granted)
    (h : before.tasks.claim request now = (tasks, .claimed task)) :
    rules.Attended { before with tasks := tasks } ref bound := by
  obtain ⟨-, htoken, hslots, -⟩ := TaskQueue.claim_claimed h
  intro record hfind hopen
  apply (attended record hfind hopen).imp_right
  rintro ⟨slot, hslot, hworkflow, hsince⟩
  by_cases hsame : slot.taskId = task.taskId
  · refine ⟨{ slot with token := some task.token }, ?_, hworkflow, ?_⟩
    · rw [hslots]
      exact List.mem_map.2 ⟨slot, hslot, by simp [hsame]⟩
    · intro token hheld
      cases hheld
      exact ⟨before.tasks.granted, hbound, htoken⟩
  · refine ⟨slot, ?_, hworkflow, hsince⟩
    rw [hslots]
    exact List.mem_map.2 ⟨slot, hslot, by simp [hsame]⟩

/-- A run that is attended to stays so. -/
theorem move {before after : Store} (attended : rules.Attended before ref bound)
    (lawful : rules.Lawful) (sane : Sane rules before) (hbound : bound ≤ before.tasks.granted)
    (move : Move rules fires before after) : rules.Attended after ref bound := by
  cases move with
  | still runs tasks timers issued =>
      intro record hfind hopen
      rw [runs] at hfind
      rw [tasks]
      exact attended record hfind hopen
  | created now fresh => exact attended.startRun fresh now
  | @committed target record run commit now found isOpen origin writes begins =>
      refine @Store.apply_induction (rules.Attended · ref bound) _ _ _ _ begins.1 begins.2 ?_ ?_ ?_
      · by_cases htarget : ref = target
        · subst htarget
          exact attended.revise_own lawful now found isOpen (sane.keeps ref record found) origin writes
        · exact attended.revise_other htarget commit now
      · exact fun middle new _ fresh held => held.startRun fresh now
      · exact fun middle notification _ held => held.notify notification now
  | claimed h => exact attended.claimed hbound h
  | extended h =>
      obtain ⟨hslots, -⟩ := TaskQueue.heartbeat_ok h
      intro record hfind hopen
      rw [hslots]
      exact attended record hfind hopen
  | failed h => exact attended.failed sane.tasks h
  | completed h done => exact attended.completed sane.tasks h done
  | popped now limit allowed => exact attended
  | rescheduled timer allowed => exact attended

end Rules.Attended

namespace Leads

variable {rules : Rules} {before after : Store}

theorem granted_le (leads : Leads rules before after) :
    before.tasks.granted ≤ after.tasks.granted :=
  TaskQueue.granted_le_of_steps leads.taskSteps

theorem attended (leads : Leads rules before after) (lawful : rules.Lawful)
    (sane : Sane rules before) {ref : RunRef} {bound : Nat} (hbound : bound ≤ before.tasks.granted)
    (attended : rules.Attended before ref bound) : rules.Attended after ref bound := by
  induction leads with
  | refl => exact attended
  | tail early move ih =>
      exact ih.move lawful (sane.leads lawful early)
        (Nat.le_trans hbound (Leads.granted_le early)) move

end Leads

end Chronicle
