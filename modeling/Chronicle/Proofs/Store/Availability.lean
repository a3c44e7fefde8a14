import Chronicle.Proofs.Store.Slumber
import Chronicle.Proofs.Time.Elapsing

/-!
# When tasks become available

A task that nobody holds waits for the end of a delay, and one that is held for the end of a lease.
The log of a queue tells which deed began either, and for how long.

A workflow task that its holder gives back with a delay waits for the end of the delay, whatever is
done to the queue, unless its run is woken or closed.  From then on nobody who asks for such a task
leaves with nothing.  Where another workflow task of the run waits already, it does for both.
-/

namespace Chronicle

namespace TaskQueue

/-- For how long the deed leases the task: it hands the task out, or is a heartbeat of its holder. -/
def Deed.lease? (deed : Deed) (taskId : Uuid) : Option Span :=
  match deed.act with
  | .claim request => if deed.handsOut taskId then some request.leaseDuration else none
  | .heartbeat id token extension =>
      match deed.before.held id token with
      | .ok _ => if id = taskId then some extension else none
      | .error _ => none
  | _ => none

/-- The deed lets the task wait for so long: it is enqueued, it is waiting and enqueued once more, or
its holder gives it back. -/
inductive Deed.Delays (deed : Deed) (record : TaskRecord) : Span → Prop where
  | enqueued (task : NewTask) (act : deed.act = .enqueue task)
      (enqueued : deed.enqueued? = some record.taskId) : Delays deed record task.delay
  | repeated (task : NewTask) (act : deed.act = .enqueue task) (covered : deed.enqueued? = none)
      (same : record.work.isWorkflowOf task.work.run = true) : Delays deed record task.delay
  | released (token : Uuid) (reason : String) (delay : Span)
      (act : deed.act = .fail record.taskId token reason delay)
      (released : deed.released? = some record.taskId) : Delays deed record delay

/-- What a deed has made of the times of a task that was there before. -/
structure Deed.Times (deed : Deed) (before after : TaskRecord) : Prop where
  taskId : after.taskId = before.taskId
  work : after.work = before.work
  leased : ∀ lease, after.lease = some lease →
    (∃ span, deed.lease? after.taskId = some span ∧ lease.expiresAt = deed.now.after span) ∨
    (deed.lease? after.taskId = none ∧
      ∃ earlier, before.lease = some earlier ∧ lease.expiresAt = earlier.expiresAt)
  waiting : after.lease = none →
    (∃ span, deed.Delays after span ∧ after.visibleAt = deed.now.after span) ∨
    (before.lease = none ∧ after.visibleAt = before.visibleAt)

variable {queue : TaskQueue} {record before : TaskRecord} {act : Act} {now : Instant}
  {deeds : List Deed}

/-- A task that the deed does not concern. -/
theorem Deed.Times.same {deed : Deed} {before after : TaskRecord}
    (htaskId : after.taskId = before.taskId) (hwork : after.work = before.work)
    (hlease : after.lease = before.lease) (hvisible : after.visibleAt = before.visibleAt)
    (hquiet : deed.lease? before.taskId = none) : deed.Times before after where
  taskId := htaskId
  work := hwork
  leased := fun lease hafter => .inr ⟨htaskId ▸ hquiet, lease, hlease ▸ hafter, rfl⟩
  waiting := fun hafter => .inr ⟨hlease ▸ hafter, hvisible⟩

theorem Deed.Times.refl {deed : Deed} (hquiet : deed.lease? record.taskId = none) :
    deed.Times record record := .same rfl rfl rfl rfl hquiet

theorem enqueue_times (task : NewTask)
    (h : record ∈ (queue.perform (.enqueue task) now).records) :
    (∃ before ∈ queue.records, (Deed.mk (.enqueue task) now queue).Times before record) ∨
      (record.lease = none ∧ record.visibleAt = now.after task.delay ∧
        (Deed.mk (.enqueue task) now queue).enqueued? = some record.taskId) := by
  unfold perform enqueue at h
  simp only at h
  split at h
  · rename_i hcovered
    have hnone : (Deed.mk (.enqueue task) now queue).enqueued? = none := by
      simp [Deed.enqueued?, enqueue, hcovered]
    rcases mem_modifyFirst h with hsame | ⟨before, hmem, hpending, rfl⟩
    · exact .inl ⟨record, hsame, .refl rfl⟩
    · left
      refine ⟨before, hmem, rfl, rfl, fun lease hlease => .inr ⟨rfl, lease, hlease, rfl⟩, ?_⟩
      intro hfree
      have hrepeated : (hasten (now.after task.delay) before).work.isWorkflowOf task.work.run =
          true := (Bool.and_eq_true _ _ ▸ hpending).2
      by_cases hsooner : now.after task.delay < before.visibleAt
      · exact .inl ⟨task.delay, .repeated task rfl hnone hrepeated, by simp [hasten, hsooner]⟩
      · exact .inr ⟨hfree, by simp [hasten, hsooner]⟩
  · rename_i hnew
    rcases List.mem_append.1 h with hold | hadded
    · exact .inl ⟨record, hold, .refl rfl⟩
    · rw [List.mem_singleton.1 hadded]
      exact .inr ⟨rfl, rfl, by simp [Deed.enqueued?, enqueue, hnew]⟩

theorem claim_times (request : PollRequest)
    (h : record ∈ (queue.perform (.claim request) now).records) :
    ∃ before ∈ queue.records, (Deed.mk (.claim request) now queue).Times before record := by
  rcases mem_perform_claim h with ⟨hmem, hhanded⟩ | ⟨found, -, before, hmem, hhanded, hchange⟩
  · exact ⟨record, hmem, .refl (by simp [Deed.lease?, Deed.handsOut, hhanded])⟩
  · refine ⟨before, hmem, ?_⟩
    by_cases hid : before.taskId = found.taskId
    · rw [if_pos hid] at hchange
      subst hchange
      refine ⟨rfl, rfl, ?_, by simp⟩
      rintro lease ⟨⟩
      exact .inl ⟨request.leaseDuration, by simp [Deed.lease?, Deed.handsOut, hhanded, hid], rfl⟩
    · rw [if_neg hid] at hchange
      subst hchange
      exact .refl (by simpa [Deed.lease?, Deed.handsOut, hhanded] using fun heq => hid heq.symm)

theorem fail_times (taskId token : Uuid) (reason : String) (delay : Span)
    (h : record ∈ (queue.perform (.fail taskId token reason delay) now).records) :
    ∃ before ∈ queue.records,
      (Deed.mk (.fail taskId token reason delay) now queue).Times before record := by
  cases hheld : queue.held taskId token with
  | error error =>
      simp only [perform, fail, hheld] at h
      exact ⟨record, h, .refl rfl⟩
  | ok found =>
      obtain ⟨before, hbefore, hchange⟩ := mem_perform_fail hheld h
      refine ⟨before, hbefore, ?_⟩
      by_cases hid : before.taskId = taskId
      · rw [if_pos hid] at hchange
        subst hchange hid
        refine ⟨rfl, rfl, by simp, fun _ => .inl ⟨delay, ?_, rfl⟩⟩
        exact .released token reason delay rfl (by simp [Deed.released?, hheld])
      · rw [if_neg hid] at hchange
        subst hchange
        exact .refl rfl

theorem heartbeat_times (taskId token : Uuid) (extension : Span)
    (h : record ∈ (queue.perform (.heartbeat taskId token extension) now).records) :
    ∃ before ∈ queue.records,
      (Deed.mk (.heartbeat taskId token extension) now queue).Times before record := by
  cases hheld : queue.held taskId token with
  | error error =>
      simp only [perform, heartbeat, hheld] at h
      exact ⟨record, h, .refl (by simp [Deed.lease?, hheld])⟩
  | ok found =>
      simp only [perform, heartbeat, hheld] at h
      obtain ⟨before, hbefore, hchange⟩ := mem_modify h
      refine ⟨before, hbefore, ?_⟩
      by_cases hid : before.taskId = taskId
      · rw [if_pos hid] at hchange
        subst hchange
        refine ⟨rfl, rfl, ?_, ?_⟩
        · intro lease hlease
          obtain ⟨earlier, -, rfl⟩ := Option.map_eq_some_iff.1 hlease
          exact .inl ⟨extension, by simp [Deed.lease?, hheld, hid], rfl⟩
        · exact fun hfree => .inr ⟨Option.map_eq_none_iff.1 hfree, rfl⟩
      · rw [if_neg hid] at hchange
        subst hchange
        exact .refl (by simpa [Deed.lease?, hheld] using fun heq => hid heq.symm)

theorem withdraw_times {selected : Work → Bool} {deed : Deed}
    (hquiet : ∀ taskId, deed.lease? taskId = none)
    (h : record ∈ (queue.withdraw selected).records) :
    ∃ before ∈ queue.records, deed.Times before record := by
  obtain ⟨before, hmem, hchange⟩ := List.mem_filterMap.1 h
  refine ⟨before, hmem, ?_⟩
  split at hchange
  · split at hchange
    · cases hchange
    · cases hchange
      exact .same rfl rfl rfl rfl (hquiet _)
  · cases hchange
    exact .refl (hquiet _)

/-- Every record after an act has the times that it had before, or those that the act gives it. -/
theorem perform_times (h : record ∈ (queue.perform act now).records) :
    (∃ before ∈ queue.records, (Deed.mk act now queue).Times before record) ∨
      (record.lease = none ∧ ∃ span, (Deed.mk act now queue).Delays record span ∧
        record.visibleAt = now.after span) := by
  cases act with
  | enqueue task =>
      exact (enqueue_times task h).imp_right fun ⟨hfree, hvisible, henqueued⟩ =>
        ⟨hfree, task.delay, .enqueued task rfl henqueued, hvisible⟩
  | claim request => exact .inl (claim_times request h)
  | complete taskId token => exact .inl ⟨record, mem_of_mem_perform_complete h, .refl rfl⟩
  | fail taskId token reason delay => exact .inl (fail_times taskId token reason delay h)
  | heartbeat taskId token extension => exact .inl (heartbeat_times taskId token extension h)
  | cancelActivity run activityId => exact .inl (withdraw_times (fun _ => rfl) h)
  | purge run => exact .inl (withdraw_times (fun _ => rfl) h)

/-- The lease of the task is that of the last deed that leased it; without a lease it waits for what
some deed says. -/
inductive TimedBy (deeds : List Deed) (record : TaskRecord) : Prop where
  | leased {early late : List Deed} {deed : Deed} {lease : Lease} {span : Span}
      (held : record.lease = some lease) (split : deeds = early ++ deed :: late)
      (leases : deed.lease? record.taskId = some span)
      (expires : lease.expiresAt = deed.now.after span)
      (last : ∀ later ∈ late, later.lease? record.taskId = none) : TimedBy deeds record
  | waiting {deed : Deed} {span : Span} (free : record.lease = none) (mem : deed ∈ deeds)
      (delays : deed.Delays record span) (visible : record.visibleAt = deed.now.after span) :
      TimedBy deeds record

theorem Deed.Delays.of_same {deed : Deed} {before after : TaskRecord} {span : Span}
    (delays : deed.Delays before span) (htaskId : after.taskId = before.taskId)
    (hwork : after.work = before.work) : deed.Delays after span := by
  cases delays with
  | enqueued task act enqueued => exact .enqueued task act (htaskId ▸ enqueued)
  | repeated task act covered same => exact .repeated task act covered (hwork ▸ same)
  | released token reason delay act released =>
      exact .released token reason span (htaskId ▸ act) (htaskId ▸ released)

theorem TimedBy.step {deed : Deed} (timed : TimedBy deeds before) (times : deed.Times before record) :
    TimedBy (deeds ++ [deed]) record := by
  cases hlease : record.lease with
  | some lease =>
      rcases times.leased lease hlease with ⟨span, hleases, hexpires⟩ | ⟨hquiet, earlier, hbefore, hsame⟩
      · exact .leased hlease rfl hleases hexpires fun later hnone => nomatch hnone
      · cases timed with
        | @leased early late other held span hheld split leases expires last =>
            obtain rfl : held = earlier := Option.some.inj (hheld.symm.trans hbefore)
            rw [← times.taskId] at leases last
            refine @TimedBy.leased _ _ early (late ++ [deed]) other lease span hlease (by simp [split])
              leases (hsame.trans expires) ?_
            intro later hmem
            rcases List.mem_append.1 hmem with hold | hnew
            · exact last later hold
            · rwa [List.mem_singleton.1 hnew]
        | waiting free => rw [free] at hbefore; cases hbefore
  | none =>
      rcases times.waiting hlease with ⟨span, delays, hvisible⟩ | ⟨hbefore, hsame⟩
      · exact .waiting hlease (List.mem_append_right _ List.mem_cons_self) delays hvisible
      · cases timed with
        | leased held => rw [hbefore] at held; cases held
        | waiting free mem delays visible =>
            exact .waiting hlease (List.mem_append_left _ mem)
              (delays.of_same times.taskId times.work) (hsame.trans visible)

/-- The log tells what every task waits for. -/
theorem Log.timed (log : Log deeds queue) : ∀ record ∈ queue.records, TimedBy deeds record := by
  induction log with
  | start => exact fun record hnone => nomatch hnone
  | @deed deeds queue earlier act now ih =>
      intro record hmem
      rcases perform_times hmem with
        ⟨before, hbefore, times⟩ | ⟨hfree, span, delays, hvisible⟩
      · exact (ih before hbefore).step times
      · exact .waiting hfree (List.mem_append_right _ List.mem_cons_self) delays hvisible

end TaskQueue

/-! ## Tasks that were given back -/

/-- The task is given back, and waits for the instant. -/
def TaskRecord.released (record : TaskRecord) (reason : String) (due : Instant) : TaskRecord :=
  { record with lease := none, visibleAt := due, lastError := some reason }

namespace TaskQueue

/-- The act enqueues a workflow task of the run, or closes the run. -/
def Act.rouses (run : RunRef) : Act → Bool
  | .enqueue task => task.work.isWorkflowOf run
  | .purge target => target = run
  | _ => false

/-- The acts neither rouse the run nor hand out the task. -/
def Spares (queue : TaskQueue) (run : RunRef) (taskId : Uuid) (acts : List (Act × Instant)) : Prop :=
  ∀ deed ∈ queue.deedsOf acts, deed.act.rouses run = false ∧ deed.handsOut taskId = false

/-- The task waits for the instant; from then on nobody who asks for such a task gets nothing. -/
structure Waits (queue : TaskQueue) (task : TaskRecord) (due : Instant) : Prop where
  mem : task ∈ queue.records
  free : task.lease = none
  notBefore : ∀ request now after claimed, queue.claim request now = (after, .claimed claimed) →
    claimed.taskId = task.taskId → due ≤ now
  fromThen : ∀ request now, task.matchesRequest request = true → due ≤ now →
    ∃ after claimed, queue.claim request now = (after, .claimed claimed)

variable {queue : TaskQueue} {task : TaskRecord} {run : RunRef} {now : Instant}

theorem mem_modifyFirst_of_not {condition : TaskRecord → Bool} {change : TaskRecord → TaskRecord}
    {records : List TaskRecord} (hmem : task ∈ records) (hnot : condition task = false) :
    task ∈ modifyFirst condition change records := by
  induction records with
  | nil => cases hmem
  | cons record rest ih =>
      unfold modifyFirst
      split
      · rename_i hcondition
        rcases List.mem_cons.1 hmem with rfl | hlater
        · rw [hnot] at hcondition
          cases hcondition
        · exact List.mem_cons_of_mem _ hlater
      · rcases List.mem_cons.1 hmem with rfl | hlater
        · exact List.mem_cons_self
        · exact List.mem_cons_of_mem _ (ih hlater)

theorem mem_modify_of_ne {id : Uuid} {change : TaskRecord → TaskRecord}
    (hmem : task ∈ queue.records) (hne : task.taskId ≠ id) :
    task ∈ (queue.modify id change).records :=
  List.mem_map.2 ⟨task, hmem, if_neg hne⟩

theorem mem_remove_of_ne {id : Uuid} (hmem : task ∈ queue.records) (hne : task.taskId ≠ id) :
    task ∈ (queue.remove id).records :=
  List.mem_filter.2 ⟨hmem, by simpa using hne⟩

theorem mem_withdraw_of_not {selected : Work → Bool} (hmem : task ∈ queue.records)
    (hnot : selected task.work = false) : task ∈ (queue.withdraw selected).records :=
  List.mem_filterMap.2 ⟨task, hmem, by simp [hnot]⟩

/-- Nobody holds the task under any token. -/
theorem WellKept.ne_of_held (wellKept : queue.WellKept) (hmem : task ∈ queue.records)
    (hfree : task.lease = none) {taskId token : Uuid} {held : TaskRecord}
    (hheld : queue.held taskId token = .ok held) : task.taskId ≠ taskId := by
  intro hid
  obtain ⟨hthere, hsame, htoken⟩ := mem_of_held hheld
  rw [wellKept.eq_of_id hthere hmem (hsame.trans hid.symm), hfree] at htoken
  cases htoken

theorem mem_enqueue_of_other (hmem : task ∈ queue.records) (hwork : task.work.isWorkflowOf run = true)
    {new : NewTask} (hother : new.work.isWorkflowOf run = false) :
    task ∈ (queue.enqueue new now).1.records := by
  unfold enqueue
  simp only
  split
  · apply mem_modifyFirst_of_not hmem
    cases hnew : new.work with
    | workflow target workflowType =>
        cases htask : task.work with
        | activity work => simp [htask, Work.isWorkflowOf] at hwork
        | workflow owner ownType =>
            simp only [htask, hnew, Work.isWorkflowOf, decide_eq_true_eq,
              decide_eq_false_iff_not] at hwork hother
            subst hwork
            simp [TaskRecord.isPendingWorkflowOf, htask, Work.isWorkflowOf, Work.run,
              Ne.symm hother]
    | activity work =>
        rename_i hcovered
        simp [isCovered, hnew] at hcovered
  · exact List.mem_append_left _ hmem

theorem mem_claim_of_other (hmem : task ∈ queue.records) {request : PollRequest}
    (hkept : (Deed.mk (.claim request) now queue).handsOut task.taskId = false) :
    task ∈ (queue.claim request now).1.records := by
  cases hclaim : queue.claim request now with
  | mk after claim =>
      cases claim with
      | nothing next =>
          rw [claim_nothing hclaim]
          exact hmem
      | claimed claimed =>
          have hne : claimed.taskId ≠ task.taskId := by
            simpa [Deed.handsOut, Deed.handedOut?, hclaim] using hkept
          unfold claim at hclaim
          simp only at hclaim
          split at hclaim
          · cases hclaim
          · cases hclaim
            exact mem_modify_of_ne hmem (Ne.symm hne)

/-- A task that waits is not touched by what is done to others. -/
theorem mem_perform (wellKept : queue.WellKept) (hmem : task ∈ queue.records)
    (hfree : task.lease = none) (hwork : task.work.isWorkflowOf run = true) {act : Act}
    (hquiet : act.rouses run = false)
    (hkept : (Deed.mk act now queue).handsOut task.taskId = false) :
    task ∈ (queue.perform act now).records := by
  cases act with
  | enqueue new => exact mem_enqueue_of_other hmem hwork hquiet
  | claim request => exact mem_claim_of_other hmem hkept
  | complete taskId token =>
      cases hheld : queue.held taskId token with
      | error error => simpa only [perform, complete, hheld] using hmem
      | ok held =>
          simp only [perform, complete, hheld]
          exact mem_remove_of_ne hmem (wellKept.ne_of_held hmem hfree hheld)
  | fail taskId token reason delay =>
      cases hheld : queue.held taskId token with
      | error error => simpa only [perform, fail, hheld] using hmem
      | ok held =>
          have hne := wellKept.ne_of_held hmem hfree hheld
          simp only [perform, fail, hheld]
          by_cases hcovered : queue.isCovered held.work = true
          · simp only [hcovered, if_true]
            exact mem_remove_of_ne (mem_modify_of_ne hmem hne) hne
          · simp only [hcovered]
            exact mem_modify_of_ne hmem hne
  | heartbeat taskId token extension =>
      cases hheld : queue.held taskId token with
      | error error => simpa only [perform, heartbeat, hheld] using hmem
      | ok held =>
          simp only [perform, heartbeat, hheld]
          exact mem_modify_of_ne hmem (wellKept.ne_of_held hmem hfree hheld)
  | cancelActivity target activityId =>
      apply mem_withdraw_of_not hmem
      cases htask : task.work with
      | workflow owner ownType => rfl
      | activity work => simp [htask, Work.isWorkflowOf] at hwork
  | purge target =>
      apply mem_withdraw_of_not hmem
      cases htask : task.work with
      | activity work => simp [htask, Work.isWorkflowOf] at hwork
      | workflow owner ownType =>
          simp only [htask, Work.isWorkflowOf, decide_eq_true_eq] at hwork
          simp only [Act.rouses, decide_eq_false_iff_not] at hquiet
          simp [Work.run, hwork, Ne.symm hquiet]

theorem mem_performAll (wellKept : queue.WellKept) (hmem : task ∈ queue.records)
    (hfree : task.lease = none) (hwork : task.work.isWorkflowOf run = true)
    {acts : List (Act × Instant)} (spares : queue.Spares run task.taskId acts) :
    task ∈ (queue.performAll acts).records := by
  induction acts generalizing queue with
  | nil => exact hmem
  | cons act rest ih =>
      obtain ⟨hquiet, hkept⟩ := spares ⟨act.1, act.2, queue⟩ List.mem_cons_self
      exact ih (wellKept.steps (perform_step queue act.1 act.2))
        (mem_perform wellKept hmem hfree hwork hquiet hkept)
        fun deed hdeed => spares deed (List.mem_cons_of_mem _ hdeed)

theorem waits_of_mem (wellKept : queue.WellKept) (hmem : task ∈ queue.records)
    (hfree : task.lease = none) : queue.Waits task task.visibleAt where
  mem := hmem
  free := hfree
  notBefore := by
    intro request time after claimed hclaim hid
    obtain ⟨record, hthere, hsame, -, havailable⟩ := exists_of_claim hclaim
    rw [wellKept.eq_of_id hthere hmem (hsame.symm.trans hid)] at havailable
    simpa [TaskRecord.Available, hfree] using havailable
  fromThen := by
    intro request time hmatches hdue
    cases hclaim : queue.claim request time with
    | mk after claim =>
        cases claim with
        | claimed claimed => exact ⟨after, claimed, rfl⟩
        | nothing next =>
            refine absurd ?_ ((isNext_of_nothing hclaim).1 task hmem hmatches)
            simpa [TaskRecord.Available, hfree] using hdue

/-! ## Giving back -/

variable {taskId token : Uuid} {reason : String} {delay : Span} {after : TaskQueue}
  {deeds : List Deed}

theorem mem_fail (hheld : queue.held taskId token = .ok task)
    (halone : queue.isCovered task.work = false)
    (hfail : queue.fail taskId token reason delay now = .ok after) :
    task.released reason (now.after delay) ∈ after.records := by
  obtain ⟨hmem, hid, -⟩ := mem_of_held hheld
  simp only [fail, hheld, halone] at hfail
  cases hfail
  exact List.mem_map.2 ⟨task, hmem, if_pos hid⟩

/-- Nothing is done for the run meanwhile, and the task is handed out to nobody before its time. -/
theorem Log.waits (log : Log deeds queue) (hheld : queue.held taskId token = .ok task)
    (hwork : task.work.isWorkflowOf run = true) (halone : queue.isCovered task.work = false)
    (hfail : queue.fail taskId token reason delay now = .ok after) {acts : List (Act × Instant)}
    (spares : after.Spares run taskId acts) :
    (after.performAll acts).Waits (task.released reason (now.after delay)) (now.after delay) := by
  have hafter : after = queue.perform (.fail taskId token reason delay) now := by
    simp only [perform, hfail]
  have failed : Log _ after := hafter ▸ log.deed (.fail taskId token reason delay) now
  obtain ⟨-, rfl, -⟩ := mem_of_held hheld
  have hmem := mem_performAll failed.accounts.wellKept (mem_fail hheld halone hfail) rfl hwork spares
  exact waits_of_mem (failed.performAll acts).accounts.wellKept hmem rfl

/-- A workflow task of the run that waits already stays, and the other one goes. -/
theorem exists_of_fail (wellKept : queue.WellKept) (hheld : queue.held taskId token = .ok task)
    (hwork : task.work.isWorkflowOf run = true) (hcovered : queue.isCovered task.work = true)
    (hfail : queue.fail taskId token reason delay now = .ok after) :
    ∃ other ∈ after.records, other.isPendingWorkflowOf run = true := by
  obtain ⟨other, hmem, hpending⟩ : ∃ other ∈ queue.records, other.isPendingWorkflowOf run = true := by
    cases htask : task.work with
    | activity work => simp [htask, Work.isWorkflowOf] at hwork
    | workflow owner ownType =>
        simp only [htask, Work.isWorkflowOf, decide_eq_true_eq] at hwork
        subst hwork
        simpa [isCovered, htask] using hcovered
  have hfree : other.lease = none :=
    Option.isNone_iff_eq_none.1 ((Bool.and_eq_true _ _).mp hpending).1
  have hne := wellKept.ne_of_held hmem hfree hheld
  simp only [fail, hheld, hcovered, if_true] at hfail
  cases hfail
  exact ⟨other, mem_remove_of_ne (mem_modify_of_ne hmem hne) hne, hpending⟩

end TaskQueue

end Chronicle
