import Mathlib.Data.List.Range
import Chronicle.Proofs.Store.Tasks

/-!
# What is done to the task queue

The task queue changes by seven acts.  A log of acts tells for each task when it was enqueued, to
whom it was handed out and who was asked to cancel; the queue itself keeps only the latest of
that.  This module says what a single act does to the record of a task.
-/

namespace Chronicle

namespace TaskQueue

inductive Act where
  | enqueue (task : NewTask)
  | claim (request : PollRequest)
  | complete (taskId token : Uuid)
  | fail (taskId token : Uuid) (reason : String) (delay : Span)
  | heartbeat (taskId token : Uuid) (extension : Span)
  | cancelActivity (run : RunRef) (activityId : String)
  /-- The run is closed. -/
  | purge (run : RunRef)

/-- An act that is refused changes nothing. -/
def perform (queue : TaskQueue) (act : Act) (now : Instant) : TaskQueue :=
  match act with
  | .enqueue task => (queue.enqueue task now).1
  | .claim request => (queue.claim request now).1
  | .complete taskId token =>
      match queue.complete taskId token with
      | .ok after => after
      | .error _ => queue
  | .fail taskId token reason delay =>
      match queue.fail taskId token reason delay now with
      | .ok after => after
      | .error _ => queue
  | .heartbeat taskId token extension =>
      match queue.heartbeat taskId token extension now with
      | .ok (after, _) => after
      | .error _ => queue
  | .cancelActivity run activityId => queue.cancelActivity run activityId
  | .purge run => queue.purge run

/-- The work that the act takes back. -/
def Act.withdraws : Act → Work → Bool
  | .cancelActivity run activityId => fun work => work.isActivityOf run activityId
  | .purge run => fun work => work.run = run
  | _ => fun _ => false

/-- An act at its time, with the queue that it found. -/
structure Deed where
  act : Act
  now : Instant
  before : TaskQueue

namespace Deed

def after (deed : Deed) : TaskQueue := deed.before.perform deed.act deed.now

def enqueued? (deed : Deed) : Option Uuid :=
  match deed.act with
  | .enqueue task => (deed.before.enqueue task deed.now).2
  | _ => none

def handedOut? (deed : Deed) : Option LeasedTask :=
  match deed.act with
  | .claim request =>
      match (deed.before.claim request deed.now).2 with
      | .claimed task => some task
      | .nothing _ => none
  | _ => none

/-- Id of the task that its holder gave back. -/
def released? (deed : Deed) : Option Uuid :=
  match deed.act with
  | .fail taskId token _ _ =>
      match deed.before.held taskId token with
      | .ok _ => some taskId
      | .error _ => none
  | _ => none

/-- The holder of the task is asked to cancel. -/
def flags (deed : Deed) (taskId : Uuid) : Bool :=
  deed.before.records.any fun record =>
    record.taskId = taskId && record.lease.isSome && deed.act.withdraws record.work

/-- Token under which the task is held after the deed. -/
def transfer (taskId : Uuid) (token : Option Uuid) (deed : Deed) : Option Uuid :=
  match deed.handedOut? with
  | some task => if task.taskId = taskId then some task.token else token
  | none => if deed.released? = some taskId then none else token

def handsOut (deed : Deed) (taskId : Uuid) : Bool :=
  deed.handedOut?.any fun task => task.taskId = taskId

end Deed

/-- Acts that were performed one after the other on what was at first an empty queue. -/
inductive Log : List Deed → TaskQueue → Prop where
  | start : Log [] .empty
  | deed {deeds : List Deed} {queue : TaskQueue} (earlier : Log deeds queue) (act : Act)
      (now : Instant) : Log (deeds ++ [⟨act, now, queue⟩]) (queue.perform act now)

/-! ## The records after an act -/

/-- What an act has made of a task that was there before. -/
structure Follows (deed : Deed) (before after : TaskRecord) : Prop where
  taskId : after.taskId = before.taskId
  token : after.lease.map Lease.token =
    deed.transfer before.taskId (before.lease.map Lease.token)
  deliveryCount : after.deliveryCount =
    before.deliveryCount + if deed.handsOut before.taskId then 1 else 0
  cancelRequested : after.cancelRequested = (before.cancelRequested || deed.flags before.taskId)

variable {queue : TaskQueue} {record : TaskRecord} {act : Act} {now : Instant}

theorem WellKept.eq_of_id (wellKept : queue.WellKept) {first second : TaskRecord}
    (hfirst : first ∈ queue.records) (hsecond : second ∈ queue.records)
    (h : first.taskId = second.taskId) : first = second := by
  have hdistinct := wellKept.distinct
  rw [slots, List.map_map] at hdistinct
  exact List.inj_on_of_nodup_map hdistinct hfirst hsecond h

theorem mem_modifyFirst {condition : TaskRecord → Bool} {change : TaskRecord → TaskRecord}
    {records : List TaskRecord} (h : record ∈ modifyFirst condition change records) :
    record ∈ records ∨ ∃ before ∈ records, condition before = true ∧ record = change before := by
  induction records with
  | nil => cases h
  | cons first rest ih =>
      unfold modifyFirst at h
      split at h
      · rename_i hfirst
        rcases List.mem_cons.1 h with rfl | hrest
        · exact .inr ⟨first, List.mem_cons_self, hfirst, rfl⟩
        · exact .inl (List.mem_cons_of_mem _ hrest)
      · rcases List.mem_cons.1 h with rfl | hrest
        · exact .inl List.mem_cons_self
        · rcases ih hrest with hsame | ⟨before, hmem, hchange⟩
          · exact .inl (List.mem_cons_of_mem _ hsame)
          · exact .inr ⟨before, List.mem_cons_of_mem _ hmem, hchange⟩

theorem mem_modify {id : Uuid} {change : TaskRecord → TaskRecord}
    (h : record ∈ (queue.modify id change).records) :
    ∃ before ∈ queue.records,
      record = if before.taskId = id then change before else before := by
  obtain ⟨before, hmem, hchange⟩ := List.mem_map.1 h
  exact ⟨before, hmem, hchange.symm⟩

theorem mem_perform_claim {request : PollRequest}
    (h : record ∈ (queue.perform (.claim request) now).records) :
    (record ∈ queue.records ∧ (Deed.mk (.claim request) now queue).handedOut? = none) ∨
    ∃ found ∈ queue.records, ∃ before ∈ queue.records,
      (Deed.mk (.claim request) now queue).handedOut? = some ⟨found.taskId,
        leaseToken queue.granted, found.taskQueue, found.work, found.deliveryCount + 1,
        now.after request.leaseDuration⟩ ∧
      record = if before.taskId = found.taskId then
        { before with
          lease := some ⟨leaseToken queue.granted, request.workerId,
            now.after request.leaseDuration⟩
          deliveryCount := found.deliveryCount + 1 } else before := by
  unfold perform claim at h
  simp only at h
  split at h
  · rename_i hnone
    exact .inl ⟨h, by simp [Deed.handedOut?, claim, hnone]⟩
  · rename_i found hfound
    obtain ⟨before, hmem, hchange⟩ := mem_modify h
    refine .inr ⟨found, List.mem_of_mem_filter (List.mem_of_find?_eq_some hfound), before, hmem, ?_,
      hchange⟩
    simp [Deed.handedOut?, claim, hfound]

theorem mem_of_mem_perform_complete {taskId token : Uuid}
    (h : record ∈ (queue.perform (.complete taskId token) now).records) :
    record ∈ queue.records := by
  cases hheld : queue.held taskId token with
  | error error => simpa only [perform, complete, hheld] using h
  | ok found =>
      simp only [perform, complete, hheld] at h
      exact List.mem_of_mem_filter h

theorem mem_perform_fail {taskId token : Uuid} {reason : String} {delay : Span}
    {found : TaskRecord} (hheld : queue.held taskId token = .ok found)
    (h : record ∈ (queue.perform (.fail taskId token reason delay) now).records) :
    ∃ before ∈ queue.records, record = if before.taskId = taskId then
      { before with lease := none, visibleAt := now.after delay, lastError := some reason }
      else before := by
  apply mem_modify
  cases hcovered : queue.isCovered found.work with
  | true =>
      simp only [perform, fail, hheld, hcovered, if_true] at h
      exact List.mem_of_mem_filter h
  | false => simpa only [perform, fail, hheld, hcovered, Bool.false_eq_true, if_false] using h

/-- An act that takes nothing back asks nobody to cancel. -/
theorem Deed.flags_eq_false {deed : Deed} (h : ∀ work, deed.act.withdraws work = false)
    (taskId : Uuid) : deed.flags taskId = false := by
  simp [flags, h]

theorem Deed.transfer_eq_of_other {deed : Deed} {taskId : Uuid}
    (hhanded : deed.handsOut taskId = false) (hreleased : deed.released? ≠ some taskId)
    (token : Option Uuid) : deed.transfer taskId token = token := by
  unfold transfer
  unfold handsOut at hhanded
  cases htask : deed.handedOut? with
  | none => simp [hreleased]
  | some task =>
      have hother : task.taskId ≠ taskId := by simpa [htask] using hhanded
      simp [hother]

/-- A task that the act does not concern. -/
theorem Follows.same {deed : Deed} {before after : TaskRecord}
    (htaskId : after.taskId = before.taskId)
    (htoken : after.lease.map Lease.token = before.lease.map Lease.token)
    (hcount : after.deliveryCount = before.deliveryCount)
    (hcancel : after.cancelRequested = before.cancelRequested)
    (hwithdraws : ∀ work, deed.act.withdraws work = false)
    (hhanded : deed.handsOut before.taskId = false)
    (hreleased : deed.released? ≠ some before.taskId) : Follows deed before after where
  taskId := htaskId
  token := by rw [htoken, Deed.transfer_eq_of_other hhanded hreleased]
  deliveryCount := by simp [hcount, hhanded]
  cancelRequested := by rw [hcancel, Deed.flags_eq_false hwithdraws, Bool.or_false]

theorem held_error {taskId token : Uuid} {error : StoreError}
    (h : queue.held taskId token = .error error) :
    queue.complete taskId token = .error error ∧
    (∀ reason delay now, queue.fail taskId token reason delay now = .error error) ∧
    ∀ extension now, queue.heartbeat taskId token extension now = .error error := by
  refine ⟨?_, ?_, ?_⟩
  · simp [complete, h]
  · intro reason delay now
    simp [fail, h]
  · intro extension now
    simp [heartbeat, h]

theorem perform_enqueue (task : NewTask)
    (h : record ∈ (queue.perform (.enqueue task) now).records) :
    (∃ before ∈ queue.records, Follows ⟨.enqueue task, now, queue⟩ before record) ∨
    (record.taskId = taskId queue.issued ∧ record.lease = none ∧ record.deliveryCount = 0 ∧
      record.cancelRequested = false) := by
  have hsame : ∀ before after : TaskRecord, after.taskId = before.taskId →
      after.lease = before.lease → after.deliveryCount = before.deliveryCount →
      after.cancelRequested = before.cancelRequested →
      Follows ⟨.enqueue task, now, queue⟩ before after := by
    intro before after htaskId hlease hcount hcancel
    exact .same htaskId (by rw [hlease]) hcount hcancel (fun _ => rfl) rfl
      (by simp [Deed.released?])
  unfold perform enqueue at h
  simp only at h
  split at h
  · rcases mem_modifyFirst h with hmem | ⟨before, hmem, -, rfl⟩
    · exact .inl ⟨record, hmem, hsame _ _ rfl rfl rfl rfl⟩
    · exact .inl ⟨before, hmem, hsame _ _ rfl rfl rfl rfl⟩
  · rcases List.mem_append.1 h with hold | hnew
    · exact .inl ⟨record, hold, hsame _ _ rfl rfl rfl rfl⟩
    · rw [List.mem_singleton.1 hnew]
      exact .inr ⟨rfl, rfl, rfl, rfl⟩

theorem perform_claim (wellKept : queue.WellKept) (request : PollRequest)
    (h : record ∈ (queue.perform (.claim request) now).records) :
    ∃ before ∈ queue.records, Follows ⟨.claim request, now, queue⟩ before record := by
  rcases mem_perform_claim h with ⟨hmem, hhanded⟩ | ⟨found, hfound, before, hmem, hhanded, hchange⟩
  · exact ⟨record, hmem, .same rfl rfl rfl rfl (fun _ => rfl) (by simp [Deed.handsOut, hhanded])
      (by simp [Deed.released?])⟩
  · refine ⟨before, hmem, ?_⟩
    by_cases hid : before.taskId = found.taskId
    · obtain rfl := wellKept.eq_of_id hmem hfound hid
      rw [if_pos rfl] at hchange
      subst hchange
      constructor
      · rfl
      · simp [Deed.transfer, hhanded]
      · simp [Deed.handsOut, hhanded]
      · simp [Deed.flags, Act.withdraws]
    · rw [if_neg hid] at hchange
      subst hchange
      exact .same rfl rfl rfl rfl (fun _ => rfl)
        (by simpa [Deed.handsOut, hhanded] using fun heq => hid heq.symm) (by simp [Deed.released?])

theorem perform_complete (taskId token : Uuid)
    (h : record ∈ (queue.perform (.complete taskId token) now).records) :
    ∃ before ∈ queue.records, Follows ⟨.complete taskId token, now, queue⟩ before record :=
  ⟨record, mem_of_mem_perform_complete h,
    .same rfl rfl rfl rfl (fun _ => rfl) rfl (by simp [Deed.released?])⟩

theorem perform_fail (taskId token : Uuid) (reason : String) (delay : Span)
    (h : record ∈ (queue.perform (.fail taskId token reason delay) now).records) :
    ∃ before ∈ queue.records,
      Follows ⟨.fail taskId token reason delay, now, queue⟩ before record := by
  cases hheld : queue.held taskId token with
  | error error =>
      simp only [perform, fail, hheld] at h
      exact ⟨record, h, .same rfl rfl rfl rfl (fun _ => rfl) rfl (by simp [Deed.released?, hheld])⟩
  | ok found =>
      obtain ⟨before, hbefore, hchange⟩ := mem_perform_fail hheld h
      refine ⟨before, hbefore, ?_⟩
      by_cases hid : before.taskId = taskId
      · rw [if_pos hid] at hchange
        subst hchange
        constructor
        · rfl
        · simp [Deed.transfer, Deed.handedOut?, Deed.released?, hheld, hid]
        · simp [Deed.handsOut, Deed.handedOut?]
        · simp [Deed.flags, Act.withdraws]
      · rw [if_neg hid] at hchange
        subst hchange
        exact .same rfl rfl rfl rfl (fun _ => rfl) rfl
          (by simpa [Deed.released?, hheld] using fun heq => hid heq.symm)

theorem perform_heartbeat (taskId token : Uuid) (extension : Span)
    (h : record ∈ (queue.perform (.heartbeat taskId token extension) now).records) :
    ∃ before ∈ queue.records,
      Follows ⟨.heartbeat taskId token extension, now, queue⟩ before record := by
  have hsame : ∀ before after : TaskRecord, after.taskId = before.taskId →
      after.lease.map Lease.token = before.lease.map Lease.token →
      after.deliveryCount = before.deliveryCount →
      after.cancelRequested = before.cancelRequested →
      Follows ⟨.heartbeat taskId token extension, now, queue⟩ before after := by
    intro before after htaskId htoken hcount hcancel
    exact .same htaskId htoken hcount hcancel (fun _ => rfl) rfl (by simp [Deed.released?])
  cases hheld : queue.held taskId token with
  | error error =>
      simp only [perform, heartbeat, hheld] at h
      exact ⟨record, h, hsame _ _ rfl rfl rfl rfl⟩
  | ok found =>
      simp only [perform, heartbeat, hheld] at h
      obtain ⟨before, hbefore, hchange⟩ := mem_modify h
      refine ⟨before, hbefore, ?_⟩
      split at hchange
      · subst hchange
        apply hsame
        · rfl
        · cases before.lease <;> simp
        · rfl
        · rfl
      · subst hchange
        exact hsame _ _ rfl rfl rfl rfl

theorem withdraw_follows (wellKept : queue.WellKept)
    (hhanded : (Deed.mk act now queue).handedOut? = none)
    (hreleased : (Deed.mk act now queue).released? = none)
    (h : record ∈ (queue.withdraw act.withdraws).records) :
    ∃ before ∈ queue.records, Follows ⟨act, now, queue⟩ before record := by
  obtain ⟨before, hmem, hchange⟩ := List.mem_filterMap.1 h
  -- the record is the only one with its id
  have hflags : (Deed.mk act now queue).flags before.taskId =
      (before.lease.isSome && act.withdraws before.work) := by
    rw [Bool.eq_iff_iff, Deed.flags, List.any_eq_true]
    constructor
    · rintro ⟨other, hother, hselected⟩
      simp only [Bool.and_eq_true, decide_eq_true_eq] at hselected
      obtain ⟨⟨hid, hlease⟩, hwithdraws⟩ := hselected
      rw [← wellKept.eq_of_id hother hmem hid, hlease, hwithdraws]
      rfl
    · intro hselected
      refine ⟨before, hmem, ?_⟩
      simpa using hselected
  have htransfer : ∀ token, (Deed.mk act now queue).transfer before.taskId token = token := by
    simp [Deed.transfer, hhanded, hreleased]
  have hhands : (Deed.mk act now queue).handsOut before.taskId = false := by
    simp [Deed.handsOut, hhanded]
  refine ⟨before, hmem, ?_⟩
  cases hselected : act.withdraws before.work with
  | false =>
      rw [hselected] at hchange
      cases hchange
      exact ⟨rfl, (htransfer _).symm, by simp [hhands], by simp [hflags, hselected]⟩
  | true =>
      cases hlease : before.lease with
      | none => simp [hselected, hlease] at hchange
      | some lease =>
          simp only [hselected, hlease, Option.isNone_some, Bool.false_eq_true, if_true, if_false,
            Option.some.injEq] at hchange
          subst hchange
          exact ⟨rfl, by simp [htransfer, hlease], by simp [hhands],
            by simp [hflags, hselected, hlease]⟩

/-- Every record after an act follows one that was there before, or is that of a new task. -/
theorem perform_follows (wellKept : queue.WellKept)
    (h : record ∈ (queue.perform act now).records) :
    (∃ before ∈ queue.records, Follows ⟨act, now, queue⟩ before record) ∨
    (record.taskId = taskId queue.issued ∧ record.lease = none ∧ record.deliveryCount = 0 ∧
      record.cancelRequested = false) := by
  cases act with
  | enqueue task => exact perform_enqueue task h
  | claim request => exact .inl (perform_claim wellKept request h)
  | complete taskId token => exact .inl (perform_complete taskId token h)
  | fail taskId token reason delay => exact .inl (perform_fail taskId token reason delay h)
  | heartbeat taskId token extension => exact .inl (perform_heartbeat taskId token extension h)
  | cancelActivity run activityId => exact .inl (withdraw_follows wellKept rfl rfl h)
  | purge run => exact .inl (withdraw_follows wellKept rfl rfl h)

end TaskQueue

end Chronicle
