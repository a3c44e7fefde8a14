import Mathlib.Data.List.Nodup
import Chronicle.Store.TaskQueue

/-!
# Slots of the task queue

Who holds which task, apart from the times at which tasks become visible and leases expire.  Task
ids and lease tokens are never handed out twice, and a run has at most one workflow task that
nobody holds.
-/

namespace Chronicle

structure TaskSlot where
  taskId : Uuid
  taskQueue : String
  work : Work
  /-- Token of the lease under which the task is held. -/
  token : Option Uuid
  deriving DecidableEq, Repr

def TaskSlot.isPending (run : RunRef) (slot : TaskSlot) : Bool :=
  slot.token.isNone && slot.work.isWorkflowOf run

def TaskRecord.slot (record : TaskRecord) : TaskSlot :=
  ⟨record.taskId, record.taskQueue, record.work, record.lease.map Lease.token⟩

namespace TaskQueue

def slots (queue : TaskQueue) : List TaskSlot := queue.records.map TaskRecord.slot

/-- The slots after the lease of one task has changed. -/
def regrant (taskId : Uuid) (token : Option Uuid) (slots : List TaskSlot) : List TaskSlot :=
  slots.map fun slot => if slot.taskId = taskId then { slot with token := token } else slot

/-- The slots without one task. -/
def without (taskId : Uuid) (slots : List TaskSlot) : List TaskSlot :=
  slots.filter fun slot => slot.taskId != taskId

/-! ## What the operations do to the slots -/

theorem isCovered_eq (queue : TaskQueue) (work : Work) :
    queue.isCovered work = match work with
      | .workflow run _ => queue.slots.any (TaskSlot.isPending run)
      | .activity _ => false := by
  cases work with
  | activity task => rfl
  | workflow run workflowType =>
      simp [isCovered, slots, List.any_map, Function.comp_def, TaskSlot.isPending,
        TaskRecord.isPendingWorkflowOf, TaskRecord.slot]

theorem map_slot_modifyFirst (condition : TaskRecord → Bool) (visibleAt : Instant)
    (records : List TaskRecord) :
    (modifyFirst condition (hasten visibleAt) records).map TaskRecord.slot =
      records.map TaskRecord.slot := by
  induction records with
  | nil => rfl
  | cons record rest ih =>
      unfold modifyFirst
      split
      · rfl
      · rw [List.map_cons, List.map_cons, ih]

theorem enqueue_cases (queue : TaskQueue) (task : NewTask) (now : Instant) :
    (queue.isCovered task.work = true ∧ (queue.enqueue task now).1.slots = queue.slots ∧
        (queue.enqueue task now).1.issued = queue.issued) ∨
      (queue.isCovered task.work = false ∧
        (queue.enqueue task now).1.slots =
          queue.slots ++ [⟨taskId queue.issued, task.taskQueue, task.work, none⟩] ∧
        (queue.enqueue task now).1.issued = queue.issued + 1) := by
  unfold enqueue
  cases hcovered : queue.isCovered task.work with
  | true => exact .inl ⟨rfl, map_slot_modifyFirst _ _ _, rfl⟩
  | false => exact .inr ⟨rfl, by simp [add, slots, TaskRecord.slot], rfl⟩

theorem enqueue_granted (queue : TaskQueue) (task : NewTask) (now : Instant) :
    (queue.enqueue task now).1.granted = queue.granted := by
  unfold enqueue
  simp only
  split <;> rfl

theorem slots_modify {queue : TaskQueue} {taskId : Uuid} {change : TaskRecord → TaskRecord}
    {token : Option Uuid}
    (hchange : ∀ record, record.taskId = taskId →
      (change record).slot = { record.slot with token := token }) :
    (queue.modify taskId change).slots = regrant taskId token queue.slots := by
  simp only [slots, modify, regrant, List.map_map]
  apply List.map_congr_left
  intro record _
  by_cases h : record.taskId = taskId
  · have hslot : record.slot.taskId = taskId := h
    simp only [Function.comp, if_pos h, if_pos hslot]
    exact hchange record h
  · have hslot : record.slot.taskId ≠ taskId := h
    simp only [Function.comp, h, hslot, if_false]

theorem claim_claimed {queue after : TaskQueue} {request : PollRequest} {now : Instant}
    {task : LeasedTask} (h : queue.claim request now = (after, .claimed task)) :
    (∃ slot ∈ queue.slots, slot.taskId = task.taskId ∧ slot.work = task.work) ∧
      task.token = leaseToken queue.granted ∧
      after.slots = regrant task.taskId (some task.token) queue.slots ∧
      after.issued = queue.issued ∧ after.granted = queue.granted + 1 := by
  unfold claim at h
  simp only at h
  split at h
  · cases h
  · rename_i record hfind
    cases h
    have hmem := List.mem_of_find?_eq_some hfind
    refine ⟨⟨record.slot, List.mem_map_of_mem (List.mem_of_mem_filter hmem), rfl, rfl⟩, rfl, ?_, rfl,
      rfl⟩
    exact slots_modify fun _ _ => rfl

theorem claim_nothing {queue after : TaskQueue} {request : PollRequest} {now : Instant}
    {next : Option Instant} (h : queue.claim request now = (after, .nothing next)) :
    after = queue := by
  unfold claim at h
  simp only at h
  split at h
  · exact (Prod.mk.inj h).1.symm
  · cases h

/-- The task is held under the token. -/
def Holds (queue : TaskQueue) (slot : TaskSlot) (taskId token : Uuid) : Prop :=
  slot ∈ queue.slots ∧ slot.taskId = taskId ∧ slot.token = some token

theorem holds_of_held {queue : TaskQueue} {taskId token : Uuid} {record : TaskRecord}
    (h : queue.held taskId token = .ok record) : queue.Holds record.slot taskId token := by
  unfold held at h
  split at h
  · cases h
  · rename_i found hfind
    have hmem := List.mem_of_find?_eq_some hfind
    have hid : found.taskId = taskId := by simpa using List.find?_some hfind
    split at h
    · rename_i lease hlease
      split at h
      · rename_i htoken
        cases h
        exact ⟨List.mem_map_of_mem hmem, hid, by simp [TaskRecord.slot, hlease, htoken]⟩
      · cases h
    · cases h

theorem slots_remove (queue : TaskQueue) (taskId : Uuid) :
    (queue.remove taskId).slots = without taskId queue.slots := by
  simp only [slots, remove, without, List.filter_map]
  rfl

theorem complete_ok {queue after : TaskQueue} {taskId token : Uuid}
    (h : queue.complete taskId token = .ok after) :
    ∃ slot, queue.Holds slot taskId token ∧ after.slots = without taskId queue.slots ∧
      after.issued = queue.issued ∧ after.granted = queue.granted := by
  unfold complete at h
  split at h
  · rename_i record hheld
    cases h
    exact ⟨_, holds_of_held hheld, slots_remove _ _, rfl, rfl⟩
  · cases h

theorem without_regrant (taskId : Uuid) (token : Option Uuid) (slots : List TaskSlot) :
    without taskId (regrant taskId token slots) = without taskId slots := by
  induction slots with
  | nil => rfl
  | cons slot rest ih =>
      by_cases h : slot.taskId = taskId
      · simpa [regrant, without, h] using ih
      · simpa [regrant, without, h] using ih

theorem fail_ok {queue after : TaskQueue} {taskId token : Uuid} {reason : String} {delay : Span}
    {now : Instant} (h : queue.fail taskId token reason delay now = .ok after) :
    ∃ slot, queue.Holds slot taskId token ∧
      after.slots = (if queue.isCovered slot.work then without taskId queue.slots
        else regrant taskId none queue.slots) ∧
      after.issued = queue.issued ∧ after.granted = queue.granted := by
  unfold fail at h
  split at h
  · cases h
  · rename_i record hheld
    have hreleased := @slots_modify queue taskId (fun record =>
      { record with lease := none, visibleAt := now.after delay, lastError := some reason }) none
      fun _ _ => rfl
    refine ⟨_, holds_of_held hheld, ?_⟩
    have hwork : record.slot.work = record.work := rfl
    rw [hwork]
    cases hcovered : queue.isCovered record.work with
    | true =>
        simp only [hcovered, if_true] at h
        cases h
        rw [slots_remove, hreleased, without_regrant]
        exact ⟨rfl, rfl, rfl⟩
    | false =>
        simp only [hcovered, Bool.false_eq_true, if_false] at h
        cases h
        rw [hreleased]
        exact ⟨rfl, rfl, rfl⟩

theorem heartbeat_ok {queue after : TaskQueue} {taskId token : Uuid} {extension : Span}
    {now : Instant} {reply : HeartbeatReply}
    (h : queue.heartbeat taskId token extension now = .ok (after, reply)) :
    after.slots = queue.slots ∧ after.issued = queue.issued ∧ after.granted = queue.granted := by
  unfold heartbeat at h
  split at h
  · cases h
  · cases h
    refine ⟨?_, rfl, rfl⟩
    simp only [slots, modify, List.map_map]
    apply List.map_congr_left
    intro record _
    by_cases h : record.taskId = taskId
    · simp [Function.comp_def, h, TaskRecord.slot]
    · simp [Function.comp, h]

theorem slots_withdraw (queue : TaskQueue) (selected : Work → Bool) :
    (queue.withdraw selected).slots =
      queue.slots.filter fun slot => !(selected slot.work && slot.token.isNone) := by
  unfold withdraw slots
  simp only
  induction queue.records with
  | nil => rfl
  | cons record rest ih =>
      have hlease : (record.slot).token.isNone = record.lease.isNone := by
        simp [TaskRecord.slot]
      have hwork : record.slot.work = record.work := rfl
      simp only [List.filterMap_cons, List.map_cons, List.filter_cons, hlease, hwork]
      cases selected record.work with
      | false => simpa using ih
      | true =>
          cases record.lease.isNone with
          | true => simpa using ih
          | false => simpa [TaskRecord.slot] using ih

/-! ## Series of changes -/

inductive Step : TaskQueue → TaskQueue → Prop where
  | enqueued (queue : TaskQueue) (task : NewTask) (now : Instant) :
      Step queue (queue.enqueue task now).1
  | claimed {queue after : TaskQueue} {request : PollRequest} {now : Instant} {task : LeasedTask}
      (h : queue.claim request now = (after, .claimed task)) : Step queue after
  | completed {queue after : TaskQueue} {taskId token : Uuid}
      (h : queue.complete taskId token = .ok after) : Step queue after
  | failed {queue after : TaskQueue} {taskId token : Uuid} {reason : String} {delay : Span}
      {now : Instant} (h : queue.fail taskId token reason delay now = .ok after) : Step queue after
  | extended {queue after : TaskQueue} {taskId token : Uuid} {extension : Span} {now : Instant}
      {reply : HeartbeatReply}
      (h : queue.heartbeat taskId token extension now = .ok (after, reply)) : Step queue after
  | withdrawn (queue : TaskQueue) (selected : Work → Bool) : Step queue (queue.withdraw selected)

/-- What the supply of ids and tokens, and the care for workflow tasks, amount to. -/
structure WellKept (queue : TaskQueue) : Prop where
  issued : ∀ slot ∈ queue.slots, ∃ number < queue.issued, slot.taskId = taskId number
  distinct : (queue.slots.map TaskSlot.taskId).Nodup
  granted : ∀ slot ∈ queue.slots, ∀ token, slot.token = some token →
    ∃ number < queue.granted, token = leaseToken number
  single : ∀ run, queue.slots.countP (TaskSlot.isPending run) ≤ 1

theorem taskId_injective {first second : Nat} (h : taskId first = taskId second) :
    first = second := by
  simp only [taskId, Uuid.generated, Uuid.mk.injEq] at h
  omega

theorem leaseToken_injective {first second : Nat} (h : leaseToken first = leaseToken second) :
    first = second := by
  simp only [leaseToken, Uuid.generated, Uuid.mk.injEq] at h
  omega

theorem WellKept.eq_of_taskId {queue : TaskQueue} (wellKept : queue.WellKept)
    {first second : TaskSlot} (hfirst : first ∈ queue.slots) (hsecond : second ∈ queue.slots)
    (h : first.taskId = second.taskId) : first = second :=
  List.inj_on_of_nodup_map wellKept.distinct hfirst hsecond h

theorem mem_regrant {taskId : Uuid} {token : Option Uuid} {slots : List TaskSlot} {slot : TaskSlot}
    (h : slot ∈ regrant taskId token slots) :
    ∃ earlier ∈ slots, slot.taskId = earlier.taskId ∧ slot.work = earlier.work ∧
      slot.taskQueue = earlier.taskQueue ∧
      (slot.token = earlier.token ∨ (slot.taskId = taskId ∧ slot.token = token)) := by
  obtain ⟨earlier, hmem, heq⟩ := List.mem_map.1 h
  split at heq
  · rename_i hid
    subst heq
    exact ⟨earlier, hmem, rfl, rfl, rfl, .inr ⟨hid, rfl⟩⟩
  · subst heq
    exact ⟨earlier, hmem, rfl, rfl, rfl, .inl rfl⟩

theorem map_taskId_regrant (taskId : Uuid) (token : Option Uuid) (slots : List TaskSlot) :
    (regrant taskId token slots).map TaskSlot.taskId = slots.map TaskSlot.taskId := by
  unfold regrant
  rw [List.map_map]
  apply List.map_congr_left
  intro slot _
  simp only [Function.comp]
  split <;> rfl

theorem countP_regrant_some (taskId token : Uuid) (slots : List TaskSlot) (run : RunRef) :
    (regrant taskId (some token) slots).countP (TaskSlot.isPending run) ≤
      slots.countP (TaskSlot.isPending run) := by
  unfold regrant
  rw [List.countP_map]
  apply List.countP_mono_left
  intro slot _ hpending
  simp only [Function.comp] at hpending
  split at hpending
  · cases hpending
  · exact hpending

theorem countP_regrant_none {taskId : Uuid} {slots : List TaskSlot} {slot : TaskSlot}
    (hdistinct : (slots.map TaskSlot.taskId).Nodup) (hmem : slot ∈ slots)
    (hid : slot.taskId = taskId) (run : RunRef) :
    (regrant taskId none slots).countP (TaskSlot.isPending run) ≤
      slots.countP (TaskSlot.isPending run) + if slot.work.isWorkflowOf run then 1 else 0 := by
  induction slots with
  | nil => cases hmem
  | cons first rest ih =>
      simp only [List.map_cons, List.nodup_cons] at hdistinct
      obtain ⟨hnew, hdistinct⟩ := hdistinct
      by_cases hfirst : first.taskId = taskId
      · -- the slot is given back, and those after it have other ids
        have hslot : slot = first := by
          rcases List.mem_cons.1 hmem with heq | hrest
          · exact heq
          · exact absurd (hfirst.trans hid.symm ▸ List.mem_map_of_mem hrest) hnew
        have hrest : regrant taskId none rest = rest := by
          unfold regrant
          conv_rhs => rw [← List.map_id rest]
          apply List.map_congr_left
          intro other hother
          have hother : other.taskId ≠ taskId :=
            fun heq => hnew (hfirst.trans heq.symm ▸ List.mem_map_of_mem hother)
          rw [if_neg hother]
          rfl
        subst hslot
        simp only [regrant, List.map_cons, hfirst, if_true, List.countP_cons] at hrest ⊢
        rw [hrest]
        simp only [TaskSlot.isPending, Option.isNone_none, Bool.true_and]
        omega
      · have hrest : slot ∈ rest := by
          rcases List.mem_cons.1 hmem with heq | hrest
          · exact absurd (heq ▸ hid) hfirst
          · exact hrest
        have hcount := ih hdistinct hrest
        simp only [regrant, List.map_cons, hfirst, if_false, List.countP_cons] at hcount ⊢
        omega

theorem WellKept.of_sublist {before after : TaskQueue} (wellKept : before.WellKept)
    (hslots : after.slots.Sublist before.slots) (hissued : after.issued = before.issued)
    (hgranted : after.granted = before.granted) : after.WellKept where
  issued := by
    rw [hissued]
    exact fun slot hmem => wellKept.issued slot (hslots.subset hmem)
  distinct := wellKept.distinct.sublist (hslots.map TaskSlot.taskId)
  granted := by
    rw [hgranted]
    exact fun slot hmem => wellKept.granted slot (hslots.subset hmem)
  single := fun run => Nat.le_trans hslots.countP_le (wellKept.single run)

theorem WellKept.enqueue {queue : TaskQueue} (wellKept : queue.WellKept) (task : NewTask)
    (now : Instant) : (queue.enqueue task now).1.WellKept := by
  have hgranted := queue.enqueue_granted task now
  rcases queue.enqueue_cases task now with ⟨-, hslots, hissued⟩ | ⟨hfree, hslots, hissued⟩
  · exact wellKept.of_sublist (hslots ▸ List.Sublist.refl _) hissued hgranted
  constructor
  case issued =>
    intro slot hmem
    rw [hslots] at hmem
    rw [hissued]
    rcases List.mem_append.1 hmem with hold | hnew
    · obtain ⟨number, hlt, hid⟩ := wellKept.issued slot hold
      exact ⟨number, by omega, hid⟩
    · rw [List.mem_singleton.1 hnew]
      exact ⟨queue.issued, by omega, rfl⟩
  case distinct =>
    rw [hslots, List.map_append, List.nodup_append]
    refine ⟨wellKept.distinct, by simp, ?_⟩
    intro first hfirst second hsecond heq
    obtain ⟨slot, hmem, hid⟩ := List.mem_map.1 hfirst
    obtain ⟨number, hlt, hnumber⟩ := wellKept.issued slot hmem
    simp only [List.map_cons, List.map_nil, List.mem_singleton] at hsecond
    rw [← hid, hnumber, hsecond] at heq
    have hsame := taskId_injective heq
    omega
  case granted =>
    intro slot hmem
    rw [hslots] at hmem
    rw [hgranted]
    rcases List.mem_append.1 hmem with hold | hnew
    · exact wellKept.granted slot hold
    · rw [List.mem_singleton.1 hnew]
      intro token htoken
      cases htoken
  case single =>
    intro run
    have hbefore := wellKept.single run
    rw [hslots, List.countP_append, List.countP_singleton]
    split
    · -- only a workflow task that nobody else is waiting for is added
      rename_i hpending
      rw [isCovered_eq] at hfree
      cases hwork : task.work with
      | activity work => simp [TaskSlot.isPending, hwork, Work.isWorkflowOf] at hpending
      | workflow target workflowType =>
          have htarget : target = run := by
            simpa [TaskSlot.isPending, hwork, Work.isWorkflowOf] using hpending
          rw [hwork, htarget] at hfree
          have hnone : queue.slots.countP (TaskSlot.isPending run) = 0 :=
            List.countP_eq_zero.2 fun slot hmem => by
              simpa using List.any_eq_false.1 hfree slot hmem
          omega
    · exact hbefore

theorem WellKept.claim {queue after : TaskQueue} {request : PollRequest} {now : Instant}
    {task : LeasedTask} (wellKept : queue.WellKept)
    (h : queue.claim request now = (after, .claimed task)) : after.WellKept := by
  obtain ⟨-, htoken, hslots, hissued, hgranted⟩ := claim_claimed h
  constructor
  case issued =>
    intro slot hmem
    rw [hslots] at hmem
    obtain ⟨earlier, hearlier, hid, -⟩ := mem_regrant hmem
    rw [hid, hissued]
    exact wellKept.issued earlier hearlier
  case distinct =>
    rw [hslots, map_taskId_regrant]
    exact wellKept.distinct
  case granted =>
    intro slot hmem token hheld
    rw [hslots] at hmem
    rw [hgranted]
    obtain ⟨earlier, hearlier, -, -, -, hsame | ⟨-, hnew⟩⟩ := mem_regrant hmem
    · obtain ⟨number, hlt, hnumber⟩ := wellKept.granted earlier hearlier token (hsame ▸ hheld)
      exact ⟨number, by omega, hnumber⟩
    · rw [hheld, htoken, Option.some.injEq] at hnew
      exact ⟨queue.granted, by omega, hnew⟩
  case single =>
    intro run
    rw [hslots]
    exact Nat.le_trans (countP_regrant_some _ _ _ run) (wellKept.single run)

theorem WellKept.fail {queue after : TaskQueue} {taskId token : Uuid} {reason : String} {delay : Span}
    {now : Instant} (wellKept : queue.WellKept)
    (h : queue.fail taskId token reason delay now = .ok after) : after.WellKept := by
  obtain ⟨held, ⟨hmem, hid, -⟩, hslots, hissued, hgranted⟩ := fail_ok h
  cases hcovered : queue.isCovered held.work with
  | true =>
      rw [hcovered, if_pos rfl] at hslots
      exact wellKept.of_sublist (hslots ▸ List.filter_sublist) hissued hgranted
  | false =>
      rw [hcovered, if_neg Bool.false_ne_true] at hslots
      constructor
      case issued =>
        intro slot hslot
        rw [hslots] at hslot
        obtain ⟨earlier, hearlier, hsame, -⟩ := mem_regrant hslot
        rw [hsame, hissued]
        exact wellKept.issued earlier hearlier
      case distinct =>
        rw [hslots, map_taskId_regrant]
        exact wellKept.distinct
      case granted =>
        intro slot hslot other hother
        rw [hslots] at hslot
        rw [hgranted]
        obtain ⟨earlier, hearlier, -, -, -, hsame | ⟨-, hnone⟩⟩ := mem_regrant hslot
        · exact wellKept.granted earlier hearlier other (hsame ▸ hother)
        · rw [hnone] at hother
          cases hother
      case single =>
        intro run
        have hcount := countP_regrant_none wellKept.distinct hmem hid run
        rw [hslots]
        refine Nat.le_trans hcount ?_
        split
        · -- the task that is given back is the only one that waits for its run
          rename_i hworks
          rw [isCovered_eq] at hcovered
          cases hwork : held.work with
          | activity work => simp [hwork, Work.isWorkflowOf] at hworks
          | workflow target workflowType =>
              have htarget : target = run := by simpa [hwork, Work.isWorkflowOf] using hworks
              rw [hwork, htarget] at hcovered
              have hnone : queue.slots.countP (TaskSlot.isPending run) = 0 :=
                List.countP_eq_zero.2 fun slot hmem => by
                  simpa using List.any_eq_false.1 hcovered slot hmem
              omega
        · exact wellKept.single run

theorem WellKept.step {before after : TaskQueue} (wellKept : before.WellKept)
    (step : Step before after) : after.WellKept := by
  cases step with
  | enqueued task now => exact wellKept.enqueue task now
  | claimed h => exact wellKept.claim h
  | completed h =>
      obtain ⟨-, -, hslots, hissued, hgranted⟩ := complete_ok h
      exact wellKept.of_sublist (hslots ▸ List.filter_sublist) hissued hgranted
  | failed h => exact wellKept.fail h
  | extended h =>
      obtain ⟨hslots, hissued, hgranted⟩ := heartbeat_ok h
      exact wellKept.of_sublist (hslots ▸ List.Sublist.refl _) hissued hgranted
  | withdrawn selected =>
      exact wellKept.of_sublist (slots_withdraw _ _ ▸ List.filter_sublist) rfl rfl

/-- A task id was handed out, for this work only. -/
structure Assigned (queue : TaskQueue) (id : Uuid) (work : Work) : Prop where
  issued : ∃ number < queue.issued, id = taskId number
  only : ∀ slot ∈ queue.slots, slot.taskId = id → slot.work = work

/-- Every slot was there before, with the same work, or is that of a new task. -/
theorem Step.origin {before after : TaskQueue} (step : Step before after) :
    before.issued ≤ after.issued ∧ before.granted ≤ after.granted ∧
      ∀ slot ∈ after.slots,
        (∃ earlier ∈ before.slots, slot.taskId = earlier.taskId ∧ slot.work = earlier.work ∧
          (slot.token = earlier.token ∨ slot.token = none ∨
            slot.token = some (leaseToken before.granted) ∧ before.granted < after.granted)) ∨
        (slot.taskId = taskId before.issued ∧ slot.token = none) := by
  have hsame : ∀ granted, ∀ slot ∈ before.slots, ∃ earlier ∈ before.slots,
      slot.taskId = earlier.taskId ∧ slot.work = earlier.work ∧
      (slot.token = earlier.token ∨ slot.token = none ∨
        slot.token = some (leaseToken before.granted) ∧ before.granted < granted) :=
    fun _ slot hmem => ⟨slot, hmem, rfl, rfl, .inl rfl⟩
  cases step with
  | enqueued task now =>
      have hgranted := before.enqueue_granted task now
      rcases before.enqueue_cases task now with ⟨-, hslots, hissued⟩ | ⟨-, hslots, hissued⟩
      · rw [hslots, hissued, hgranted]
        exact ⟨Nat.le_refl _, Nat.le_refl _, fun slot hmem => .inl (hsame _ slot hmem)⟩
      · -- only here is there a slot that was not there before
        rw [hslots, hissued, hgranted]
        refine ⟨Nat.le_succ _, Nat.le_refl _, ?_⟩
        intro slot hmem
        rcases List.mem_append.1 hmem with hold | hnew
        · exact .inl (hsame _ slot hold)
        · rw [List.mem_singleton.1 hnew]
          exact .inr ⟨rfl, rfl⟩
  | claimed h =>
      obtain ⟨-, htoken, hslots, hissued, hgranted⟩ := claim_claimed h
      refine ⟨Nat.le_of_eq hissued.symm, by omega, ?_⟩
      intro slot hmem
      rw [hslots] at hmem
      obtain ⟨earlier, hearlier, hid, hwork, -, hkept | ⟨-, hnew⟩⟩ := mem_regrant hmem
      · exact .inl ⟨earlier, hearlier, hid, hwork, .inl hkept⟩
      · exact .inl ⟨earlier, hearlier, hid, hwork, .inr (.inr ⟨htoken ▸ hnew, by omega⟩)⟩
  | completed h =>
      obtain ⟨-, -, hslots, hissued, hgranted⟩ := complete_ok h
      refine ⟨Nat.le_of_eq hissued.symm, Nat.le_of_eq hgranted.symm, ?_⟩
      intro slot hmem
      rw [hslots] at hmem
      exact .inl (hsame _ slot (List.mem_of_mem_filter hmem))
  | failed h =>
      obtain ⟨held, -, hslots, hissued, hgranted⟩ := fail_ok h
      refine ⟨Nat.le_of_eq hissued.symm, Nat.le_of_eq hgranted.symm, ?_⟩
      intro slot hmem
      rw [hslots] at hmem
      split at hmem
      · exact .inl (hsame _ slot (List.mem_of_mem_filter hmem))
      · obtain ⟨earlier, hearlier, hid, hwork, -, hkept | ⟨-, hnone⟩⟩ := mem_regrant hmem
        · exact .inl ⟨earlier, hearlier, hid, hwork, .inl hkept⟩
        · exact .inl ⟨earlier, hearlier, hid, hwork, .inr (.inl hnone)⟩
  | extended h =>
      obtain ⟨hslots, hissued, hgranted⟩ := heartbeat_ok h
      refine ⟨Nat.le_of_eq hissued.symm, Nat.le_of_eq hgranted.symm, ?_⟩
      intro slot hmem
      rw [hslots] at hmem
      exact .inl (hsame _ slot hmem)
  | withdrawn selected =>
      refine ⟨Nat.le_refl _, Nat.le_refl _, ?_⟩
      intro slot hmem
      rw [slots_withdraw] at hmem
      exact .inl (hsame _ slot (List.mem_of_mem_filter hmem))

theorem Assigned.step {before after : TaskQueue} {id : Uuid} {work : Work}
    (assigned : before.Assigned id work) (step : Step before after) : after.Assigned id work := by
  obtain ⟨hissued, -, horigin⟩ := step.origin
  obtain ⟨number, hlt, hnumber⟩ := assigned.issued
  refine ⟨⟨number, by omega, hnumber⟩, ?_⟩
  intro slot hmem hid
  rcases horigin slot hmem with ⟨earlier, hearlier, hsame, hwork, -⟩ | ⟨hnew, -⟩
  · rw [hwork]
    exact assigned.only earlier hearlier (hsame ▸ hid)
  · rw [hid, hnumber] at hnew
    have hequal := taskId_injective hnew
    omega

end TaskQueue

end Chronicle
