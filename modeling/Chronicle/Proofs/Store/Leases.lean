import Chronicle.Engine.Program
import Chronicle.Proofs.Store.Logs
import Chronicle.Proofs.Time.Instants

/-!
# Leases are exclusive

Whatever is done to the task queue, in any order and at any time: a task is handed out only while
nobody holds it, the oldest one first; a lease that was followed by another one, or given back,
is worth nothing any more; and no task gets lost.
-/

namespace Chronicle

open Relation (ReflTransGen)

/-- Nobody holds the task, and it is visible, or the lease of its holder has expired. -/
def TaskRecord.Available (record : TaskRecord) (now : Instant) : Prop :=
  match record.lease with
  | none => record.visibleAt ≤ now
  | some lease => lease.expiresAt ≤ now

theorem TaskRecord.available_iff {record : TaskRecord} {now : Instant} :
    record.Available now ↔ record.availableAt ≤ now := by
  unfold Available availableAt
  cases record.lease <;> exact Iff.rfl

namespace TaskQueue

variable {queue : TaskQueue} {act : Act} {now : Instant} {deeds : List Deed}

/-! ## Polls -/

theorem earliest?_eq_none {records : List TaskRecord} (h : earliest? records = none) :
    records = [] := by
  cases records with
  | nil => rfl
  | cons record rest =>
      unfold earliest? at h
      split at h <;> cases h

theorem earliest?_eq_some {records : List TaskRecord} {instant : Instant}
    (h : earliest? records = some instant) :
    (∃ record ∈ records, record.availableAt = instant) ∧
      ∀ record ∈ records, instant ≤ record.availableAt := by
  induction records generalizing instant with
  | nil => cases h
  | cons first rest ih =>
      unfold earliest? at h
      cases hrest : earliest? rest with
      | none =>
          rw [earliest?_eq_none hrest]
          simp only [hrest, Option.some.injEq] at h
          subst h
          simp [Instant.le_refl]
      | some other =>
          obtain ⟨⟨record, hmem, hat⟩, hleast⟩ := ih hrest
          simp only [hrest, Option.some.injEq] at h
          split at h
          · rename_i hearlier
            subst h
            refine ⟨⟨record, List.mem_cons_of_mem _ hmem, hat⟩, ?_⟩
            exact List.forall_mem_cons.2 ⟨Instant.le_of_lt hearlier, hleast⟩
          · rename_i hlater
            subst h
            refine ⟨⟨first, List.mem_cons_self, rfl⟩,
              List.forall_mem_cons.2 ⟨Instant.le_refl _, ?_⟩⟩
            intro record hmem
            exact Instant.le_trans (Instant.le_of_not_lt hlater) (hleast record hmem)

theorem idxOf_le_of_sublist {first second : Uuid} {all : List Uuid} (hnodup : all.Nodup)
    (h : [first, second].Sublist all) : all.idxOf first ≤ all.idxOf second := by
  obtain ⟨early, late, rfl, hfirst, hsecond⟩ := List.cons_sublist_iff.1 h
  have hlate : second ∈ late := List.singleton_sublist.1 hsecond
  have hnot : second ∉ early := fun hearly => (List.disjoint_of_nodup_append hnodup) hearly hlate
  have hlt := List.idxOf_lt_length_iff.2 hfirst
  rw [List.idxOf_append_of_mem hfirst, List.idxOf_append_of_notMem hnot]
  omega

/-- The queue hands out the given task. -/
structure HandsOut (deeds : List Deed) (queue : TaskQueue) (request : PollRequest) (now : Instant)
    (task : LeasedTask) (record : TaskRecord) : Prop where
  mem : record ∈ queue.records
  taskId : task.taskId = record.taskId
  work : task.work = record.work
  wanted : record.matchesRequest request = true
  available : record.Available now
  oldest : ∀ other ∈ queue.records, other.matchesRequest request = true → other.Available now →
    (enqueuedIds deeds).idxOf record.taskId ≤ (enqueuedIds deeds).idxOf other.taskId
  token : ∀ earlier ∈ handOuts deeds, earlier.token ≠ task.token
  deliveryCount : task.deliveryCount = (handOutsOf task.taskId deeds).length + 1

theorem Accounts.handsOut (accounts : Accounts deeds queue) {request : PollRequest} {now : Instant}
    {after : TaskQueue} {task : LeasedTask}
    (h : queue.claim request now = (after, .claimed task)) :
    ∃ record, HandsOut deeds queue request now task record := by
  obtain ⟨-, htoken, -, -, -⟩ := claim_claimed h
  unfold claim at h
  simp only at h
  split at h
  · cases h
  · rename_i record hfind
    cases h
    obtain ⟨havailable, early, late, hmatching, hearly⟩ := List.find?_eq_some_iff_append.1 hfind
    obtain ⟨hmem, hwanted⟩ := List.mem_filter.1 (List.mem_of_find?_eq_some hfind)
    refine ⟨record, hmem, rfl, rfl, hwanted,
      TaskRecord.available_iff.2 (of_decide_eq_true havailable), ?_, ?_, ?_⟩
    · intro other hother hmatches hfree
      have hlisted : other ∈ early ++ record :: late :=
        hmatching ▸ List.mem_filter.2 ⟨hother, hmatches⟩
      rcases List.mem_append.1 hlisted with hbefore | hnot
      · have hunavailable := hearly other hbefore
        simp [TaskRecord.available_iff.1 hfree] at hunavailable
      rcases List.mem_cons.1 hnot with rfl | hafter
      · exact Nat.le_refl _
      · apply idxOf_le_of_sublist
        · rw [accounts.enqueued]
          exact List.nodup_range.map fun _ _ => taskId_injective
        · have hpair : [record, other].Sublist queue.records := by
            apply List.Sublist.trans _ (List.filter_sublist (p := fun record =>
              TaskRecord.matchesRequest record request))
            rw [hmatching]
            exact .trans (.cons_cons record (List.singleton_sublist.2 hafter))
              (List.sublist_append_right _ _)
          exact (hpair.map TaskRecord.taskId).trans accounts.order
    · intro earlier hearlier hsame
      have hgranted : earlier.token ∈ (List.range queue.granted).map leaseToken :=
        accounts.granted ▸ List.mem_map_of_mem hearlier
      obtain ⟨number, hlt, hnumber⟩ := List.mem_map.1 hgranted
      have hequal := leaseToken_injective (hnumber.trans hsame)
      rw [List.mem_range] at hlt
      omega
    · rw [accounts.deliveryCount record hmem]

/-- The earliest instant at which a task is available that the request asks for. -/
def IsNext (queue : TaskQueue) (request : PollRequest) : Option Instant → Prop
  | none => ∀ record ∈ queue.records, record.matchesRequest request = false
  | some instant =>
      (∃ record ∈ queue.records,
        record.matchesRequest request = true ∧ record.Available instant) ∧
      ∀ record ∈ queue.records, record.matchesRequest request = true →
        ∀ other, record.Available other → instant ≤ other

theorem isNext_of_nothing {request : PollRequest} {now : Instant} {after : TaskQueue}
    {next : Option Instant} (h : queue.claim request now = (after, .nothing next)) :
    (∀ record ∈ queue.records, record.matchesRequest request = true → ¬record.Available now) ∧
      queue.IsNext request next := by
  unfold claim at h
  simp only at h
  split at h
  · rename_i hnone
    cases h
    constructor
    · intro record hmem hmatches havailable
      have hlate := List.find?_eq_none.1 hnone record (List.mem_filter.2 ⟨hmem, hmatches⟩)
      exact hlate (decide_eq_true (TaskRecord.available_iff.1 havailable))
    · cases hnext : earliest?
          (queue.records.filter fun record => record.matchesRequest request) with
      | none =>
          intro record hmem
          simpa using List.filter_eq_nil_iff.1 (earliest?_eq_none hnext) record hmem
      | some instant =>
          obtain ⟨⟨record, hlisted, hat⟩, hleast⟩ := earliest?_eq_some hnext
          obtain ⟨hmem, hmatches⟩ := List.mem_filter.1 hlisted
          refine ⟨⟨record, hmem, hmatches, TaskRecord.available_iff.2 ?_⟩, ?_⟩
          · rw [hat]
            exact Instant.le_refl instant
          · intro other hother hwanted time htime
            exact Instant.le_trans (hleast other (List.mem_filter.2 ⟨hother, hwanted⟩))
              (TaskRecord.available_iff.1 htime)
  · cases h

/-! ## Lost leases -/

/-- Nothing comes of completing or failing the task under the token, or of a heartbeat. -/
def Rejects (queue : TaskQueue) (taskId token : Uuid) : Prop :=
  ∃ error : StoreError, ∀ world : World, world.store.tasks = queue →
    World.answer (.completeTask taskId token) world = (.ok (.error error), world) ∧
    (∀ extension, World.answer (.heartbeatTask taskId token extension) world =
      (.ok (.error error), world)) ∧
    ∀ now, world.now = some now → ∀ reason delay,
      World.answer (.failTask taskId token reason delay) world = (.ok (.error error), world)

theorem rejects_of_held {taskId token : Uuid} {error : StoreError}
    (h : queue.held taskId token = .error error) : queue.Rejects taskId token := by
  refine ⟨error, ?_⟩
  intro world hqueue
  obtain ⟨hcomplete, hfail, -⟩ := held_error h
  refine ⟨?_, ?_, ?_⟩
  · simp [World.answer, Store.completeTask, hqueue, hcomplete, World.update, World.timeless,
      Except.map]
  · intro extension
    simp [World.answer, hqueue, h, World.timeless]
  · intro now hnow reason delay
    simp [World.answer, World.timed, hnow, Store.failTask, hqueue, hfail, World.update,
      World.timeless, Except.map]

theorem held_eq_error {taskId token : Uuid}
    (h : ∀ record ∈ queue.records, record.taskId = taskId →
      record.lease.map Lease.token ≠ some token) :
    ∃ error, queue.held taskId token = .error error := by
  unfold held
  cases hfind : queue.find? taskId with
  | none => exact ⟨.taskNotFound taskId, rfl⟩
  | some record =>
      have hid : record.taskId = taskId := by simpa using List.find?_some hfind
      have hother := h record (List.mem_of_find?_eq_some hfind) hid
      refine ⟨.leaseLost taskId, ?_⟩
      cases hlease : record.lease with
      | none => simp [hlease]
      | some lease =>
          have htoken : lease.token ≠ token := by simpa [hlease] using hother
          simp [hlease, htoken]

theorem mem_of_held {taskId token : Uuid} {record : TaskRecord}
    (h : queue.held taskId token = .ok record) :
    record ∈ queue.records ∧ record.taskId = taskId ∧
      record.lease.map Lease.token = some token := by
  unfold held at h
  split at h
  · cases h
  · rename_i found hfind
    have hid : found.taskId = taskId := by simpa using List.find?_some hfind
    split at h
    · rename_i lease hlease
      split at h
      · rename_i htoken
        cases h
        exact ⟨List.mem_of_find?_eq_some hfind, hid, by simp [hlease, htoken]⟩
      · cases h
    · cases h

theorem Accounts.rejects {first second : List Deed} {task : LeasedTask} {deed : Deed}
    (accounts : Accounts (first ++ second) queue) (htask : task ∈ handOuts first)
    (hdeed : deed ∈ second)
    (hlater : deed.handsOut task.taskId = true ∨ deed.released? = some task.taskId) :
    queue.Rejects task.taskId task.token := by
  have hdistinct : ((handOuts (first ++ second)).map LeasedTask.token).Nodup := by
    rw [accounts.granted]
    exact List.nodup_range.map fun _ _ => leaseToken_injective
  rw [handOuts_append, List.map_append] at hdistinct
  obtain ⟨error, herror⟩ := @held_eq_error queue task.taskId task.token (by
    intro record hmem hid hheld
    rw [accounts.token record hmem, hid, holder, List.foldl_append] at hheld
    -- whoever holds the task now got it by one of the later deeds
    rcases foldl_transfer_cases hheld with hsecond | ⟨-, hnone⟩
    · obtain ⟨other, hother, htoken⟩ := List.mem_map.1 hsecond
      apply List.disjoint_of_nodup_append hdistinct (List.mem_map_of_mem htask)
      rw [← htoken]
      exact List.mem_map_of_mem (List.mem_of_mem_filter hother)
    · obtain ⟨hhands, hreleased⟩ := hnone deed hdeed
      rcases hlater with hagain | hback
      · rw [hhands] at hagain
        cases hagain
      · exact hreleased hback)
  exact rejects_of_held herror

/-! ## Tasks that disappear -/

/-- Why a task is no longer there after an act. -/
inductive Ends (queue : TaskQueue) (act : Act) (record : TaskRecord) : Prop where
  | completed (token : Uuid) (act_eq : act = .complete record.taskId token)
      (held : record.lease.map Lease.token = some token)
  /-- The task is given back, and another one waits for its run already. -/
  | repeated (token : Uuid) (reason : String) (delay : Span) (run : RunRef) (workflowType : String)
      (other : TaskRecord) (act_eq : act = .fail record.taskId token reason delay)
      (held : record.lease.map Lease.token = some token)
      (work : record.work = .workflow run workflowType) (mem : other ∈ queue.records)
      (apart : other.taskId ≠ record.taskId) (waits : other.isPendingWorkflowOf run = true)
  /-- The work is taken back while nobody holds the task. -/
  | withdrawn (free : record.lease = none) (withdraws : act.withdraws record.work = true)

theorem mem_ids_of_slots {id : Uuid} {slots : List TaskSlot} (hslots : queue.slots = slots)
    (h : id ∈ slots.map TaskSlot.taskId) : id ∈ queue.ids := by
  rw [ids_eq, hslots]
  exact h

theorem mem_without {id taskId : Uuid} {slots : List TaskSlot}
    (h : id ∈ slots.map TaskSlot.taskId) (hother : id ≠ taskId) :
    id ∈ (without taskId slots).map TaskSlot.taskId := by
  obtain ⟨slot, hmem, hid⟩ := List.mem_map.1 h
  refine List.mem_map.2 ⟨slot, List.mem_filter.2 ⟨hmem, ?_⟩, hid⟩
  simpa [hid] using hother

theorem withdraw_ends {selected : Work → Bool} {record : TaskRecord} (hmem : record ∈ queue.records)
    (hgone : record.taskId ∉ (queue.withdraw selected).ids) :
    record.lease = none ∧ selected record.work = true := by
  by_contra hstays
  apply hgone
  apply mem_ids_of_slots (slots_withdraw queue selected)
  refine List.mem_map.2 ⟨record.slot, List.mem_filter.2 ⟨List.mem_map_of_mem hmem, ?_⟩, rfl⟩
  cases hselected : selected record.work with
  | false => simp [TaskRecord.slot, hselected]
  | true =>
      cases hlease : record.lease with
      | none => exact absurd ⟨hlease, hselected⟩ hstays
      | some lease => simp [TaskRecord.slot, hlease]

theorem WellKept.repeated (wellKept : queue.WellKept) {record : TaskRecord} {token : Uuid}
    {reason : String} {delay : Span} (hmem : record ∈ queue.records)
    (hact : act = .fail record.taskId token reason delay)
    (hheld : record.lease.map Lease.token = some token)
    (hcovered : queue.isCovered record.work = true) : queue.Ends act record := by
  cases hwork : record.work with
  | activity work => simp [isCovered, hwork] at hcovered
  | workflow run workflowType =>
      simp only [isCovered, hwork, List.any_eq_true] at hcovered
      obtain ⟨other, hother, hwaits⟩ := hcovered
      refine .repeated token reason delay run workflowType other hact hheld hwork hother ?_ hwaits
      intro hsame
      rw [wellKept.eq_of_id hother hmem hsame, TaskRecord.isPendingWorkflowOf] at hwaits
      cases hlease : record.lease <;> simp [hlease] at hheld hwaits

theorem WellKept.ends_complete (wellKept : queue.WellKept) {record : TaskRecord} {taskId token : Uuid}
    (hmem : record ∈ queue.records)
    (hgone : record.taskId ∉ (queue.perform (.complete taskId token) now).ids) :
    queue.Ends (.complete taskId token) record := by
  have hslotted : record.slot ∈ queue.slots := List.mem_map_of_mem hmem
  cases hdone : queue.complete taskId token with
  | error error =>
      simp only [perform, hdone] at hgone
      exact absurd (List.mem_map_of_mem hmem) hgone
  | ok after =>
      simp only [perform, hdone] at hgone
      obtain ⟨slot, ⟨hmem', hid, htoken⟩, hslots, -⟩ := complete_ok hdone
      by_cases hsame : record.taskId = taskId
      · obtain rfl := wellKept.eq_of_taskId hmem' hslotted (hid.trans hsame.symm)
        exact .completed token (by rw [hsame]) htoken
      · have hslot : record.taskId ∈ queue.slots.map TaskSlot.taskId := List.mem_map_of_mem hslotted
        exact absurd (mem_ids_of_slots hslots (mem_without hslot hsame)) hgone

theorem WellKept.ends_fail (wellKept : queue.WellKept) {record : TaskRecord} {taskId token : Uuid}
    {reason : String} {delay : Span} (hmem : record ∈ queue.records)
    (hgone : record.taskId ∉ (queue.perform (.fail taskId token reason delay) now).ids) :
    queue.Ends (.fail taskId token reason delay) record := by
  have hslotted : record.slot ∈ queue.slots := List.mem_map_of_mem hmem
  have hslot : record.taskId ∈ queue.slots.map TaskSlot.taskId := List.mem_map_of_mem hslotted
  cases hfailed : queue.fail taskId token reason delay now with
  | error error =>
      simp only [perform, hfailed] at hgone
      exact absurd (List.mem_map_of_mem hmem) hgone
  | ok after =>
      simp only [perform, hfailed] at hgone
      obtain ⟨slot, ⟨hmem', hid, htoken⟩, hslots, -⟩ := fail_ok hfailed
      -- the task stays, unless it is dropped because another one covers it
      cases hcovered : queue.isCovered slot.work with
      | false =>
          rw [hcovered, if_neg Bool.false_ne_true] at hslots
          exact absurd (mem_ids_of_slots hslots (by rwa [map_taskId_regrant])) hgone
      | true =>
          rw [hcovered, if_pos rfl] at hslots
          by_cases hsame : record.taskId = taskId
          · obtain rfl := wellKept.eq_of_taskId hmem' hslotted (hid.trans hsame.symm)
            exact wellKept.repeated hmem (by rw [hsame]) htoken hcovered
          · exact absurd (mem_ids_of_slots hslots (mem_without hslot hsame)) hgone

theorem WellKept.ends (wellKept : queue.WellKept) {record : TaskRecord}
    (hmem : record ∈ queue.records) (hgone : record.taskId ∉ (queue.perform act now).ids) :
    queue.Ends act record := by
  have hslotted : record.slot ∈ queue.slots := List.mem_map_of_mem hmem
  have hslot : record.taskId ∈ queue.slots.map TaskSlot.taskId := List.mem_map_of_mem hslotted
  have hthere : record.taskId ∈ queue.ids := List.mem_map_of_mem hmem
  cases act with
  | enqueue task =>
      have hstays := mem_enqueue_of_mem hslotted task now
      exact absurd (mem_ids_of_slots rfl (List.mem_map_of_mem hstays)) hgone
  | claim request =>
      cases hclaim : queue.claim request now with
      | mk after answer =>
          simp only [perform, hclaim] at hgone
          cases answer with
          | claimed task =>
              obtain ⟨-, -, hslots, -⟩ := claim_claimed hclaim
              exact absurd (mem_ids_of_slots hslots (by rwa [map_taskId_regrant])) hgone
          | nothing next => exact absurd (claim_nothing hclaim ▸ hthere) hgone
  | complete taskId token => exact wellKept.ends_complete hmem hgone
  | fail taskId token reason delay => exact wellKept.ends_fail hmem hgone
  | heartbeat taskId token extension =>
      cases hbeat : queue.heartbeat taskId token extension now with
      | error error =>
          simp only [perform, hbeat] at hgone
          exact absurd hthere hgone
      | ok answer =>
          simp only [perform, hbeat] at hgone
          obtain ⟨hslots, -⟩ := heartbeat_ok hbeat
          exact absurd (mem_ids_of_slots hslots hslot) hgone
  | cancelActivity run activityId =>
      obtain ⟨hfree, hselected⟩ := withdraw_ends hmem hgone
      exact .withdrawn hfree hselected
  | purge run =>
      obtain ⟨hfree, hselected⟩ := withdraw_ends hmem hgone
      exact .withdrawn hfree hselected

/-! ## All together -/

theorem Accounts.reply (accounts : Accounts deeds queue) {taskId token : Uuid} {extension : Span}
    {now : Instant} {after : TaskQueue} {reply : HeartbeatReply}
    (h : queue.heartbeat taskId token extension now = .ok (after, reply)) :
    reply.accepted = true ∧
      (reply.shouldCancel = true ↔ ∃ deed ∈ deeds, deed.flags taskId = true) := by
  unfold heartbeat at h
  split at h
  · cases h
  · rename_i record hheld
    cases h
    obtain ⟨hmem, hid, -⟩ := mem_of_held hheld
    simp only [accounts.cancelRequested record hmem, hid, List.any_eq_true, and_self]

/-- What holders of leases can rely on after the acts of a log. -/
structure Exclusive (deeds : List Deed) (queue : TaskQueue) : Prop where
  claimed : ∀ request now after task, queue.claim request now = (after, .claimed task) →
    ∃ record, HandsOut deeds queue request now task record
  nothing : ∀ request now after next, queue.claim request now = (after, .nothing next) →
    (∀ record ∈ queue.records, record.matchesRequest request = true → ¬record.Available now) ∧
      queue.IsNext request next
  /-- A token is of no use once the task was handed out again or given back. -/
  rejected : ∀ first second task deed, deeds = first ++ second → task ∈ handOuts first →
    deed ∈ second → (deed.handsOut task.taskId = true ∨ deed.released? = some task.taskId) →
      queue.Rejects task.taskId task.token
  /-- Nor is a token for a task that is no longer there. -/
  gone : ∀ taskId token, taskId ∉ queue.ids → queue.Rejects taskId token
  lost : ∀ act now, ∀ record ∈ queue.records,
    record.taskId ∉ (queue.perform act now).ids → queue.Ends act record
  /-- Whoever holds a task is told to cancel if some holder of it was ever asked to. -/
  cancelled : ∀ taskId token extension now after reply,
    queue.heartbeat taskId token extension now = .ok (after, reply) →
      reply.accepted = true ∧
        (reply.shouldCancel = true ↔ ∃ deed ∈ deeds, deed.flags taskId = true)
  deliveryCount : ∀ record ∈ queue.records,
    record.deliveryCount = (handOutsOf record.taskId deeds).length

/-- Leases are exclusive, whatever is done to the queue, in any order and at any time. -/
theorem Log.exclusive (log : Log deeds queue) : Exclusive deeds queue where
  claimed := fun _ _ _ _ h => log.accounts.handsOut h
  nothing := fun _ _ _ _ h => isNext_of_nothing h
  rejected := by
    intro first second task deed hsplit htask hdeed hlater
    have accounts := log.accounts
    rw [hsplit] at accounts
    exact accounts.rejects htask hdeed hlater
  gone := by
    intro taskId token hgone
    obtain ⟨error, herror⟩ := @held_eq_error queue taskId token (by
      intro record hmem hid
      exact absurd (hid ▸ List.mem_map_of_mem hmem) hgone)
    exact rejects_of_held herror
  lost := fun _ _ _ hmem hgone => log.accounts.wellKept.ends hmem hgone
  cancelled := fun _ _ _ _ _ _ h => log.accounts.reply h
  deliveryCount := log.accounts.deliveryCount

def performAll (queue : TaskQueue) (acts : List (Act × Instant)) : TaskQueue :=
  acts.foldl (fun queue act => queue.perform act.1 act.2) queue

def deedsOf (queue : TaskQueue) : List (Act × Instant) → List Deed
  | [] => []
  | (act, now) :: rest => ⟨act, now, queue⟩ :: deedsOf (queue.perform act now) rest

theorem Log.performAll (log : Log deeds queue) (acts : List (Act × Instant)) :
    Log (deeds ++ queue.deedsOf acts) (queue.performAll acts) := by
  induction acts generalizing deeds queue with
  | nil => simpa [deedsOf, TaskQueue.performAll] using log
  | cons act rest ih =>
      have hrest := ih (log.deed act.1 act.2)
      rw [List.append_assoc] at hrest
      exact hrest

/-- A courier loses a delivery that was called off to another one. -/
def relay : List (Act × Instant) :=
  let work : ActivityTask := ⟨⟨"orders", .nil⟩, "delivery", "deliver", .null, .standard, 1⟩
  let request : PollRequest :=
    ⟨"default", .activity, [], "courier", .ofSeconds 30, .zero⟩
  [(.enqueue ⟨"default", .activity work, .zero⟩, ⟨0, 0⟩), (.claim request, ⟨0, 0⟩),
    (.cancelActivity work.run "delivery", ⟨10, 0⟩), (.claim request, ⟨20, 0⟩),
    (.claim request, ⟨30, 0⟩)]

theorem relay_exclusive :
    Log (empty.deedsOf relay) (empty.performAll relay) ∧
      (handOuts (empty.deedsOf relay)).map LeasedTask.token = [leaseToken 0, leaseToken 1] ∧
      Exclusive (empty.deedsOf relay) (empty.performAll relay) := by
  have log : Log (empty.deedsOf relay) (empty.performAll relay) := Log.start.performAll relay
  exact ⟨log, by decide, log.exclusive⟩

/-! ## The acts of a store -/

theorem performAll_append (queue : TaskQueue) (first second : List (Act × Instant)) :
    queue.performAll (first ++ second) = (queue.performAll first).performAll second :=
  List.foldl_append

theorem performAll_of_wakes {before after : TaskQueue}
    (wakes : ReflTransGen Wakes before after) : ∃ acts, after = before.performAll acts := by
  induction wakes with
  | refl => exact ⟨[], rfl⟩
  | tail _ wake ih =>
      obtain ⟨acts, rfl⟩ := ih
      obtain ⟨task, now, -, -, -, rfl⟩ := wake
      exact ⟨acts ++ [(.enqueue task, now)], by rw [performAll_append]; rfl⟩

theorem ownTasks_eq (commit : Commit) (ref : RunRef) (now : Instant) (queue : TaskQueue) :
    commit.ownTasks ref now queue = queue.performAll
      (commit.tasks.map (fun task => (.enqueue task, now)) ++
        commit.cancelledActivities.map (fun activityId => (.cancelActivity ref activityId, now)) ++
        if commit.closing.isSome then [(.purge ref, now)] else []) := by
  rw [performAll_append, performAll_append]
  simp only [performAll, List.foldl_map, Commit.ownTasks, enqueueAll, cancelActivities]
  cases commit.closing <;> rfl

end TaskQueue

end Chronicle
