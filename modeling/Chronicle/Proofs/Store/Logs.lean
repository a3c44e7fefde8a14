import Mathlib.Data.List.Nodup
import Chronicle.Proofs.Store.Applying
import Chronicle.Proofs.Store.Deeds

/-!
# The task queue agrees with its log

Of each task the queue knows by whom it is held, how often it was handed out and whether it was
called off.  All of that can be read off the log of what was done to the queue, and nothing was
done about a task before it was enqueued.
-/

namespace Chronicle

open Relation (ReflTransGen)

namespace TaskQueue

/-! ## What a log says -/

/-- Ids of the tasks in the order in which they were enqueued. -/
def enqueuedIds (deeds : List Deed) : List Uuid := deeds.filterMap Deed.enqueued?

def handOuts (deeds : List Deed) : List LeasedTask := deeds.filterMap Deed.handedOut?

def handOutsOf (taskId : Uuid) (deeds : List Deed) : List LeasedTask :=
  (handOuts deeds).filter fun task => task.taskId = taskId

/-- Token of whom the task was handed out to last, unless it was given back since. -/
def holder (taskId : Uuid) (deeds : List Deed) : Option Uuid :=
  deeds.foldl (Deed.transfer taskId) none

variable {queue : TaskQueue} {act : Act} {now : Instant} {deeds : List Deed}

theorem enqueuedIds_concat (deeds : List Deed) (deed : Deed) :
    enqueuedIds (deeds ++ [deed]) = enqueuedIds deeds ++ deed.enqueued?.toList := by
  cases h : deed.enqueued? <;> simp [enqueuedIds, h]

theorem handOuts_append (first second : List Deed) :
    handOuts (first ++ second) = handOuts first ++ handOuts second := List.filterMap_append

theorem length_handOutsOf_concat (taskId : Uuid) (deeds : List Deed) (deed : Deed) :
    (handOutsOf taskId (deeds ++ [deed])).length =
      (handOutsOf taskId deeds).length + if deed.handsOut taskId then 1 else 0 := by
  cases h : deed.handedOut? with
  | none => simp [handOutsOf, handOuts, Deed.handsOut, h]
  | some task =>
      by_cases hid : task.taskId = taskId <;>
        simp [handOutsOf, handOuts, Deed.handsOut, h, hid]

theorem holder_concat (taskId : Uuid) (deeds : List Deed) (deed : Deed) :
    holder taskId (deeds ++ [deed]) = deed.transfer taskId (holder taskId deeds) := by
  simp [holder]

theorem mem_handOutsOf {taskId : Uuid} {task : LeasedTask} (h : task ∈ handOutsOf taskId deeds) :
    ∃ deed ∈ deeds, deed.handsOut taskId = true := by
  obtain ⟨hmem, hid⟩ := List.mem_filter.1 h
  obtain ⟨deed, hdeed, hhanded⟩ := List.mem_filterMap.1 hmem
  exact ⟨deed, hdeed, by simpa [Deed.handsOut, hhanded] using hid⟩

theorem Deed.released?_of_handedOut? {deed : Deed} {task : LeasedTask}
    (h : deed.handedOut? = some task) : deed.released? = none := by
  obtain ⟨act, now, queue⟩ := deed
  cases act with
  | claim request => rfl
  | _ => cases h

/-- Whoever holds a task after some deeds got it from one of them, or held it before them and they
left it alone. -/
theorem foldl_transfer_cases {taskId token : Uuid} {start : Option Uuid}
    (h : deeds.foldl (Deed.transfer taskId) start = some token) :
    token ∈ (handOutsOf taskId deeds).map LeasedTask.token ∨
      (start = some token ∧ ∀ deed ∈ deeds,
        deed.handsOut taskId = false ∧ deed.released? ≠ some taskId) := by
  induction deeds generalizing start with
  | nil => exact .inr ⟨h, by simp⟩
  | cons deed rest ih =>
      have hcons : handOutsOf taskId (deed :: rest) =
          handOutsOf taskId [deed] ++ handOutsOf taskId rest := by
        rw [← List.singleton_append, handOutsOf, handOuts_append, List.filter_append]
        rfl
      rw [hcons, List.map_append]
      -- if no later act has moved the lease, this one has handed it out or left it alone
      rcases ih h with hlater | ⟨hnow, hrest⟩
      · exact .inl (List.mem_append_right _ hlater)
      · cases hhands : deed.handsOut taskId with
        | true =>
            cases htask : deed.handedOut? with
            | none => simp [Deed.handsOut, htask] at hhands
            | some task =>
                have hid : task.taskId = taskId := by simpa [Deed.handsOut, htask] using hhands
                simp only [Deed.transfer, htask, hid, if_true, Option.some.injEq] at hnow
                left
                simp [handOutsOf, handOuts, htask, hid, hnow]
        | false =>
            by_cases hreleased : deed.released? = some taskId
            · cases htask : deed.handedOut? with
              | none => simp [Deed.transfer, htask, hreleased] at hnow
              | some task => simp [Deed.released?_of_handedOut? htask] at hreleased
            · rw [Deed.transfer_eq_of_other hhands hreleased] at hnow
              exact .inr ⟨hnow, List.forall_mem_cons.2 ⟨⟨hhands, hreleased⟩, hrest⟩⟩

/-- The deed is about the task. -/
def Deed.Concerns (deed : Deed) (taskId : Uuid) : Prop :=
  deed.handsOut taskId = true ∨ deed.released? = some taskId ∨ deed.flags taskId = true

theorem Deed.Concerns.mem {deed : Deed} {taskId : Uuid} (concerns : deed.Concerns taskId) :
    taskId ∈ deed.before.records.map TaskRecord.taskId := by
  obtain ⟨act, now, queue⟩ := deed
  rcases concerns with hhanded | hreleased | hflags
  · cases act with
    | claim request =>
        simp only [Deed.handsOut, Deed.handedOut?, claim] at hhanded
        split at hhanded
        · rename_i task htask
          split at htask
          · cases htask
          · rename_i record hfound
            cases htask
            have hid : record.taskId = taskId := by simpa using hhanded
            exact hid ▸ List.mem_map_of_mem
              (List.mem_of_mem_filter (List.mem_of_find?_eq_some hfound))
        · cases hhanded
    | _ => cases hhanded
  · cases act with
    | fail given token reason delay =>
        simp only [Deed.released?] at hreleased
        split at hreleased
        · rename_i record hheld
          cases hreleased
          obtain ⟨hmem, hid, -⟩ := holds_of_held hheld
          obtain ⟨found, hfound, hslot⟩ := List.mem_map.1 hmem
          rw [← hid, ← hslot]
          exact List.mem_map_of_mem hfound
        · cases hreleased
    | _ => cases hreleased
  · simp only [Deed.flags, List.any_eq_true, Bool.and_eq_true, decide_eq_true_eq] at hflags
    obtain ⟨record, hmem, ⟨hid, -⟩, -⟩ := hflags
    exact hid ▸ List.mem_map_of_mem hmem

/-! ## The queue agrees with its log -/

theorem perform_step (queue : TaskQueue) (act : Act) (now : Instant) :
    ReflTransGen Step queue (queue.perform act now) := by
  cases act with
  | enqueue task => exact .single (.enqueued queue task now)
  | claim request =>
      cases hclaim : queue.claim request now with
      | mk after answer =>
          cases answer with
          | claimed task =>
              simp only [perform, hclaim]
              exact .single (.claimed hclaim)
          | nothing next =>
              simp only [perform, hclaim, claim_nothing hclaim]
              exact .refl
  | complete taskId token =>
      simp only [perform]
      split
      · rename_i after h
        exact .single (.completed h)
      · exact .refl
  | fail taskId token reason delay =>
      simp only [perform]
      split
      · rename_i after h
        exact .single (.failed h)
      · exact .refl
  | heartbeat taskId token extension =>
      simp only [perform]
      split
      · rename_i after reply h
        exact .single (.extended h)
      · exact .refl
  | cancelActivity run activityId =>
      exact .single (.withdrawn queue fun work => work.isActivityOf run activityId)
  | purge run => exact .single (.withdrawn queue fun work => work.run = run)

def ids (queue : TaskQueue) : List Uuid := queue.records.map TaskRecord.taskId

theorem ids_eq (queue : TaskQueue) : queue.ids = queue.slots.map TaskSlot.taskId := by
  simp [ids, slots, TaskRecord.slot, Function.comp_def]

/-- What a deed does to the supply of task ids and of lease tokens. -/
inductive Deed.Supplies (deed : Deed) : Prop where
  | enqueued (enqueued : deed.enqueued? = some (taskId deed.before.issued))
      (handedOut : deed.handedOut? = none)
      (ids : deed.after.ids = deed.before.ids ++ [taskId deed.before.issued])
      (issued : deed.after.issued = deed.before.issued + 1)
      (granted : deed.after.granted = deed.before.granted)
  | handedOut (task : LeasedTask) (enqueued : deed.enqueued? = none)
      (handedOut : deed.handedOut? = some task)
      (token : task.token = leaseToken deed.before.granted)
      (ids : deed.after.ids = deed.before.ids) (issued : deed.after.issued = deed.before.issued)
      (granted : deed.after.granted = deed.before.granted + 1)
  | neither (enqueued : deed.enqueued? = none) (handedOut : deed.handedOut? = none)
      (ids : deed.after.ids.Sublist deed.before.ids)
      (issued : deed.after.issued = deed.before.issued)
      (granted : deed.after.granted = deed.before.granted)

theorem Deed.Supplies.nothing {deed : Deed} (henqueued : deed.enqueued? = none)
    (hhanded : deed.handedOut? = none) (h : deed.after = deed.before) : deed.Supplies :=
  .neither henqueued hhanded (h ▸ .refl _) (h ▸ rfl) (h ▸ rfl)

namespace Deed.Supplies

variable {deed : Deed}

theorem order (supplies : deed.Supplies) :
    deed.after.ids.Sublist (deed.before.ids ++ deed.enqueued?.toList) := by
  cases supplies with
  | enqueued henqueued hhanded hids => simp [henqueued, hids]
  | handedOut task henqueued hhanded htoken hids => simp [hids]
  | neither henqueued hhanded hids => exact hids.trans (List.sublist_append_left _ _)

theorem issuedIds (supplies : deed.Supplies) :
    (List.range deed.after.issued).map taskId =
      (List.range deed.before.issued).map taskId ++ deed.enqueued?.toList := by
  cases supplies with
  | enqueued henqueued hhanded hids hissued => simp [henqueued, hissued, List.range_succ]
  | handedOut task henqueued hhanded htoken hids hissued => simp [henqueued, hissued]
  | neither henqueued hhanded hids hissued => simp [henqueued, hissued]

theorem grantedTokens (supplies : deed.Supplies) :
    (List.range deed.after.granted).map leaseToken =
      (List.range deed.before.granted).map leaseToken ++
        deed.handedOut?.toList.map LeasedTask.token := by
  cases supplies with
  | enqueued henqueued hhanded hids hissued hgranted => simp [hhanded, hgranted]
  | handedOut task henqueued hhanded htoken hids hissued hgranted =>
      simp [hhanded, hgranted, htoken, List.range_succ]
  | neither henqueued hhanded hids hissued hgranted => simp [hhanded, hgranted]

end Deed.Supplies

/-- Tasks may go, but no id or token is given out. -/
theorem Deed.Supplies.kept {deed : Deed} (henqueued : deed.enqueued? = none)
    (hhanded : deed.handedOut? = none)
    (hslots : (deed.after.slots.map TaskSlot.taskId).Sublist
      (deed.before.slots.map TaskSlot.taskId))
    (hissued : deed.after.issued = deed.before.issued)
    (hgranted : deed.after.granted = deed.before.granted) : deed.Supplies :=
  .neither henqueued hhanded (by rwa [ids_eq, ids_eq]) hissued hgranted

section Acts

variable (queue : TaskQueue) (taskId token : Uuid) (now : Instant)

theorem enqueue_supplies (task : NewTask) : (Deed.mk (.enqueue task) now queue).Supplies := by
  have hid : (queue.enqueue task now).2 =
      if queue.isCovered task.work then none else some (TaskQueue.taskId queue.issued) := by
    unfold TaskQueue.enqueue
    simp only
    split <;> rfl
  have hgranted := queue.enqueue_granted task now
  rcases queue.enqueue_cases task now with
    ⟨hcovered, hslots, hissued⟩ | ⟨hfree, hslots, hissued⟩
  · rw [hcovered, if_pos rfl] at hid
    refine .kept hid rfl ?_ hissued hgranted
    show ((queue.enqueue task now).1.slots.map TaskSlot.taskId).Sublist _
    rw [hslots]
  · rw [hfree, if_neg Bool.false_ne_true] at hid
    refine .enqueued hid rfl ?_ hissued hgranted
    show (queue.enqueue task now).1.ids = queue.ids ++ [TaskQueue.taskId queue.issued]
    rw [ids_eq, ids_eq, hslots, List.map_append]
    rfl

theorem claim_supplies (request : PollRequest) :
    (Deed.mk (.claim request) now queue).Supplies := by
  cases hclaim : queue.claim request now with
  | mk after answer =>
      have hafter : (Deed.mk (.claim request) now queue).after = after := by
        simp [Deed.after, perform, hclaim]
      cases answer with
      | claimed task =>
          obtain ⟨-, htoken, hslots, hissued, hgranted⟩ := claim_claimed hclaim
          refine .handedOut task rfl (by simp [Deed.handedOut?, hclaim]) htoken ?_
            (hafter ▸ hissued) (hafter ▸ hgranted)
          rw [hafter, ids_eq, hslots, map_taskId_regrant, ← ids_eq]
      | nothing next =>
          exact .nothing rfl (by simp [Deed.handedOut?, hclaim])
            (hafter.trans (claim_nothing hclaim))

theorem complete_supplies : (Deed.mk (.complete taskId token) now queue).Supplies := by
  cases hdone : queue.complete taskId token with
  | error error => exact .nothing rfl rfl (by simp [Deed.after, perform, hdone])
  | ok after =>
      have hafter : (Deed.mk (.complete taskId token) now queue).after = after := by
        simp [Deed.after, perform, hdone]
      obtain ⟨-, -, hslots, hissued, hgranted⟩ := complete_ok hdone
      refine .kept rfl rfl ?_ (hafter ▸ hissued) (hafter ▸ hgranted)
      rw [hafter, hslots]
      exact List.filter_sublist.map _

theorem fail_supplies (reason : String) (delay : Span) :
    (Deed.mk (.fail taskId token reason delay) now queue).Supplies := by
  cases hfailed : queue.fail taskId token reason delay now with
  | error error => exact .nothing rfl rfl (by simp [Deed.after, perform, hfailed])
  | ok after =>
      have hafter : (Deed.mk (.fail taskId token reason delay) now queue).after = after := by
        simp [Deed.after, perform, hfailed]
      obtain ⟨slot, -, hslots, hissued, hgranted⟩ := fail_ok hfailed
      refine .kept rfl rfl ?_ (hafter ▸ hissued) (hafter ▸ hgranted)
      rw [hafter, hslots]
      -- a task that is covered by another one of its run is not given back, it goes
      split
      · exact List.filter_sublist.map _
      · rw [map_taskId_regrant]

theorem heartbeat_supplies (extension : Span) :
    (Deed.mk (.heartbeat taskId token extension) now queue).Supplies := by
  cases hbeat : queue.heartbeat taskId token extension now with
  | error error => exact .nothing rfl rfl (by simp [Deed.after, perform, hbeat])
  | ok answer =>
      obtain ⟨after, reply⟩ := answer
      have hafter : (Deed.mk (.heartbeat taskId token extension) now queue).after = after := by
        simp [Deed.after, perform, hbeat]
      obtain ⟨hslots, hissued, hgranted⟩ := heartbeat_ok hbeat
      refine .kept rfl rfl ?_ (hafter ▸ hissued) (hafter ▸ hgranted)
      rw [hafter, hslots]

theorem withdraw_supplies {act : Act} (selected : Work → Bool)
    (henqueued : (Deed.mk act now queue).enqueued? = none)
    (hhanded : (Deed.mk act now queue).handedOut? = none)
    (hafter : (Deed.mk act now queue).after = queue.withdraw selected) :
    (Deed.mk act now queue).Supplies := by
  refine .kept henqueued hhanded ?_ (hafter ▸ rfl) (hafter ▸ rfl)
  rw [hafter, slots_withdraw]
  exact List.filter_sublist.map _

end Acts

theorem Deed.supplies (deed : Deed) : deed.Supplies := by
  obtain ⟨act, now, queue⟩ := deed
  cases act with
  | enqueue task => exact enqueue_supplies queue now task
  | claim request => exact claim_supplies queue now request
  | complete taskId token => exact complete_supplies queue taskId token now
  | fail taskId token reason delay => exact fail_supplies queue taskId token now reason delay
  | heartbeat taskId token extension => exact heartbeat_supplies queue taskId token now extension
  | cancelActivity run activityId =>
      exact withdraw_supplies queue now (fun work => work.isActivityOf run activityId) rfl rfl rfl
  | purge run => exact withdraw_supplies queue now (fun work => work.run = run) rfl rfl rfl

/-- The log accounts for the ids and the tokens that were handed out, and for every record. -/
structure Accounts (deeds : List Deed) (queue : TaskQueue) : Prop where
  wellKept : queue.WellKept
  enqueued : enqueuedIds deeds = (List.range queue.issued).map taskId
  granted : (handOuts deeds).map LeasedTask.token = (List.range queue.granted).map leaseToken
  order : queue.ids.Sublist (enqueuedIds deeds)
  known : ∀ deed ∈ deeds, ∀ taskId, deed.Concerns taskId → taskId ∈ enqueuedIds deeds
  token : ∀ record ∈ queue.records, record.lease.map Lease.token = holder record.taskId deeds
  deliveryCount : ∀ record ∈ queue.records,
    record.deliveryCount = (handOutsOf record.taskId deeds).length
  cancelRequested : ∀ record ∈ queue.records,
    record.cancelRequested = deeds.any fun deed => deed.flags record.taskId

theorem Accounts.start : Accounts [] .empty where
  wellKept := ⟨by simp [slots, empty], by simp [slots, empty], by simp [slots, empty],
    by simp [slots, empty]⟩
  enqueued := rfl
  granted := rfl
  order := .refl _
  known := by simp
  token := by simp [empty]
  deliveryCount := by simp [empty]
  cancelRequested := by simp [empty]

/-- Nothing was done about a task that was not enqueued yet. -/
theorem Accounts.fresh (accounts : Accounts deeds queue) (act : Act) (now : Instant) :
    ∀ deed ∈ deeds ++ [⟨act, now, queue⟩], ¬deed.Concerns (taskId queue.issued) := by
  intro deed hmem hconcerns
  have hknown : taskId queue.issued ∈ enqueuedIds deeds := by
    rcases List.mem_append.1 hmem with hold | hnew
    · exact accounts.known deed hold _ hconcerns
    · rw [List.mem_singleton.1 hnew] at hconcerns
      exact accounts.order.subset hconcerns.mem
  rw [accounts.enqueued] at hknown
  obtain ⟨number, hlt, hid⟩ := List.mem_map.1 hknown
  have hsame := taskId_injective hid
  rw [List.mem_range] at hlt
  omega

theorem unconcerned {taskId : Uuid} (h : ∀ deed ∈ deeds, ¬deed.Concerns taskId) :
    holder taskId deeds = none ∧ handOutsOf taskId deeds = [] ∧
      (deeds.any fun deed => deed.flags taskId) = false := by
  have hnone : handOutsOf taskId deeds = [] := by
    rw [List.eq_nil_iff_forall_not_mem]
    intro task hmem
    obtain ⟨deed, hdeed, hhands⟩ := mem_handOutsOf hmem
    exact h deed hdeed (.inl hhands)
  refine ⟨?_, hnone, ?_⟩
  · cases hholder : holder taskId deeds with
    | none => rfl
    | some token =>
        rcases foldl_transfer_cases hholder with hhanded | ⟨hstart, -⟩
        · simp [hnone] at hhanded
        · cases hstart
  · rw [List.any_eq_false]
    intro deed hdeed hflags
    exact h deed hdeed (.inr (.inr hflags))

theorem Accounts.deed (accounts : Accounts deeds queue) (act : Act) (now : Instant) :
    Accounts (deeds ++ [⟨act, now, queue⟩]) (queue.perform act now) := by
  have supplies := (Deed.mk act now queue).supplies
  have hfollows : ∀ record ∈ (queue.perform act now).records, _ :=
    fun record hmem => perform_follows accounts.wellKept hmem
  have hfresh := accounts.fresh act now
  constructor
  case wellKept => exact accounts.wellKept.steps (perform_step queue act now)
  case order =>
    rw [enqueuedIds_concat]
    exact supplies.order.trans (accounts.order.append (.refl _))
  case enqueued =>
    rw [enqueuedIds_concat, accounts.enqueued]
    exact supplies.issuedIds.symm
  case granted =>
    have hconcat : handOuts (deeds ++ [⟨act, now, queue⟩]) =
        handOuts deeds ++ (Deed.mk act now queue).handedOut?.toList := by
      cases h : (Deed.mk act now queue).handedOut? <;> simp [handOuts, h]
    rw [hconcat, List.map_append, accounts.granted]
    exact supplies.grantedTokens.symm
  case known =>
    intro deed hmem taskId hconcerns
    rw [enqueuedIds_concat]
    apply List.mem_append_left
    rcases List.mem_append.1 hmem with hold | hnew
    · exact accounts.known deed hold taskId hconcerns
    · rw [List.mem_singleton.1 hnew] at hconcerns
      exact accounts.order.subset hconcerns.mem
  case token =>
    intro record hmem
    rcases hfollows record hmem with ⟨before, hbefore, follows⟩ | ⟨hid, hlease, -, -⟩
    · rw [holder_concat, follows.token, follows.taskId, accounts.token before hbefore]
    · rw [hid, (unconcerned hfresh).1, hlease]
      rfl
  case deliveryCount =>
    intro record hmem
    rcases hfollows record hmem with ⟨before, hbefore, follows⟩ | ⟨hid, -, hcount, -⟩
    · rw [length_handOutsOf_concat, follows.deliveryCount, follows.taskId,
        accounts.deliveryCount before hbefore]
    · rw [hid, (unconcerned hfresh).2.1, hcount]
      rfl
  case cancelRequested =>
    intro record hmem
    rcases hfollows record hmem with ⟨before, hbefore, follows⟩ | ⟨hid, -, -, hcancel⟩
    · rw [follows.cancelRequested, follows.taskId, accounts.cancelRequested before hbefore]
      simp
    · rw [hid, (unconcerned hfresh).2.2, hcancel]

theorem Log.accounts (log : Log deeds queue) : Accounts deeds queue := by
  induction log with
  | start => exact .start
  | deed earlier act now ih => exact ih.deed act now

end TaskQueue

end Chronicle
