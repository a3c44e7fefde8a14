import Mathlib.Algebra.GroupWithZero.Nat
import Mathlib.Algebra.Order.BigOperators.Group.List
import Mathlib.Algebra.Order.Group.Nat
import Chronicle.Proofs.Engine.FiredTimers

/-!
# Draining the due timers

A timer service that takes at least one timer at a time comes to an end: of the timers that fire,
only those for an attempt lead to another timer, which leads to none.
-/

namespace Chronicle

open Relation (ReflTransGen)

/-! ## Weights -/

/-- How many timers can fire at most on account of one: the end of an attempt can begin another
wait for a worker. -/
def TimerPurpose.weight : TimerPurpose → Nat
  | .activityAttempt .. | .activityHeartbeat .. => 2
  | .workflowTimer _ | .activityPickup _ | .runTimeout => 1

def Timer.weight (timer : Timer) : Nat := timer.purpose.weight

theorem TimerPurpose.weight_pos (purpose : TimerPurpose) : 0 < purpose.weight := by
  unfold weight
  split <;> decide

theorem Timer.weight_le (timer : Timer) : timer.weight ≤ 2 := by
  unfold weight TimerPurpose.weight
  split <;> decide

namespace TimerQueue

variable {queue : TimerQueue}

def weight (queue : TimerQueue) : Nat := (queue.timers.map Timer.weight).sum

theorem weight_le (queue : TimerQueue) : queue.weight ≤ 2 * queue.count := by
  unfold weight timers count
  induction queue.live with
  | nil => exact Nat.le_refl _
  | cons entry rest ih =>
      have hfirst := entry.2.weight_le
      simp only [List.map_cons, List.sum_cons, List.length_cons]
      omega

theorem sum_weight_le {first second : List Timer} (h : first.Sublist second) :
    (first.map Timer.weight).sum ≤ (second.map Timer.weight).sum :=
  (h.map Timer.weight).sum_le_sum fun _ _ => Nat.zero_le _

theorem weight_cancelAll (run : RunRef) (purposes : List TimerPurpose) (queue : TimerQueue) :
    (queue.cancelAll run purposes).weight ≤ queue.weight := by
  induction purposes generalizing queue with
  | nil => exact Nat.le_refl _
  | cons purpose rest ih =>
      refine Nat.le_trans (ih (queue.cancel run purpose)) (sum_weight_le ?_)
      rw [timers_cancel]
      exact List.filter_sublist

theorem weight_scheduleAll (timers : List Timer) (queue : TimerQueue) :
    (timers.foldl schedule queue).weight ≤ queue.weight + (timers.map Timer.weight).sum := by
  induction timers generalizing queue with
  | nil => exact Nat.le_refl _
  | cons timer rest ih =>
      have hrest := ih (queue.schedule timer)
      have hkept := @sum_weight_le (queue.timers.filter fun other => other.key != timer.key) _
        List.filter_sublist
      have hfirst : (queue.schedule timer).weight ≤ queue.weight + timer.weight := by
        simp only [weight, timers_schedule, List.map_append, List.sum_append, List.map_cons,
          List.map_nil, List.sum_cons, List.sum_nil]
        omega
      simp only [List.foldl_cons, List.map_cons, List.sum_cons]
      omega

theorem WellKept.weight_popDue (wellKept : queue.WellKept) (now : Instant) (limit : Nat) :
    queue.weight =
      ((queue.popDue now limit).2.map Timer.weight).sum + (queue.popDue now limit).1.weight := by
  have hperm := (wellKept.popDue_perm now limit).map Timer.weight
  rw [List.map_append] at hperm
  exact hperm.sum_eq.trans List.sum_append

end TimerQueue

theorem Commit.weight_ownTimers (commit : Commit) (ref : RunRef) (queue : TimerQueue) :
    (commit.ownTimers ref queue).weight ≤ queue.weight + (commit.timers.map Timer.weight).sum := by
  have hkept := Nat.le_trans (TimerQueue.weight_cancelAll ref commit.cancelledTimers _)
    (TimerQueue.weight_scheduleAll commit.timers queue)
  unfold ownTimers
  simp only
  split
  · refine Nat.le_trans (TimerQueue.sum_weight_le ?_) hkept
    rw [TimerQueue.timers_purge]
    exact List.filter_sublist
  · exact hkept

/-! ## What firing adds -/

theorem sum_weight_retryTimers (run : Run) (state : ActivityState) (activityId : String)
    (delay : Span) (now : Instant) :
    ((retryTimers run state activityId delay now).map Timer.weight).sum ≤ 1 := by
  unfold retryTimers
  cases state.options.pickupTimeout with
  | none => exact Nat.zero_le 1
  | some timeout => exact Nat.le_refl 1

theorem AttemptOutcome.weight_of_writes {activityId : String} {attempt : Nat}
    {outcome : AttemptOutcome} {run : Run} {history : List HistoryEvent} {commit : Commit}
    (hwrites : (reviser activityId attempt outcome run (.ofHistory history)).Writes commit) :
    (commit.timers.map Timer.weight).sum ≤ 1 := by
  obtain ⟨state, event, -, ⟨-, rfl⟩ | ⟨delay, now, -, rfl⟩⟩ := reviser_cases hwrites
  · exact Nat.zero_le 1
  · exact sum_weight_retryTimers run state activityId delay now

/-- A timer that fires schedules less than itself. -/
theorem TimerPurpose.weight_of_writes {purpose : TimerPurpose} {run : Run}
    {history : List HistoryEvent} {commit : Commit}
    (hwrites : (purpose.reviser run (.ofHistory history)).Writes commit) :
    (commit.timers.map Timer.weight).sum < purpose.weight := by
  rcases timers_of_writes hwrites with ⟨hnone, -⟩ | ⟨activityId, attempt, hpurpose, -⟩
  · rw [hnone]
    exact purpose.weight_pos
  · rcases AttemptOutcome.mem_attemptTimers.1 hpurpose with rfl | rfl
    · exact Nat.lt_succ_of_le (AttemptOutcome.weight_of_writes hwrites)
    · exact Nat.lt_succ_of_le (AttemptOutcome.weight_of_writes hwrites)

namespace Store

variable {store : Store}

theorem weight_fire (store : Store) (now : Instant) (timer : Timer) :
    (store.fire now timer).timers.weight + 1 ≤ store.timers.weight + timer.weight := by
  have hpos : 0 < timer.weight := timer.purpose.weight_pos
  rcases store.fire_timers now timer with ⟨hsame, -⟩ | ⟨commit, heffect, htimers⟩
  · rw [hsame]
    omega
  · obtain ⟨record, -, -, hwrites⟩ := Timer.effect?_eq_some.1 heffect
    have hcommit := commit.weight_ownTimers timer.run store.timers
    have hless : (commit.timers.map Timer.weight).sum < timer.weight :=
      TimerPurpose.weight_of_writes (Revision.writes_of_commitAt? hwrites)
    rw [htimers]
    omega

theorem weight_fireAll (store : Store) (now : Instant) (due : List Timer) :
    (store.fireAll now due).timers.weight + due.length ≤
      store.timers.weight + (due.map Timer.weight).sum := by
  induction due generalizing store with
  | nil => exact Nat.le_refl _
  | cons timer rest ih =>
      have hfirst := store.weight_fire now timer
      have hrest := ih (store.fire now timer)
      simp only [fireAll, List.foldl_cons, List.length_cons, List.map_cons, List.sum_cons] at hrest ⊢
      omega

/-! ## Batches -/

/-- The store after a batch of due timers has fired. -/
def batch (store : Store) (now : Instant) (size : Nat) : Store :=
  (store.popDueTimers now size).1.fireAll now (store.popDueTimers now size).2

theorem batch_timerSteps (store : Store) (now : Instant) (size : Nat) :
    ReflTransGen TimerQueue.Step store.timers (store.batch now size).timers := by
  have popped : TimerQueue.Step store.timers (store.popDueTimers now size).1.timers :=
    .popped now size
  exact (ReflTransGen.single popped).trans (fireAll_timerSteps _ now _)

theorem weight_batch (wellKept : store.timers.WellKept) (now : Instant) (size : Nat) :
    (store.batch now size).timers.weight + (store.popDueTimers now size).2.length ≤
      store.timers.weight := by
  rw [wellKept.weight_popDue now size, Nat.add_comm _ (TimerQueue.weight _)]
  exact weight_fireAll _ now _

/-- After a batch that is not full, no timer is left that was due before. -/
theorem batch_exhausts (sound : store.timers.Sound) {now : Instant} {size : Nat}
    (hshort : (store.popDueTimers now size).2.length < size) {entry : Nat × Timer}
    (hold : entry ∈ store.timers.live) (hlater : entry ∈ (store.batch now size).timers.live) :
    now < entry.2.fireAt := by
  obtain ⟨taken, hdue, takes⟩ := sound.wellKept.popDue_spec sound.ordered now size
  have hdues : (store.popDueTimers now size).2 = taken.map Prod.snd := hdue
  rw [hdues, List.length_map] at hshort
  have popped : TimerQueue.Step store.timers (store.popDueTimers now size).1.timers :=
    .popped now size
  have early := sound.extends_step popped
  have late := (sound.step popped).extends_steps
    (fireAll_timerSteps _ now (store.popDueTimers now size).2)
  exact takes.exhausted hshort entry (sound.mem_of_extends early late hold hlater)

/-- No timer is due. -/
def AtRest (store : Store) (now : Instant) : Prop :=
  ∀ entry ∈ store.timers.live, now < entry.2.fireAt

theorem atRest_batch (sound : store.timers.Sound) {now : Instant} {size : Nat} (hsize : size ≠ 0)
    (hnone : (store.popDueTimers now size).2.length = 0) : (store.batch now size).AtRest now := by
  obtain ⟨taken, hdue, takes⟩ := sound.wellKept.popDue_spec sound.ordered now size
  have hdues : (store.popDueTimers now size).2 = taken.map Prod.snd := hdue
  rw [hdues, List.length_map] at hnone
  have hbatch : store.batch now size = (store.popDueTimers now size).1 := by
    rw [batch, hdues, List.eq_nil_of_length_eq_zero hnone]
    rfl
  rw [hbatch]
  exact takes.exhausted (by omega)

/-- Some number of batches. -/
abbrev Batches (now : Instant) (size : Nat) : Store → Store → Prop :=
  ReflTransGen fun before after => after = before.batch now size

theorem Batches.timerSteps {now : Instant} {size : Nat} {after : Store}
    (batches : Batches now size store after) :
    ReflTransGen TimerQueue.Step store.timers after.timers := by
  induction batches with
  | refl => exact .refl
  | tail _ batch ih => exact ih.trans (batch ▸ batch_timerSteps _ now size)

end Store

namespace TimerService

variable {service : TimerService} {world : World} {now : Instant}

theorem drain_succ (service : TimerService) (hnow : world.now = some now) (limit fired : Nat) :
    (service.drain (limit + 1) fired).run World.answer world =
      let taken := (world.store.popDueTimers now service.config.batchSize).2.length
      let after := { world with store := world.store.batch now service.config.batchSize }
      if taken < service.config.batchSize then (.ok (.ok (fired + taken)), after)
      else (service.drain limit (fired + taken)).run World.answer after := by
  have hclock : World.answer .now world = (.ok now, world) := by
    simp [World.answer, World.timed, World.timeless, hnow]
  have hpopped : World.answer (.popDueTimers now service.config.batchSize) world =
      (.ok (.ok (world.store.popDueTimers now service.config.batchSize).2),
        { world with store := (world.store.popDueTimers now service.config.batchSize).1 }) := rfl
  have hfired := @fireAll_eq now service
    { world with store := (world.store.popDueTimers now service.config.batchSize).1 } hnow
    (world.store.popDueTimers now service.config.batchSize).2
  rw [drain, Program.run_request hclock, Program.run_request hpopped]
  simp only
  rw [Program.run_bind hfired]
  simp only
  split <;> rfl

/-- Each full batch takes at least its size off the weight of the timers. -/
theorem drain_run_batches (hnow : world.now = some now) (hbatch : service.config.batchSize ≠ 0)
    (sound : world.store.timers.Sound) (limit fired : Nat)
    (hlimit : world.store.timers.weight < limit) :
    ∃ count after, (service.drain limit fired).run World.answer world =
        (.ok (.ok (fired + count)), { world with store := after }) ∧
      Store.Batches now service.config.batchSize world.store after ∧
      after.timers.weight + count ≤ world.store.timers.weight ∧ (count = 0 → after.AtRest now) ∧
      ∀ entry ∈ world.store.timers.live, entry ∈ after.timers.live → now < entry.2.fireAt := by
  induction limit generalizing world fired with
  | zero => exact absurd hlimit (Nat.not_lt_zero _)
  | succ limit ih =>
      have hweight := Store.weight_batch sound.wellKept now service.config.batchSize
      rw [service.drain_succ hnow]
      simp only
      split
      case isTrue hshort =>
        exact ⟨_, _, rfl, .single rfl, hweight, Store.atRest_batch sound hbatch,
          fun entry hold hlater => Store.batch_exhausts sound hshort hold hlater⟩
      case isFalse hfull =>
        -- the batch was full, so the weight has gone down and the next round has limit enough
        have hsteps := world.store.batch_timerSteps now service.config.batchSize
        obtain ⟨count, after, hrun, batches, hless, -, hdue⟩ := @ih
          { world with store := world.store.batch now service.config.batchSize } hnow
          (sound.steps hsteps)
          (fired + (world.store.popDueTimers now service.config.batchSize).2.length)
          (by simp only; omega)
        refine ⟨(world.store.popDueTimers now service.config.batchSize).2.length + count, after,
          by rw [hrun, Nat.add_assoc], .head rfl batches, ?_, fun _ => by omega,
          fun entry hold hlater => ?_⟩
        · simp only at hless
          omega
        refine hdue entry (sound.mem_of_extends (sound.extends_steps hsteps) ?_ hold hlater) hlater
        exact (sound.steps hsteps).extends_steps batches.timerSteps

/-- The service comes to an end, and then no timer is left that was due when it began. -/
def Drains (service : TimerService) (world : World) (now : Instant) (limit : Nat) : Prop :=
  ∃ count after, (service.drain limit 0).run World.answer world = (.ok (.ok count), after) ∧
    ∀ entry ∈ world.store.timers.live, ¬ now < entry.2.fireAt → entry ∉ after.store.timers.live

theorem drains (hnow : world.now = some now) (hbatch : service.config.batchSize ≠ 0)
    (sound : world.store.timers.Sound) {limit : Nat} (hlimit : world.store.timers.weight < limit) :
    service.Drains world now limit := by
  obtain ⟨count, after, hrun, -, -, -, hdue⟩ := drain_run_batches hnow hbatch sound limit 0 hlimit
  exact ⟨_, _, hrun, fun entry hold due hlater => due (hdue entry hold hlater)⟩

/-- A batch of no timers is always full. -/
theorem drain_endless (hnow : world.now = some now) (hbatch : service.config.batchSize = 0)
    (limit fired : Nat) :
    ((service.drain limit fired).run World.answer world).1 = .error .endless := by
  induction limit generalizing world fired with
  | zero => rfl
  | succ limit ih =>
      rw [service.drain_succ hnow]
      simp only
      rw [if_neg (by omega)]
      exact @ih { world with store := world.store.batch now service.config.batchSize } hnow _

end TimerService

end Chronicle
