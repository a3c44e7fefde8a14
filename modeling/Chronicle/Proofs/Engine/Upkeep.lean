import Chronicle.Proofs.Engine.Moves

/-!
# What every move keeps

Task ids and leases stay in order, every task for an attempt is one that its run provides for, and
what the rules know of all runs stays true of them.
-/

namespace Chronicle

open Relation (ReflTransGen)

/-! ## Tasks for attempts -/

theorem Update.provides {fires : Prop} {run : Run} {history : List HistoryEvent} {commit : Commit}
    {task : NewTask} {work : ActivityTask} (update : Update fires run history commit)
    (hmem : task ∈ commit.tasks) (hwork : task.work = .activity work) (now : Instant)
    (eventId : Nat) :
    work.run = run.ref ∧ Provided (history ++ RunRecord.number now eventId commit.events) work := by
  have hwake : task ∈ [run.workflowTask] → False := by
    intro hmem
    rw [List.mem_singleton.1 hmem] at hwork
    cases hwork
  cases update with
  | reported report => exact (hwake hmem).elim
  | forced ends => cases hmem
  | started workerId later own provided attempted waits => cases hmem
  | beat details later own provided picked attempted => cases hmem
  | ended attempted picked ends => exact (hwake hmem).elim
  | @retried activityId attempt state event delay later attempted picked ends =>
      rw [List.mem_singleton.1 hmem, Work.activity.injEq] at hwork
      subst hwork
      refine ⟨rfl, ⟨state.taskQueue, ?_⟩, ?_⟩
      · rw [List.map_append]
        exact List.mem_append_left _ (Ledger.scheduled_of_activity? attempted.known)
      · intro once
        refine ⟨{ state with attempt := attempt + 1, started := false }, ?_, Nat.le_refl _⟩
        rw [Ledger.activity?_number, attempted.known]
        exact ends.follow_retry attempted.isOpen attempted.current
  | fired allowed pending => exact (hwake hmem).elim
  | missed allowed attempted waits => exact (hwake hmem).elim

theorem Engine.Decided.provisions {engine : Engine} {ref : RunRef} {run : Run}
    {history : List HistoryEvent} {commit : Commit} (decided : engine.Decided ref run history commit) :
    ∃ now, Decision.Provisions run (.ofHistory history) now commit := by
  obtain ⟨-, outcome, now, -, -, -, hyields⟩ := decided
  exact ⟨now, Decision.provisions_of_build hyields⟩

theorem Decision.Provisions.provides {run : Run} {ledger : Ledger} {built now : Instant}
    {history : List HistoryEvent} {commit : Commit} {task : NewTask} {work : ActivityTask}
    (provisions : Decision.Provisions run ledger built commit) (hmem : task ∈ commit.tasks)
    (hwork : task.work = .activity work) (eventId : Nat) :
    work.run = run.ref ∧ Provided (history ++ RunRecord.number now eventId commit.events) work := by
  obtain ⟨wakes, htasks, hwakes⟩ := provisions.tasks
  rw [htasks, List.mem_append] at hmem
  rcases hmem with hscheduled | hwake
  · obtain ⟨event, hevent, htask⟩ := List.mem_filterMap.1 hscheduled
    cases event with
    | activityScheduled activityId activityType input taskQueue options =>
        cases htask
        cases hwork
        have hrecorded : Event.activityScheduled activityId activityType input taskQueue options ∈
            (history ++ RunRecord.number now eventId commit.events).map HistoryEvent.event := by
          rw [List.map_append, RunRecord.map_event_number]
          exact List.mem_append_right _ hevent
        refine ⟨rfl, ⟨taskQueue, hrecorded⟩, ?_⟩
        intro once
        obtain ⟨state, hstate, -, -, -, -, hattempt⟩ :=
          Ledger.activity?_of_scheduled once hrecorded
        exact ⟨state, hstate, hattempt⟩
    | _ => cases htask
  · rcases hwakes with hone | ⟨hnone, -⟩
    · rw [hone] at hwake
      rw [List.mem_singleton.1 hwake] at hwork
      cases hwork
    · rw [hnone] at hwake
      cases hwake

/-- A task for an attempt comes with the commit that provides for it. -/
theorem Rules.Writes.provides {rules : Rules} {fires : Prop} {run : Run}
    {history : List HistoryEvent} {commit : Commit} {task : NewTask} {work : ActivityTask}
    (writes : rules.Writes fires run history commit) (hmem : task ∈ commit.tasks)
    (hwork : task.work = .activity work) (now : Instant) (eventId : Nat) :
    work.run = run.ref ∧ Provided (history ++ RunRecord.number now eventId commit.events) work := by
  rcases writes with update | ⟨engine, -, decided⟩
  · exact update.provides hmem hwork now eventId
  · obtain ⟨built, provisions⟩ := decided.provisions
    exact provisions.provides hmem hwork eventId

/-! ## Sane stores -/

/-- What has to hold of rules so that moves by them keep what they know. -/
structure Rules.Lawful (rules : Rules) : Prop where
  starts : ∀ new now, rules.keeps (.start new now)
  steps : ∀ before after, RunRecord.Step rules.Warrants Rules.announces before after →
    rules.keeps before → rules.keeps after
  idle : ∀ engine record outcome, rules.decides engine → rules.keeps record →
    replay engine.limits.replayLimit engine.registry record.run.ref record.events = .ok outcome →
    outcome.closed = true ∨ outcome.newCommands = [] →
    rules.settled record.run.ref record.events
  decided : ∀ engine record (run : Run) commit, rules.decides engine → rules.keeps record →
    engine.Decided record.run.ref run record.events commit →
    (∀ event ∈ commit.events, Decision.isRejection event = false) → ∀ now eventId,
    rules.settled record.run.ref
      (record.events ++ RunRecord.number now eventId commit.events)
  progress : ∀ record more, rules.keeps record → rules.settled record.run.ref record.events →
    (∀ event ∈ more, event.event.isProgress = true) →
    rules.settled record.run.ref (record.events ++ more)

theorem Rules.lax_lawful : Rules.lax.Lawful where
  starts := fun _ _ => trivial
  steps := fun _ _ _ _ => trivial
  idle := fun _ _ _ _ _ _ _ => trivial
  decided := fun _ _ _ _ _ _ _ _ _ _ => trivial
  progress := fun _ _ _ _ _ => trivial

structure Sane (rules : Rules) (store : Store) : Prop where
  tasks : store.tasks.WellKept
  provided : ∀ slot ∈ store.tasks.slots, ∀ work, slot.work = .activity work → store.Provides work
  keeps : ∀ ref record, store.runs.find? ref = some record → rules.keeps record

theorem Sane.move {rules : Rules} {fires : Prop} {before after : Store} (lawful : rules.Lawful)
    (sane : Sane rules before) (move : Move rules fires before after) : Sane rules after where
  tasks := sane.tasks.steps move.taskSteps
  keeps := RunTable.every_of_steps lawful.starts lawful.steps move.runs sane.keeps
  provided := by
    intro slot hslot work hwork
    have leads : Leads rules before after := .single (move.mono fun _ => trivial)
    have hold : ∀ earlier ∈ before.tasks.slots, earlier.work = .activity work →
        after.Provides work :=
      fun earlier hmem hsame => leads.provides (sane.provided earlier hmem work hsame)
    have hregranted : ∀ taskId token, slot ∈ TaskQueue.regrant taskId token before.tasks.slots →
        after.Provides work := by
      intro taskId token hmem
      obtain ⟨earlier, hearlier, -, hsame, -⟩ := TaskQueue.mem_regrant hmem
      exact hold earlier hearlier (hsame ▸ hwork)
    -- each slot is one from before, or that of a task which the commit has provided
    cases move with
    | still runs tasks timers issued => exact hold slot (tasks ▸ hslot) hwork
    | created now fresh =>
        rcases TaskQueue.mem_of_wakes (.single (Store.startRun_wakes _ _ _)) hslot with
          hthere | ⟨ref, workflowType, hother⟩
        · exact hold slot hthere hwork
        · rw [hwork] at hother
          cases hother
    | @committed ref record run commit now found isOpen origin writes begins =>
        rcases Store.mem_apply_tasks hwork hslot with hthere | ⟨task, hmem, htask⟩
        · exact hold slot hthere hwork
        · obtain ⟨href, provided⟩ := writes.provides hmem htask now (record.events.length + 1)
          obtain ⟨later, rest, hlater, hevents⟩ :=
            RunTable.events_applied now found begins.1 begins.2
          refine ⟨later, ?_, provided.of_prefix ⟨rest, hevents.symm⟩⟩
          rw [href, Run.ref_eq_of_origin origin, RunTable.ref_of_find? found, Store.apply_runs]
          exact hlater
    | claimed h =>
        obtain ⟨-, -, hslots, -⟩ := TaskQueue.claim_claimed h
        rw [hslots] at hslot
        exact hregranted _ _ hslot
    | extended h =>
        obtain ⟨hslots, -⟩ := TaskQueue.heartbeat_ok h
        exact hold slot (hslots ▸ hslot) hwork
    | failed h =>
        obtain ⟨held, -, hslots, -⟩ := TaskQueue.fail_ok h
        rw [hslots] at hslot
        split at hslot
        · exact hold slot (List.mem_of_mem_filter hslot) hwork
        · exact hregranted _ _ hslot
    | completed h done =>
        obtain ⟨held, -, hslots, -⟩ := TaskQueue.complete_ok h
        rw [hslots] at hslot
        exact hold slot (List.mem_of_mem_filter hslot) hwork
    | popped now limit allowed => exact hold slot hslot hwork
    | rescheduled timer allowed => exact hold slot hslot hwork

theorem Sane.leads {rules : Rules} {before after : Store} (lawful : rules.Lawful)
    (sane : Sane rules before) (leads : Leads rules before after) : Sane rules after := by
  induction leads with
  | refl => exact sane
  | tail _ move ih => exact ih.move lawful move

end Chronicle
