import Chronicle.Proofs.Engine.Firing
import Chronicle.Proofs.Store.DueTimers

/-!
# What a timer does to the store

A timer that fires without being interrupted changes the store as its run, the history and the clock
say, and nothing else of the world.
-/

namespace Chronicle

open Relation (ReflTransGen)

/-! ## Effects -/

/-- What the timer writes when it fires. -/
def Timer.effect? (timer : Timer) (runs : RunTable) (now : Instant) : Option Commit :=
  match runs.find? timer.run with
  | none => none
  | some record =>
      if record.isClosed then none
      else (timer.purpose.reviser record.run (.ofHistory record.events)).commitAt? now

namespace Store

/-- The store after the timer, which was taken out, has fired. -/
def fire (store : Store) (now : Instant) (timer : Timer) : Store :=
  match timer.effect? store.runs now with
  | none => store
  | some commit => (store.apply timer.run commit now).wake

def fireAll (store : Store) (now : Instant) (due : List Timer) : Store :=
  due.foldl (fun store timer => store.fire now timer) store

end Store

variable {timer : Timer} {runs : RunTable} {now : Instant} {commit : Commit}

theorem Timer.effect?_eq_some : timer.effect? runs now = some commit ↔
    ∃ record, runs.find? timer.run = some record ∧ record.isClosed = false ∧
      (timer.purpose.reviser record.run (.ofHistory record.events)).commitAt? now = some commit := by
  unfold effect?
  cases runs.find? timer.run with
  | none => simp
  | some record => simp

theorem Revision.EndsWith.fire {world after : World} {result : Except EngineError (Revised Unit)}
    (ends : EndsWith timer.run timer.purpose.reviser world now result after) :
    after = { world with store := world.store.fire now timer } := by
  unfold Store.fire Timer.effect?
  cases ends with
  | unknown found => simp [found]
  | closed found isClosed => simp [found, isClosed]
  | kept found isOpen keeps => simp [found, isOpen, keeps, commitAt?]
  | written version found isOpen writes => simp [found, isOpen, writes]

namespace TimerService

theorem fireOrReschedule_eq (service : TimerService) {world : World} (hnow : world.now = some now)
    (timer : Timer) : (service.fireOrReschedule timer).run World.answer world =
      (.ok (.ok ()), { world with store := world.store.fire now timer }) := by
  obtain ⟨result, after, hrun, ends⟩ := @fireOrReschedule_run service world now hnow timer
  rw [hrun, ends.fire]

theorem fireAll_eq (service : TimerService) {world : World} (hnow : world.now = some now)
    (due : List Timer) : (service.fireAll due).run World.answer world =
      (.ok (.ok ()), { world with store := world.store.fireAll now due }) := by
  induction due generalizing world with
  | nil => rfl
  | cons timer rest ih =>
      unfold fireAll
      rw [Program.run_bind (service.fireOrReschedule_eq hnow timer)]
      exact ih hnow

end TimerService

/-! ## Timers -/

namespace Store

variable {store : Store}

theorem fire_timers (store : Store) (now : Instant) (timer : Timer) :
    ((store.fire now timer).timers = store.timers ∧ timer.effect? store.runs now = none) ∨
      ∃ commit, timer.effect? store.runs now = some commit ∧
        (store.fire now timer).timers = commit.ownTimers timer.run store.timers := by
  unfold fire
  cases heffect : timer.effect? store.runs now with
  | none => exact .inl ⟨rfl, rfl⟩
  | some commit =>
      obtain ⟨record, -, -, hwrites⟩ := Timer.effect?_eq_some.1 heffect
      have update := TimerPurpose.update_of_writes (Revision.writes_of_commitAt? hwrites)
      exact .inr ⟨commit, rfl, apply_timers update.newRuns store timer.run now⟩

theorem fire_timerSteps (store : Store) (now : Instant) (timer : Timer) :
    ReflTransGen TimerQueue.Step store.timers (store.fire now timer).timers := by
  rcases store.fire_timers now timer with ⟨hsame, -⟩ | ⟨commit, -, htimers⟩
  · rw [hsame]
  · exact htimers ▸ commit.ownTimers_steps timer.run store.timers

theorem wellKept_fire (wellKept : store.timers.WellKept) (now : Instant) (timer : Timer) :
    (store.fire now timer).timers.WellKept := by
  rcases store.fire_timers now timer with ⟨hsame, -⟩ | ⟨commit, -, htimers⟩
  · rwa [hsame]
  · exact htimers ▸ Commit.wellKept_ownTimers wellKept commit timer.run

theorem fireAll_timerSteps (store : Store) (now : Instant) (due : List Timer) :
    ReflTransGen TimerQueue.Step store.timers (store.fireAll now due).timers := by
  induction due generalizing store with
  | nil => exact .refl
  | cons timer rest ih => exact (store.fire_timerSteps now timer).trans (ih _)

end Store

/-! ## Runs -/

theorem Update.schedules_nothing {fires : Prop} {run : Run} {history : List HistoryEvent}
    (update : Update fires run history commit) (activityId : String) :
    ∀ event ∈ commit.events, event.schedules activityId = false := by
  cases update with
  | reported report =>
      rename_i event
      cases event <;> first | cases report; done | simp [Commit.ofEvents, Event.schedules]
  | forced ends =>
      rename_i event closing
      cases event <;> first | cases ends; done | simp [Decision.close, Commit.ofEvents, Event.schedules]
  | started workerId now own provided attempted waits => simp [Commit.ofEvents, Event.schedules]
  | beat details now own provided picked attempted => simp [Commit.ofEvents, Event.schedules]
  | ended attempted picked ends =>
      simp [AttemptOutcome.endCommit, Commit.ofEvents, ends.begins_nothing.1]
  | retried now attempted picked ends =>
      simp [AttemptOutcome.endCommit, Commit.ofEvents, ends.begins_nothing.1]
  | fired allowed pending => simp [Commit.ofEvents, Event.schedules]
  | missed allowed attempted waits => simp [Commit.ofEvents, Event.schedules]

/-- What becomes of a run when a timer of the run `ref` writes the commit. -/
structure RunRecord.Affected (ref : RunRef) (commit : Commit) (target : RunRef)
    (earlier later : RunRecord) : Prop where
  closed : earlier.isClosed = true → later.isClosed = true
  closes : target = ref → commit.closing ≠ none → later.isClosed = true
  activity : ∀ activityId, (Ledger.ofHistory later.events).activity? activityId =
    (if target = ref then commit.events else []).foldl (ActivityState.follow activityId)
      ((Ledger.ofHistory earlier.events).activity? activityId)

theorem RunRecord.Affected.append {ref target : RunRef} {earlier later : RunRecord} {event : Event}
    (affected : Affected ref commit target earlier later) (announced : event.isAnnouncement = true)
    (now : Instant) : Affected ref commit target earlier (later.append [event] now) where
  closed := affected.closed
  closes := affected.closes
  activity := by
    intro activityId
    rw [append_events, Ledger.activity?_number, List.foldl_cons, List.foldl_nil,
      ActivityState.follow_other, affected.activity]
    simp [(Event.quiet_of_isAnnouncement announced).1]

/-- A timer changes its own run, and tells others what does not concern their activities. -/
theorem Store.apply_affects {store : Store} {ref : RunRef} {record : RunRecord}
    (hfind : store.runs.find? ref = some record) (hopen : record.isClosed = false)
    (update : Update True record.run record.events commit) (now : Instant) (target : RunRef) :
    Option.Rel (RunRecord.Affected ref commit target) (store.runs.find? target)
      ((store.apply ref commit now).runs.find? target) := by
  refine @Store.apply_induction (fun later => Option.Rel (RunRecord.Affected ref commit target)
    (store.runs.find? target) (later.runs.find? target)) _ _ _ _ (by simp [update.newRuns])
    (by simp [update.newRuns]) ?_ (by simp [update.newRuns]) ?_
  · rw [find?_revise]
    by_cases htarget : target = ref
    · subst htarget
      rw [if_pos rfl, hfind]
      refine .some ⟨fun hclosed => ?_, fun _ hcloses => ?_, fun activityId => ?_⟩
      · rw [hopen] at hclosed
        cases hclosed
      · exact RunRecord.isClosed_revise update.tidy hcloses now
      · rw [RunRecord.revise_events, Ledger.activity?_number, if_pos rfl]
    · rw [if_neg htarget]
      cases store.runs.find? target with
      | none => exact .none
      | some other =>
          refine .some ⟨fun hclosed => hclosed, fun hsame => absurd hsame htarget, fun activityId => ?_⟩
          rw [if_neg htarget, List.foldl_nil]
  · intro middle notification hmem hrel
    rcases middle.notify_cases notification now with hsame | ⟨told, htold, -, -, -, hfinds⟩
    · rwa [hsame]
    · rw [hfinds]
      split
      · rename_i htarget
        rw [htarget, htold] at hrel
        rw [htarget]
        cases hearlier : store.runs.find? notification.target with
        | none =>
            rw [hearlier] at hrel
            cases hrel
        | some earlier =>
            rw [hearlier] at hrel
            cases hrel with
            | some affected =>
                exact .some (htarget ▸ affected.append (update.tidy.announced notification hmem) now)
      · exact hrel

/-! ## What a deadline writes -/

/-- What the deadline of an attempt writes to the run. -/
structure Commit.MeetsDeadline (commit : Commit) (ref : RunRef) (history : List HistoryEvent)
    (activityId : String) (attempt : Nat) : Prop where
  ends : ∃ state later, AtAttempt history activityId attempt state ∧
    commit.events.foldl (ActivityState.follow activityId) (some state) = some later ∧
    (later.closed = true ∨ attempt < later.attempt) ∧ (commit.timers ≠ [] → attempt < later.attempt)
  cancels : commit.cancelledTimers = AttemptOutcome.attemptTimers activityId attempt
  schedules : ∀ timer ∈ commit.timers, timer.key = (ref, .activityPickup activityId)

variable {purpose : TimerPurpose} {run : Run} {history : List HistoryEvent} {now : Instant}
  {commit : Commit} {activityId : String} {attempt : Nat} {ref : RunRef}

theorem AttemptOutcome.meetsDeadline {outcome : AttemptOutcome}
    (hwrites : (reviser activityId attempt outcome run (.ofHistory history)).Writes commit) :
    commit.MeetsDeadline run.ref history activityId attempt := by
  obtain ⟨state, event, attempted, ⟨ends, rfl⟩ | ⟨delay, written, ends, rfl⟩⟩ :=
    reviser_cases hwrites
  · refine ⟨⟨state, state.close, attempted, ?_, .inl rfl, fun hsome => absurd rfl hsome⟩, rfl, ?_⟩
    · exact ends.follow_last attempted.isOpen attempted.current
    · exact fun timer hmem => nomatch hmem
  · refine ⟨⟨state, _, attempted, ends.follow_retry attempted.isOpen attempted.current,
      .inr (Nat.lt_succ_self _), fun _ => Nat.lt_succ_self _⟩, rfl, ?_⟩
    intro timer hmem
    have hpurpose := (mem_retryTimers.1 (List.mem_map_of_mem hmem)).1
    have hrun : timer.run = run.ref := by
      have hmem : timer ∈ retryTimers run state activityId delay written := hmem
      unfold retryTimers at hmem
      split at hmem
      · cases hmem
      · rw [List.mem_singleton.1 hmem]
    rw [Timer.key, hrun, hpurpose]

theorem TimerService.workflowTimer_timers {timerId : String} {ledger : Ledger}
    (hwrites : (workflowTimer timerId run ledger).Writes commit) :
    commit.timers = [] ∧ commit.cancelledTimers = [] := by
  obtain ⟨-, rfl⟩ := workflowTimer_cases hwrites
  exact ⟨rfl, rfl⟩

theorem TimerService.pickupTimeout_timers {ledger : Ledger}
    (hwrites : (pickupTimeout activityId run ledger).Writes commit) :
    commit.timers = [] ∧ commit.cancelledTimers = [] := by
  obtain ⟨state, -, -, -, rfl⟩ := pickupTimeout_cases hwrites
  exact ⟨rfl, rfl⟩

/-- Only the deadline of an attempt leads to another timer, or away from one. -/
theorem TimerPurpose.timers_of_writes (hwrites : (purpose.reviser run (.ofHistory history)).Writes commit) :
    (commit.timers = [] ∧ commit.cancelledTimers = []) ∨
      ∃ activityId attempt, purpose ∈ AttemptOutcome.attemptTimers activityId attempt ∧
        commit.MeetsDeadline run.ref history activityId attempt := by
  cases purpose with
  | workflowTimer timerId => exact .inl (TimerService.workflowTimer_timers hwrites)
  | activityPickup activityId => exact .inl (TimerService.pickupTimeout_timers hwrites)
  | activityAttempt activityId attempt =>
      exact .inr ⟨activityId, attempt, by simp [AttemptOutcome.attemptTimers],
        AttemptOutcome.meetsDeadline hwrites⟩
  | activityHeartbeat activityId attempt =>
      exact .inr ⟨activityId, attempt, by simp [AttemptOutcome.attemptTimers],
        AttemptOutcome.meetsDeadline hwrites⟩
  | runTimeout =>
      cases hwrites
      exact .inl ⟨rfl, rfl⟩

theorem AttemptOutcome.le_of_retryRevision {state : ActivityState} {delay : Span} {event : Event}
    (h : (retryRevision run state activityId attempt delay event).commitAt? now = some commit) :
    ∀ timer ∈ commit.timers, now ≤ timer.fireAt := by
  unfold retryRevision at h
  simp only at h
  split at h
  · cases h
    exact fun timer hmem => nomatch hmem
  · cases h
    intro timer hmem
    rw [List.mem_singleton.1 hmem]
    exact Instant.le_after now _

theorem AttemptOutcome.le_of_failureRevision {state : ActivityState} {failure : ActivityFailure}
    {event : Bool → Bool → Event}
    (h : (failureRevision run state activityId attempt failure event).commitAt? now = some commit) :
    ∀ timer ∈ commit.timers, now ≤ timer.fireAt := by
  unfold failureRevision at h
  split at h
  · exact le_of_retryRevision h
  · cases h
    exact fun timer hmem => nomatch hmem

theorem AttemptOutcome.le_of_commitAt? {outcome : AttemptOutcome}
    (h : (reviser activityId attempt outcome run (.ofHistory history)).commitAt? now = some commit) :
    ∀ timer ∈ commit.timers, now ≤ timer.fireAt := by
  unfold reviser at h
  split at h
  · cases h
  · split at h
    · cases outcome with
      | completed result =>
          cases h
          exact fun timer hmem => nomatch hmem
      | failed failure => exact le_of_failureRevision h
      | timedOut timeout => exact le_of_failureRevision h
    · cases h

/-- No timer is scheduled for the past. -/
theorem TimerPurpose.le_of_commitAt?
    (h : (purpose.reviser run (.ofHistory history)).commitAt? now = some commit) :
    ∀ timer ∈ commit.timers, now ≤ timer.fireAt := by
  rcases timers_of_writes (Revision.writes_of_commitAt? h) with ⟨hnone, -⟩ | ⟨activityId, attempt, hpurpose, -⟩
  · rw [hnone]
    exact fun timer hmem => nomatch hmem
  · rcases AttemptOutcome.mem_attemptTimers.1 hpurpose with rfl | rfl
    · exact AttemptOutcome.le_of_commitAt? h
    · exact AttemptOutcome.le_of_commitAt? h

end Chronicle
