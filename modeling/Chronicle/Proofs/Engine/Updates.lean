import Chronicle.Proofs.Engine.Ledgers
import Chronicle.Proofs.Engine.Advancing

/-!
# Updates

What is written to a run besides the decisions of its workflow: reports from outside, forced ends,
and what becomes of its timers and of the attempts at its activities.
-/

namespace Chronicle

/-- What a client tells a run, which says nothing about activities and timers. -/
def Event.isReport : Event → Bool
  | .signalReceived _ | .cancellationRequested _ => true
  | _ => false

/-! ## Work on activities -/

/-- The history schedules what the task is for, and has come as far as its attempt. -/
structure Provided (history : List HistoryEvent) (work : ActivityTask) : Prop where
  scheduled : ∃ taskQueue, Event.activityScheduled work.activityId work.activityType work.input
    taskQueue work.options ∈ history.map HistoryEvent.event
  current : SchedulesOnce work.activityId history → ∃ state,
    (Ledger.ofHistory history).activity? work.activityId = some state ∧
      work.attempt ≤ state.attempt

theorem Provided.of_prefix {first second : List HistoryEvent} {work : ActivityTask}
    (provided : Provided first work) (h : first <+: second) : Provided second work where
  scheduled := by
    obtain ⟨taskQueue, hmem⟩ := provided.scheduled
    exact ⟨taskQueue, (h.map HistoryEvent.event).subset hmem⟩
  current := by
    intro once
    obtain ⟨state, hstate, hattempt⟩ := provided.current (once.of_prefix h)
    obtain ⟨later, hlater, advances⟩ := Ledger.advances_of_prefix once h hstate
    exact ⟨later, hlater, Nat.le_trans hattempt advances.attempt⟩

/-- A worker has picked up the attempt. -/
def PickedUp (activityId : String) (attempt : Nat) (history : List HistoryEvent) : Prop :=
  ∃ workerId, Event.activityStarted activityId attempt workerId ∈ history.map HistoryEvent.event

theorem PickedUp.of_prefix {activityId : String} {attempt : Nat} {first second : List HistoryEvent}
    (picked : PickedUp activityId attempt first) (h : first <+: second) :
    PickedUp activityId attempt second := by
  obtain ⟨workerId, hmem⟩ := picked
  exact ⟨workerId, (h.map HistoryEvent.event).subset hmem⟩

/-- The ledger knows an attempt as started only if a worker has picked it up. -/
theorem pickedUp_of_started {activityId : String} {history : List HistoryEvent} {state : ActivityState}
    (h : (Ledger.ofHistory history).activity? activityId = some state)
    (hstarted : state.started = true) : PickedUp activityId state.attempt history := by
  induction history using List.reverseRecOn generalizing state with
  | nil => cases h
  | append_singleton earlier event ih =>
      rw [Ledger.activity?_concat] at h
      rcases ActivityState.started_of_follow h hstarted with ⟨workerId, hevent⟩ | hbefore
      · exact ⟨workerId, by simp [hevent]⟩
      · obtain ⟨before, hknown, hrunning, hattempt⟩ := hbefore
        rw [← hattempt]
        exact PickedUp.of_prefix (ih hknown hrunning) (List.prefix_append _ _)

/-- The event ends the attempt, with another one after the delay if there is one. -/
inductive EndsAttempt (policy : RetryPolicy) (activityId : String) (attempt : Nat) :
    Option Span → Event → Prop where
  | completed (result : Json) :
      EndsAttempt policy activityId attempt none (.activityCompleted activityId attempt result)
  | failed {failure : ActivityFailure} {exhausted : Bool}
      (verdict : policy.decide attempt failure.retryable failure.code = .giveUp exhausted) :
      EndsAttempt policy activityId attempt none
        (.activityFailed activityId attempt failure false exhausted)
  | timedOut {retryable : Bool} {code : Option String} {timeout : TimeoutType} {exhausted : Bool}
      (verdict : policy.decide attempt retryable code = .giveUp exhausted) :
      EndsAttempt policy activityId attempt none
        (.activityTimedOut activityId attempt timeout false exhausted)
  | failedOnce {failure : ActivityFailure} {delay : Span}
      (verdict : policy.decide attempt failure.retryable failure.code = .retry delay) :
      EndsAttempt policy activityId attempt (some delay)
        (.activityFailed activityId attempt failure true false)
  | timedOutOnce {retryable : Bool} {code : Option String} {timeout : TimeoutType} {delay : Span}
      (verdict : policy.decide attempt retryable code = .retry delay) :
      EndsAttempt policy activityId attempt (some delay)
        (.activityTimedOut activityId attempt timeout true false)

/-- The attempt is the current one of an open activity. -/
structure AtAttempt (history : List HistoryEvent) (activityId : String) (attempt : Nat)
    (state : ActivityState) : Prop where
  known : (Ledger.ofHistory history).activity? activityId = some state
  isOpen : state.closed = false
  current : state.attempt = attempt

theorem AtAttempt.eq_of_known {history : List HistoryEvent} {activityId : String} {attempt : Nat}
    {state known : ActivityState} (attempted : AtAttempt history activityId attempt known)
    (hstate : (Ledger.ofHistory history).activity? activityId = some state) : known = state := by
  have hknown := attempted.known
  rw [hstate, Option.some.injEq] at hknown
  exact hknown.symm

theorem atAttempt_of_isAttemptOpen {history : List HistoryEvent} {activityId : String} {attempt : Nat}
    (h : (Ledger.ofHistory history).isAttemptOpen activityId attempt = true) :
    ∃ state, AtAttempt history activityId attempt state := by
  obtain ⟨state, hstate, hopen, hattempt⟩ := Ledger.isAttemptOpen_iff.1 h
  exact ⟨state, hstate, hopen, hattempt⟩

namespace EndsAttempt

variable {policy : RetryPolicy} {activityId : String} {attempt : Nat} {event : Event}

theorem facts {delay : Option Span} (ends : EndsAttempt policy activityId attempt delay event) :
    event.activityId? = some activityId ∧ event.isStart = false ∧ event.isClose = false ∧
      event.key? = none := by
  cases ends <;> exact ⟨rfl, rfl, rfl, rfl⟩

theorem begins_nothing {delay : Option Span}
    (ends : EndsAttempt policy activityId attempt delay event) :
    (∀ activityId, event.schedules activityId = false) ∧
      ∀ activityId attempt workerId, event ≠ .activityStarted activityId attempt workerId := by
  cases ends <;> simp [Event.schedules]

theorem follow_last (ends : EndsAttempt policy activityId attempt none event) {state : ActivityState}
    (hopen : state.closed = false) (hcurrent : state.attempt = attempt) :
    ActivityState.follow activityId (some state) event = some state.close := by
  cases ends <;>
    simp [ActivityState.follow, Event.activityId?, ActivityState.onAttempt, hopen, hcurrent,
      Ledger.endAttempt, ActivityState.close]

theorem follow_retry {delay : Span} (ends : EndsAttempt policy activityId attempt (some delay) event)
    {state : ActivityState} (hopen : state.closed = false) (hcurrent : state.attempt = attempt) :
    ActivityState.follow activityId (some state) event =
      some { state with attempt := attempt + 1, started := false } := by
  cases ends <;>
    simp [ActivityState.follow, Event.activityId?, ActivityState.onAttempt, hopen, hcurrent,
      Ledger.endAttempt]

end EndsAttempt

/-! ## Updates -/

def retryTimers (run : Run) (state : ActivityState) (activityId : String) (delay : Span)
    (now : Instant) : List Timer :=
  match state.options.pickupTimeout with
  | none => []
  | some timeout => [⟨run.ref, now.after (delay.plus timeout), .activityPickup activityId⟩]

/-- A commit that is not a decision.  Only timers that fire end attempts which nobody picked up. -/
inductive Update (fires : Prop) (run : Run) (history : List HistoryEvent) : Commit → Prop where
  | reported {event : Event} (report : event.isReport = true) :
      Update fires run history { Commit.ofEvents [event] with tasks := [run.workflowTask] }
  | forced {event : Event} {closing : Closing} (ends : event.closing? = some closing) :
      Update fires run history
        (Decision.close (.ofEvents [event]) run (.ofHistory history) closing none)
  | started {work : ActivityTask} {state : ActivityState} (workerId : String) (now : Instant)
      (own : work.run = run.ref) (provided : Provided history work)
      (attempted : AtAttempt history work.activityId work.attempt state)
      (waits : state.started = false) :
      Update fires run history
        { Commit.ofEvents [.activityStarted work.activityId work.attempt workerId] with
          cancelledTimers := [.activityPickup work.activityId]
          timers := ActivityService.startTimers work now }
  | beat {work : ActivityTask} {state : ActivityState} (details : Option Json) (now : Instant)
      (own : work.run = run.ref) (provided : Provided history work)
      (picked : PickedUp work.activityId work.attempt history)
      (attempted : AtAttempt history work.activityId work.attempt state) :
      Update fires run history
        { Commit.ofEvents [.activityHeartbeat work.activityId work.attempt details] with
          timers := beatTimers work now }
  | ended {activityId : String} {attempt : Nat} {state : ActivityState} {event : Event}
      (attempted : AtAttempt history activityId attempt state)
      (picked : fires ∨ PickedUp activityId attempt history)
      (ends : EndsAttempt state.options.retryPolicy activityId attempt none event) :
      Update fires run history
        { AttemptOutcome.endCommit activityId attempt event with tasks := [run.workflowTask] }
  | retried {activityId : String} {attempt : Nat} {state : ActivityState} {event : Event}
      {delay : Span} (now : Instant) (attempted : AtAttempt history activityId attempt state)
      (picked : fires ∨ PickedUp activityId attempt history)
      (ends : EndsAttempt state.options.retryPolicy activityId attempt (some delay) event) :
      Update fires run history
        { AttemptOutcome.endCommit activityId attempt event with
          tasks := [⟨state.taskQueue, .activity ⟨run.ref, activityId, state.activityType,
            state.input, state.options, attempt + 1⟩, delay⟩]
          timers := retryTimers run state activityId delay now }
  | fired {timerId : String} (allowed : fires)
      (pending : (Ledger.ofHistory history).isTimerPending timerId = true) :
      Update fires run history
        { Commit.ofEvents [.timerFired timerId] with tasks := [run.workflowTask] }
  | missed {activityId : String} {state : ActivityState} (allowed : fires)
      (attempted : AtAttempt history activityId state.attempt state) (waits : state.started = false) :
      Update fires run history
        { Commit.ofEvents
            [.activityTimedOut activityId state.attempt .scheduleToStart false false] with
          tasks := [run.workflowTask]
          cancelledActivities := [activityId] }

namespace Update

variable {fires : Prop} {run : Run} {history : List HistoryEvent} {commit : Commit}

theorem mono (update : Update fires run history commit) {others : Prop} (h : fires → others) :
    Update others run history commit := by
  cases update with
  | reported report => exact .reported report
  | forced ends => exact .forced ends
  | started workerId now own provided attempted waits =>
      exact .started workerId now own provided attempted waits
  | beat details now own provided picked attempted => exact .beat details now own provided picked attempted
  | ended attempted picked ends => exact .ended attempted (picked.imp_left h) ends
  | retried now attempted picked ends => exact .retried now attempted (picked.imp_left h) ends
  | fired allowed pending => exact .fired (h allowed) pending
  | missed allowed attempted waits => exact .missed (h allowed) attempted waits

end Update

/-! ## Revisions that write updates -/

namespace Engine

variable {fires : Prop} {run : Run} {history : List HistoryEvent} {commit : Commit}

theorem noticeCommit_writes {event : Event} (report : event.isReport = true)
    (hwrites : (noticeCommit event run (.ofHistory history)).Writes commit) :
    Update fires run history commit := by
  cases hwrites
  exact .reported report

theorem forceClose_writes {event : Event} {closing : Closing} (ends : event.closing? = some closing)
    (hwrites : (forceClose event closing run (.ofHistory history)).Writes commit) :
    Update fires run history commit := by
  cases hwrites
  exact .forced ends

end Engine

namespace AttemptOutcome

variable {fires : Prop} {run : Run} {history : List HistoryEvent} {commit : Commit}
  {activityId : String} {attempt : Nat} {state : ActivityState}

/-- The commit for an attempt that is repeated after a delay. -/
def retryCommit (run : Run) (state : ActivityState) (activityId : String) (attempt : Nat)
    (event : Event) (delay : Span) (now : Instant) : Commit :=
  { endCommit activityId attempt event with
    tasks := [⟨state.taskQueue, .activity ⟨run.ref, activityId, state.activityType, state.input,
      state.options, attempt + 1⟩, delay⟩]
    timers := retryTimers run state activityId delay now }

theorem retryRevision_writes {event : Event} {delay : Span}
    (hwrites : (retryRevision run state activityId attempt delay event).Writes commit) :
    ∃ now, commit = retryCommit run state activityId attempt event delay now := by
  unfold retryRevision at hwrites
  unfold retryCommit retryTimers
  cases htimeout : state.options.pickupTimeout with
  | none =>
      simp only [htimeout] at hwrites
      exact ⟨⟨0, 0⟩, hwrites.symm⟩
  | some timeout =>
      simp only [htimeout] at hwrites
      obtain ⟨now, hcommit⟩ := hwrites
      exact ⟨now, hcommit.symm⟩

theorem failureRevision_cases {failure : ActivityFailure} {event : Bool → Bool → Event}
    (last : ∀ exhausted, state.options.retryPolicy.decide attempt failure.retryable failure.code =
      .giveUp exhausted →
        EndsAttempt state.options.retryPolicy activityId attempt none (event false exhausted))
    (again : ∀ delay, state.options.retryPolicy.decide attempt failure.retryable failure.code =
      .retry delay →
        EndsAttempt state.options.retryPolicy activityId attempt (some delay) (event true false))
    (hwrites : (failureRevision run state activityId attempt failure event).Writes commit) :
    ∃ event, (EndsAttempt state.options.retryPolicy activityId attempt none event ∧
        commit = { endCommit activityId attempt event with tasks := [run.workflowTask] }) ∨
      ∃ delay now, EndsAttempt state.options.retryPolicy activityId attempt (some delay) event ∧
        commit = retryCommit run state activityId attempt event delay now := by
  unfold failureRevision at hwrites
  split at hwrites
  · rename_i delay hverdict
    obtain ⟨now, hcommit⟩ := retryRevision_writes hwrites
    exact ⟨_, .inr ⟨delay, now, again delay hverdict, hcommit⟩⟩
  · rename_i exhausted hverdict
    exact ⟨_, .inl ⟨last exhausted hverdict, hwrites.symm⟩⟩

/-- An outcome is written only for the current attempt, and ends it. -/
theorem reviser_cases {outcome : AttemptOutcome}
    (hwrites : (reviser activityId attempt outcome run (.ofHistory history)).Writes commit) :
    ∃ state event, AtAttempt history activityId attempt state ∧
      ((EndsAttempt state.options.retryPolicy activityId attempt none event ∧
        commit = { endCommit activityId attempt event with tasks := [run.workflowTask] }) ∨
      ∃ delay now, EndsAttempt state.options.retryPolicy activityId attempt (some delay) event ∧
        commit = retryCommit run state activityId attempt event delay now) := by
  unfold reviser at hwrites
  split at hwrites
  · cases hwrites
  · rename_i state hstate
    split at hwrites
    · rename_i hopen
      obtain ⟨current, attempted⟩ := atAttempt_of_isAttemptOpen hopen
      obtain rfl := attempted.eq_of_known hstate
      refine ⟨current, ?_⟩
      cases outcome with
      | completed result => exact ⟨_, attempted, .inl ⟨.completed result, hwrites.symm⟩⟩
      | failed failure =>
          obtain ⟨event, hcases⟩ := failureRevision_cases (fun _ verdict => .failed verdict)
            (fun _ verdict => .failedOnce verdict) hwrites
          exact ⟨event, attempted, hcases⟩
      | timedOut timeout =>
          obtain ⟨event, hcases⟩ := failureRevision_cases (fun _ verdict => .timedOut verdict)
            (fun _ verdict => .timedOutOnce verdict) hwrites
          exact ⟨event, attempted, hcases⟩
    · cases hwrites

theorem not_open_of_keep {outcome : AttemptOutcome} {ledger : Ledger} {reason : Unit}
    (h : reviser activityId attempt outcome run ledger = .keep reason) :
    ledger.isAttemptOpen activityId attempt = false := by
  unfold reviser at h
  split at h
  · rename_i hnone
    simp [Ledger.isAttemptOpen, hnone]
  · split at h
    · exfalso
      revert h
      cases outcome with
      | completed result => exact fun h => nomatch h
      | failed failure =>
          simp only [revision, failureRevision, retryRevision, lastRevision]
          grind
      | timedOut timeout =>
          simp only [revision, failureRevision, retryRevision, lastRevision]
          grind
    · rename_i hclosed
      simpa using hclosed

theorem reviser_writes {outcome : AttemptOutcome}
    (picked : fires ∨ PickedUp activityId attempt history)
    (hwrites : (reviser activityId attempt outcome run (.ofHistory history)).Writes commit) :
    Update fires run history commit := by
  obtain ⟨state, event, attempted, ⟨ends, rfl⟩ | ⟨delay, now, ends, rfl⟩⟩ := reviser_cases hwrites
  · exact .ended attempted picked ends
  · exact .retried now attempted picked ends

end AttemptOutcome

namespace ActivityService

variable {fires : Prop} {run : Run} {history : List HistoryEvent} {commit : Commit}
  {work : ActivityTask}

theorem startReviser_writes {workerId : String} (own : work.run = run.ref)
    (provided : Provided history work)
    (hwrites : (startReviser workerId work run (.ofHistory history)).Writes commit) :
    Update fires run history commit := by
  obtain ⟨hopen, hwaits, now, rfl⟩ := startReviser_cases hwrites
  obtain ⟨state, attempted⟩ := atAttempt_of_isAttemptOpen hopen
  rw [attempted.known] at hwaits
  exact .started workerId now own provided attempted (by simpa using hwaits)

theorem heartbeatReviser_writes {details : Option Json} (own : work.run = run.ref)
    (provided : Provided history work) (picked : PickedUp work.activityId work.attempt history)
    (hwrites : (heartbeatReviser work details run (.ofHistory history)).Writes commit) :
    Update fires run history commit := by
  obtain ⟨hopen, now, rfl⟩ := heartbeatReviser_cases hwrites
  obtain ⟨state, attempted⟩ := atAttempt_of_isAttemptOpen hopen
  exact .beat details now own provided picked attempted

end ActivityService

namespace TimerService

variable {run : Run} {history : List HistoryEvent} {commit : Commit}

theorem workflowTimer_writes {timerId : String}
    (hwrites : (workflowTimer timerId run (.ofHistory history)).Writes commit) :
    Update True run history commit := by
  obtain ⟨hpending, rfl⟩ := workflowTimer_cases hwrites
  exact .fired trivial hpending

theorem pickupTimeout_writes {activityId : String}
    (hwrites : (pickupTimeout activityId run (.ofHistory history)).Writes commit) :
    Update True run history commit := by
  obtain ⟨state, hstate, hopen, hwaits, rfl⟩ := pickupTimeout_cases hwrites
  exact .missed trivial ⟨hstate, hopen, rfl⟩ hwaits

end TimerService

end Chronicle
