import Chronicle.Proofs.Engine.Deadlines

/-!
# Timers and activities under replay

A workflow begins timers and activities, may take them back, and is told of their end.  A replay
tells of every end that the ledger of the history has waited for, unless a record before it takes
the timer or the activity back; and it goes on with events only when the commands of a decision
are recorded together.
-/

namespace Chronicle

open HandlerCall

/-- What a workflow begins with one command and may take back with another. -/
inductive Undertaking where
  | timer (timerId : String)
  | activity (activityId : String)
  deriving DecidableEq, Repr

namespace Undertaking

/-- The command that takes it back. -/
def cancel : Undertaking → Command
  | .timer timerId => .cancelTimer timerId
  | .activity activityId => .cancelActivity activityId

/-- The record of that command. -/
def cancelled : Undertaking → Event
  | .timer timerId => .timerCancelled timerId
  | .activity activityId => .activityCancelled activityId

/-- The ledger waits for its end. -/
def isLive (ledger : Ledger) : Undertaking → Bool
  | .timer timerId => ledger.isTimerPending timerId
  | .activity activityId => (ledger.activity? activityId).any fun state => !state.closed

/-- The replayer does not tell of its end. -/
def isIgnored {workflow : WorkflowType} (replayer : Replayer workflow) : Undertaking → Bool
  | .timer timerId =>
      replayer.cancelledTimers.contains timerId || !replayer.startedTimers.contains timerId
  | .activity activityId => replayer.cancelledActivities.contains activityId

theorem cancelled_of_key? {subject : Undertaking} {event : Event}
    (h : event.key? = subject.cancel.key?) : event = subject.cancelled := by
  cases subject <;> cases event <;> simp_all [cancel, cancelled, Event.key?, Command.key?]

theorem cancel_recorded (subject : Undertaking) : subject.cancel.recorded = [subject.cancel] := by
  cases subject <;> rfl

end Undertaking

def Command.begun? : Command → Option Undertaking
  | .startTimer timerId _ => some (.timer timerId)
  | .scheduleActivity activityId .. => some (.activity activityId)
  | _ => none

/-- What workflow code is told of with the stimulus. -/
def Stimulus.ended? : Stimulus → Option Undertaking
  | .timerFired timerId => some (.timer timerId)
  | .activityCompleted activityId _ => some (.activity activityId)
  | .activityFailed activityId _ => some (.activity activityId)
  | _ => none

namespace Event

variable {event : Event} {subject : Undertaking}

def begun? : Event → Option Undertaking
  | .timerStarted timerId .. => some (.timer timerId)
  | .activityScheduled activityId .. => some (.activity activityId)
  | _ => none

/-- What ends with the event.  Timers of conditions are left out, and attempts that another one
follows. -/
def ended? : Event → Option Undertaking
  | .timerFired timerId =>
      if (Command.conditionOfTimer? timerId).isNone then some (.timer timerId) else none
  | .activityCompleted activityId .. => some (.activity activityId)
  | .activityFailed activityId _ _ willRetry _ =>
      if willRetry then none else some (.activity activityId)
  | .activityTimedOut activityId _ _ willRetry _ =>
      if willRetry then none else some (.activity activityId)
  | _ => none

/-- The ledger waits for the event: for the timer that fires, or for an outcome of the attempt. -/
def isAwaited (ledger : Ledger) : Event → Bool
  | .timerFired timerId => ledger.isTimerPending timerId
  | .activityCompleted activityId attempt _ => ledger.isAttemptOpen activityId attempt
  | .activityFailed activityId attempt .. => ledger.isAttemptOpen activityId attempt
  | .activityTimedOut activityId attempt .. => ledger.isAttemptOpen activityId attempt
  | _ => true

/-- An end is no record of a command, and brings workflow code its news. -/
theorem facts_of_ended? (h : event.ended? = some subject) :
    event.key? = none ∧ event.isProgress = false ∧ event.isForcedClose = false ∧
      event.isClose = false ∧ event.signal? = none ∧
      ∃ stimulus, event.stimulus? = some stimulus ∧ stimulus.ended? = some subject ∧
        stimulus.isSettling = false := by
  cases event with
  | timerFired timerId =>
      simp only [ended?, Option.isNone_iff_eq_none, Option.ite_none_right_eq_some,
        Option.some.injEq] at h
      obtain ⟨hnone, rfl⟩ := h
      exact ⟨rfl, rfl, rfl, rfl, rfl, .timerFired timerId, by simp [stimulus?, hnone], rfl, rfl⟩
  | activityCompleted activityId attempt result =>
      cases h
      exact ⟨rfl, rfl, rfl, rfl, rfl, _, rfl, rfl, rfl⟩
  | activityFailed activityId attempt failure willRetry exhausted =>
      simp only [ended?, Option.ite_none_left_eq_some, Bool.not_eq_true, Option.some.injEq] at h
      obtain ⟨rfl, rfl⟩ := h
      exact ⟨rfl, rfl, rfl, rfl, rfl, _, rfl, rfl, rfl⟩
  | activityTimedOut activityId attempt timeout willRetry exhausted =>
      simp only [ended?, Option.ite_none_left_eq_some, Bool.not_eq_true, Option.some.injEq] at h
      obtain ⟨rfl, rfl⟩ := h
      exact ⟨rfl, rfl, rfl, rfl, rfl, _, rfl, rfl, rfl⟩
  | _ => cases h

/-- Workflow code is told of an end by the event that is one, or by an attempt that is repeated. -/
theorem ended?_of_stimulus? {stimulus : Stimulus} (h : event.stimulus? = some stimulus)
    (htold : stimulus.ended? = some subject) (hprogress : event.isProgress = false) :
    event.ended? = some subject := by
  cases event with
  | timerFired timerId =>
      simp only [stimulus?] at h
      split at h
      · cases h
        cases htold
      · rename_i hnone
        cases h
        simpa [ended?, hnone, Stimulus.ended?] using htold
  | activityFailed activityId attempt failure willRetry exhausted =>
      obtain rfl : willRetry = false := hprogress
      cases h
      exact htold
  | activityTimedOut activityId attempt timeout willRetry exhausted =>
      obtain rfl : willRetry = false := hprogress
      cases h
      exact htold
  | activityCompleted =>
      cases h
      exact htold
  | _ =>
      cases h
      all_goals cases htold

/-- What ends is a timer that fires, or an activity that an outcome of its attempt closes. -/
theorem ended?_cases (h : event.ended? = some subject) :
    (∃ timerId, event = .timerFired timerId ∧ subject = .timer timerId) ∨
      ∃ activityId attempt, subject = .activity activityId ∧
        (∀ ledger : Ledger, event.isAwaited ledger = ledger.isAttemptOpen activityId attempt) ∧
        ∀ state : ActivityState, state.closed = false → state.attempt = attempt →
          ActivityState.follow activityId (some state) event = some state.close := by
  cases event with
  | timerFired timerId =>
      simp only [ended?, Option.ite_none_right_eq_some, Option.some.injEq] at h
      exact .inl ⟨timerId, rfl, h.2.symm⟩
  | activityCompleted activityId attempt result =>
      cases h
      refine .inr ⟨activityId, attempt, rfl, fun _ => rfl, fun state _ _ => ?_⟩
      simp [ActivityState.follow, activityId?]
  | activityFailed activityId attempt failure willRetry exhausted
  | activityTimedOut activityId attempt timeout willRetry exhausted =>
      simp only [ended?, Option.ite_none_left_eq_some, Bool.not_eq_true, Option.some.injEq] at h
      obtain ⟨rfl, rfl⟩ := h
      refine .inr ⟨activityId, attempt, rfl, fun _ => rfl, fun state hopen hattempt => ?_⟩
      simp [ActivityState.follow, activityId?, ActivityState.onAttempt, hopen, hattempt,
        Ledger.endAttempt, ActivityState.close]
  | _ => cases h

end Event

theorem Stimulus.ended?_of_isSettling {stimulus : Stimulus} (h : stimulus.isSettling = true) :
    stimulus.ended? = none := by
  cases stimulus <;> first | rfl | cases h

/-! ## The ledger -/

namespace Undertaking

variable {subject : Undertaking} {event : Event} {ledger : Ledger} {history : List HistoryEvent}

theorem isLive_activity_iff {activityId : String} :
    (activity activityId).isLive ledger = true ↔
      ∃ state, ledger.activity? activityId = some state ∧ state.closed = false := by
  simp [isLive, Option.any_eq_true]

theorem isLive_of_isAwaited (hended : event.ended? = some subject)
    (hawaited : event.isAwaited ledger = true) : subject.isLive ledger = true := by
  rcases Event.ended?_cases hended with ⟨timerId, rfl, rfl⟩ | ⟨activityId, attempt, rfl, hopen, -⟩
  · exact hawaited
  · rw [hopen] at hawaited
    obtain ⟨state, hstate, hclosed, -⟩ := Ledger.isAttemptOpen_iff.1 hawaited
    exact isLive_activity_iff.2 ⟨state, hstate, hclosed⟩

/-- After its end the ledger waits no longer. -/
theorem not_isLive_of_ended (hended : event.ended? = some subject)
    (hawaited : event.isAwaited ledger = true) : subject.isLive (ledger.apply event) = false := by
  rcases Event.ended?_cases hended with
    ⟨timerId, rfl, rfl⟩ | ⟨activityId, attempt, rfl, hopen, hfollow⟩
  · simp [isLive, Ledger.isTimerPending_apply, Event.timerNews?]
  · rw [hopen] at hawaited
    obtain ⟨state, hstate, hclosed, hattempt⟩ := Ledger.isAttemptOpen_iff.1 hawaited
    rw [isLive, Ledger.activity?_apply, hstate, hfollow state hclosed hattempt]
    simp [ActivityState.close]

/-- Only a new beginning makes the ledger wait. -/
theorem begun_of_isLive (h : subject.isLive (ledger.apply event) = true)
    (hbefore : subject.isLive ledger = false) : event.begun? = some subject := by
  cases subject with
  | timer timerId =>
      simp only [isLive] at h hbefore
      rw [Ledger.isTimerPending_apply, hbefore] at h
      cases hnews : event.timerNews? timerId with
      | none => simp [hnews] at h
      | some running =>
          simp only [hnews, Option.getD_some] at h
          obtain ⟨fireAt, duration, rfl⟩ := Event.timerNews?_eq_some_true (h ▸ hnews)
          rfl
  | activity activityId =>
      cases hschedules : event.schedules activityId with
      | true =>
          cases event <;> simp_all [Event.schedules, Event.begun?]
      | false =>
          obtain ⟨state, hstate, hopen⟩ := isLive_activity_iff.1 h
          rw [Ledger.activity?_apply] at hstate
          cases hknown : ledger.activity? activityId with
          | none =>
              rw [hknown, ActivityState.follow_none hschedules] at hstate
              cases hstate
          | some before =>
              obtain ⟨later, hlater, advances⟩ :=
                @ActivityState.follow_advances activityId before event hschedules
              rw [hknown, hlater] at hstate
              obtain rfl := Option.some.inj hstate
              have hclosed : before.closed = true := by simpa [isLive, hknown] using hbefore
              rw [advances.closed hclosed] at hopen
              cases hopen

/-- What the ledger waits for, and did not wait for earlier, has begun in between. -/
theorem exists_begun {first more : List HistoryEvent}
    (hbefore : subject.isLive (Ledger.ofHistory first) = false)
    (hlater : subject.isLive (Ledger.ofHistory (first ++ more)) = true) :
    ∃ event ∈ more, event.event.begun? = some subject := by
  induction more using List.reverseRecOn with
  | nil =>
      rw [List.append_nil, hbefore] at hlater
      cases hlater
  | append_singleton rest event ih =>
      cases hmiddle : subject.isLive (Ledger.ofHistory (first ++ rest)) with
      | true =>
          obtain ⟨other, hmem, hbegun⟩ := ih hmiddle
          exact ⟨other, List.mem_append_left _ hmem, hbegun⟩
      | false =>
          rw [← List.append_assoc, Ledger.ofHistory_append, List.foldl_cons, List.foldl_nil] at hlater
          exact ⟨event, by simp, begun_of_isLive hlater hmiddle⟩

end Undertaking

end Chronicle
