import Chronicle.Proofs.Engine.Supplies
import Chronicle.Proofs.Store.Timers

/-!
# Timers that a run waits for

The history of a run says which timers it has to have: one for each timer that is pending, and for
each open activity those of its current attempt.  A commit schedules the timers that its events call
for, and cancels those that they make needless.
-/

namespace Chronicle

open Relation (ReflTransGen)

/-! ## What a ledger calls for -/

def TimerPurpose.activityId? : TimerPurpose → Option String
  | .activityPickup activityId => some activityId
  | .activityAttempt activityId _ => some activityId
  | .activityHeartbeat activityId _ => some activityId
  | .workflowTimer _ | .runTimeout => none

/-- An activity waits to be picked up, or for the current attempt to end and for its heartbeats. -/
def ActivityState.Awaits (state : ActivityState) : TimerPurpose → Prop
  | .activityPickup _ => state.closed = false ∧ state.started = false ∧
      state.options.pickupTimeout.isSome = true
  | .activityAttempt _ attempt => state.closed = false ∧ state.started = true ∧
      state.attempt = attempt
  | .activityHeartbeat _ attempt => state.closed = false ∧ state.started = true ∧
      state.attempt = attempt ∧ state.options.heartbeatTimeout.isSome = true
  | _ => False

namespace ActivityState

variable {state : ActivityState} {purpose : TimerPurpose} {activityId : String}

theorem not_awaits_close : ¬ state.close.Awaits purpose := by
  cases purpose <;> simp [Awaits, close]

theorem awaits_of_waiting (isOpen : state.closed = false) (waits : state.started = false)
    (hpurpose : purpose.activityId? = some activityId) :
    state.Awaits purpose ↔
      purpose = .activityPickup activityId ∧ state.options.pickupTimeout.isSome = true := by
  cases purpose <;> simp_all [Awaits, TimerPurpose.activityId?]

theorem awaits_of_started (isOpen : state.closed = false) (started : state.started = true)
    (hpurpose : purpose.activityId? = some activityId) :
    state.Awaits purpose ↔ purpose = .activityAttempt activityId state.attempt ∨
      (purpose = .activityHeartbeat activityId state.attempt ∧
        state.options.heartbeatTimeout.isSome = true) := by
  cases purpose <;> simp_all [Awaits, TimerPurpose.activityId?]
  · exact eq_comm
  · exact fun _ => eq_comm

end ActivityState

/-- A run with these options has to have a timer for the purpose while it is open. -/
def Ledger.Awaits (ledger : Ledger) (options : WorkflowOptions) : TimerPurpose → Prop
  | .workflowTimer timerId => ledger.isTimerPending timerId = true
  | .runTimeout => options.executionTimeout.isSome = true
  | .activityPickup activityId => ∃ state, ledger.activity? activityId = some state ∧
      state.Awaits (.activityPickup activityId)
  | .activityAttempt activityId attempt => ∃ state, ledger.activity? activityId = some state ∧
      state.Awaits (.activityAttempt activityId attempt)
  | .activityHeartbeat activityId attempt => ∃ state, ledger.activity? activityId = some state ∧
      state.Awaits (.activityHeartbeat activityId attempt)

/-- What the event says of the timer: that it is pending from now on, or no longer. -/
def Event.timerNews? (timerId : String) : Event → Option Bool
  | .timerStarted started _ _ => if started = timerId then some true else none
  | .timerFired fired => if fired = timerId then some false else none
  | .timerCancelled cancelled => if cancelled = timerId then some false else none
  | _ => none

namespace Ledger

variable {ledger first second : Ledger} {options : WorkflowOptions} {purpose : TimerPurpose}
  {activityId : String} {state : ActivityState} {event : Event}

theorem awaits_congr
    (hactivity : ∀ activityId, purpose.activityId? = some activityId →
      second.activity? activityId = first.activity? activityId)
    (hpending : ∀ timerId, purpose = .workflowTimer timerId →
      second.isTimerPending timerId = first.isTimerPending timerId) :
    second.Awaits options purpose ↔ first.Awaits options purpose := by
  cases purpose <;> simp_all [Awaits, TimerPurpose.activityId?]

theorem awaits_of_some (hpurpose : purpose.activityId? = some activityId)
    (hstate : ledger.activity? activityId = some state) :
    ledger.Awaits options purpose ↔ state.Awaits purpose := by
  cases purpose <;> simp_all [Awaits, TimerPurpose.activityId?]

theorem not_awaits_of_none (hpurpose : purpose.activityId? = some activityId)
    (hstate : ledger.activity? activityId = none) : ¬ ledger.Awaits options purpose := by
  cases purpose <;> simp_all [Awaits, TimerPurpose.activityId?]

theorem isTimerPending_removeTimer (ledger : Ledger) (timerId target : String) :
    (ledger.removeTimer timerId).isTimerPending target =
      if timerId = target then false else ledger.isTimerPending target := by
  rw [Bool.eq_iff_iff]
  simp only [isTimerPending, removeTimer, List.contains_iff_mem, List.mem_filter, bne_iff_ne]
  by_cases h : timerId = target
  · simp [h]
  · simp [h, Ne.symm h]

theorem isTimerPending_modifyActivity (ledger : Ledger) (activityId target : String)
    (change : ActivityState → ActivityState) :
    (ledger.modifyActivity activityId change).isTimerPending target =
      ledger.isTimerPending target := by
  unfold modifyActivity
  split <;> rfl

theorem isTimerPending_modifyAttempt (ledger : Ledger) (activityId target : String) (attempt : Nat)
    (change : ActivityState → ActivityState) :
    (ledger.modifyAttempt activityId attempt change).isTimerPending target =
      ledger.isTimerPending target := by
  unfold modifyAttempt
  split
  · exact isTimerPending_modifyActivity _ _ _ _
  · rfl

theorem isTimerPending_apply (ledger : Ledger) (event : Event) (timerId : String) :
    (ledger.apply event).isTimerPending timerId =
      (event.timerNews? timerId).getD (ledger.isTimerPending timerId) := by
  cases event with
  | timerStarted started fireAt duration =>
      have hothers := isTimerPending_removeTimer ledger started timerId
      by_cases h : started = timerId
      · simp [apply, isTimerPending, Event.timerNews?, h]
      · rw [if_neg h] at hothers
        simp only [isTimerPending, apply, Event.timerNews?, h, if_false, Option.getD_none,
          List.contains_cons] at hothers ⊢
        have hmiss : (timerId == started) = false := by simpa using Ne.symm h
        rw [hmiss, Bool.false_or, hothers]
  | timerFired fired =>
      simp only [apply, Event.timerNews?, isTimerPending_removeTimer]
      split <;> rfl
  | timerCancelled cancelled =>
      simp only [apply, Event.timerNews?, isTimerPending_removeTimer]
      split <;> rfl
  | activityStarted | activityFailed | activityTimedOut =>
      exact isTimerPending_modifyAttempt _ _ _ _ _
  | activityCompleted | activityCancelled => exact isTimerPending_modifyActivity _ _ _ _
  | childStarted workflowId runId workflowType =>
      simp only [apply, Event.timerNews?]
      split <;> rfl
  | _ => rfl

theorem awaits_apply_of_unconcerned
    (hactivity : ∀ activityId, purpose.activityId? = some activityId →
      event.activityId? ≠ some activityId)
    (htimer : ∀ timerId, purpose = .workflowTimer timerId → event.timerNews? timerId = none) :
    (ledger.apply event).Awaits options purpose ↔ ledger.Awaits options purpose := by
  apply awaits_congr
  · intro activityId hpurpose
    rw [activity?_apply, ActivityState.follow_other _ (hactivity activityId hpurpose)]
  · intro timerId hpurpose
    rw [isTimerPending_apply, htimer timerId hpurpose, Option.getD_none]

theorem awaits_apply_of_otherTimer {timerId : String} (hactivity : event.activityId? = none)
    (hnews : ∀ target, timerId ≠ target → event.timerNews? target = none)
    (hother : purpose ≠ .workflowTimer timerId) :
    (ledger.apply event).Awaits options purpose ↔ ledger.Awaits options purpose := by
  apply awaits_apply_of_unconcerned
  · simp [hactivity]
  · rintro target rfl
    exact hnews target fun hsame => hother (hsame ▸ rfl)

theorem ofHistory_number (history : List HistoryEvent) (now : Instant) (eventId : Nat)
    (events : List Event) :
    ofHistory (history ++ RunRecord.number now eventId events) =
      events.foldl apply (ofHistory history) := by
  have hfold : (RunRecord.number now eventId events).foldl
      (fun ledger event => ledger.apply event.event) (ofHistory history) =
        ((RunRecord.number now eventId events).map HistoryEvent.event).foldl apply
          (ofHistory history) := List.foldl_map.symm
  rw [ofHistory_append, hfold, RunRecord.map_event_number]

/-! ## Scheduling and cancelling what is called for -/

/-- After the events the run waits for the timer just if it is scheduled with them or was waited for
before, and is not cancelled with them. -/
def Balances (ledger : Ledger) (options : WorkflowOptions) (events : List Event)
    (timers : List Timer) (cancelled : List TimerPurpose) (purpose : TimerPurpose) : Prop :=
  (events.foldl apply ledger).Awaits options purpose ↔
    (ledger.Awaits options purpose ∨ purpose ∈ timers.map Timer.purpose) ∧ purpose ∉ cancelled

theorem balances_of_quiet (hactivity : event.activityId? = none)
    (htimer : ∀ timerId, event.timerNews? timerId = none) :
    ledger.Balances options [event] [] [] purpose := by
  have hsame := @awaits_apply_of_unconcerned ledger options purpose event (by simp [hactivity])
    fun timerId _ => htimer timerId
  simpa [Balances] using hsame

/-- The timer that fires is gone already; others are not concerned. -/
theorem balances_of_fired {timerId : String} (hother : purpose ≠ .workflowTimer timerId) :
    ledger.Balances options [.timerFired timerId] [] [] purpose := by
  have hsame := @awaits_apply_of_otherTimer ledger options purpose (.timerFired timerId) timerId rfl
    (fun _ hne => if_neg hne) hother
  simpa [Balances] using hsame

theorem balances_of_timerStarted (timerId : String) (run : RunRef) (fireAt : Instant)
    (duration : Span) :
    ledger.Balances options [.timerStarted timerId fireAt duration]
      [⟨run, fireAt, .workflowTimer timerId⟩] [] purpose := by
  by_cases hself : purpose = .workflowTimer timerId
  · subst hself
    simp [Balances, Awaits, isTimerPending_apply, Event.timerNews?]
  · have hsame := @awaits_apply_of_otherTimer ledger options purpose
      (.timerStarted timerId fireAt duration) timerId rfl (fun _ hne => if_neg hne) hself
    simpa [Balances, hself] using hsame

theorem balances_of_timerCancelled (timerId : String) :
    ledger.Balances options [.timerCancelled timerId] [] [.workflowTimer timerId] purpose := by
  by_cases hself : purpose = .workflowTimer timerId
  · subst hself
    simp [Balances, Awaits, isTimerPending_apply, Event.timerNews?]
  · have hsame := @awaits_apply_of_otherTimer ledger options purpose (.timerCancelled timerId)
      timerId rfl (fun _ hne => if_neg hne) hself
    simpa [Balances, hself] using hsame

/-- For an event about one activity, only the timers of that activity matter. -/
theorem balances_of_activity {later : ActivityState} {timers : List Timer}
    {cancelled : List TimerPurpose} (hevent : event.activityId? = some activityId)
    (hstate : ledger.activity? activityId = some state)
    (hlater : ActivityState.follow activityId (some state) event = some later)
    (htimers : ∀ purpose ∈ timers.map Timer.purpose, purpose.activityId? = some activityId)
    (hcancelled : ∀ purpose ∈ cancelled, purpose.activityId? = some activityId)
    (hself : purpose.activityId? = some activityId →
      (later.Awaits purpose ↔
        (state.Awaits purpose ∨ purpose ∈ timers.map Timer.purpose) ∧ purpose ∉ cancelled)) :
    ledger.Balances options [event] timers cancelled purpose := by
  unfold Balances
  rw [List.foldl_cons, List.foldl_nil]
  by_cases hpurpose : purpose.activityId? = some activityId
  · have hafter : (ledger.apply event).activity? activityId = some later := by
      rw [activity?_apply, hstate, hlater]
    rw [awaits_of_some hpurpose hafter, awaits_of_some hpurpose hstate]
    exact hself hpurpose
  · have hsame := @awaits_apply_of_unconcerned ledger options purpose event
      (fun other hother hactivity => hpurpose (hother.trans (hactivity.symm.trans hevent)))
      (fun timerId _ => by cases event <;> first | rfl | cases hevent)
    have hnew : purpose ∉ timers.map Timer.purpose := fun hmem => hpurpose (htimers purpose hmem)
    have hkept : purpose ∉ cancelled := fun hmem => hpurpose (hcancelled purpose hmem)
    simp [hsame, hnew, hkept]

theorem balances_of_missed {history : List HistoryEvent} {attempt : Nat}
    (attempted : AtAttempt history activityId attempt state) (waits : state.started = false)
    (hother : purpose ≠ .activityPickup activityId) :
    (ofHistory history).Balances options
      [.activityTimedOut activityId attempt .scheduleToStart false false] [] [] purpose := by
  have hlater : ActivityState.follow activityId (some state)
      (.activityTimedOut activityId attempt .scheduleToStart false false) = some state.close := by
    simp [ActivityState.follow, Event.activityId?, ActivityState.onAttempt, attempted.isOpen,
      attempted.current, endAttempt, ActivityState.close]
  refine balances_of_activity rfl attempted.known hlater (by simp) (by simp) ?_
  intro hpurpose
  rw [ActivityState.awaits_of_waiting attempted.isOpen waits hpurpose]
  simp [ActivityState.not_awaits_close, hother]

theorem balances_of_scheduled {activityType taskQueue : String} {input : Json}
    {activityOptions : ActivityOptions} {run : Run} {built : Instant}
    (hnew : purpose.activityId? = some activityId → ledger.activity? activityId = none) :
    ledger.Balances options
      [.activityScheduled activityId activityType input taskQueue activityOptions]
      (Event.armedTimers run built
        (.activityScheduled activityId activityType input taskQueue activityOptions)) [] purpose := by
  have hafter : (ledger.apply (.activityScheduled activityId activityType input taskQueue
      activityOptions)).activity? activityId =
        some ⟨activityType, input, taskQueue, activityOptions, 1, false, false⟩ := by
    simp [activity?_apply, ActivityState.follow, Event.activityId?]
  have harmed : purpose ∈ (Event.armedTimers run built (.activityScheduled activityId activityType
      input taskQueue activityOptions)).map Timer.purpose ↔
        purpose = .activityPickup activityId ∧ activityOptions.pickupTimeout.isSome = true := by
    cases htimeout : activityOptions.pickupTimeout <;> simp [Event.armedTimers, htimeout]
  unfold Balances
  rw [List.foldl_cons, List.foldl_nil, harmed]
  by_cases hpurpose : purpose.activityId? = some activityId
  · rw [awaits_of_some hpurpose hafter, ActivityState.awaits_of_waiting rfl rfl hpurpose]
    simp [not_awaits_of_none hpurpose (hnew hpurpose)]
  · have hsame := @awaits_apply_of_unconcerned ledger options purpose
      (.activityScheduled activityId activityType input taskQueue activityOptions)
      (fun other hother hactivity => hpurpose (hother.trans hactivity.symm)) (fun _ _ => rfl)
    have hother : purpose ≠ .activityPickup activityId := fun hsame => hpurpose (hsame ▸ rfl)
    simp [hsame, hother]

/-- No timers are left for an activity that is cancelled, if those of its attempt are cancelled. -/
theorem balances_of_cancelled {dropped : List TimerPurpose}
    (hdropped : ∀ purpose ∈ dropped, purpose.activityId? = some activityId)
    (hself : purpose.activityId? = some activityId → ledger.Awaits options purpose →
      purpose ∈ dropped) :
    ledger.Balances options [.activityCancelled activityId] [] dropped purpose := by
  cases hstate : ledger.activity? activityId with
  | some state =>
      have hlater : ActivityState.follow activityId (some state) (.activityCancelled activityId) =
          some state.close := by simp [ActivityState.follow, Event.activityId?]
      refine balances_of_activity rfl hstate hlater (by simp) hdropped ?_
      intro hpurpose
      have hawaited := hself hpurpose
      rw [awaits_of_some hpurpose hstate] at hawaited
      simpa [ActivityState.not_awaits_close] using hawaited
  | none =>
      have hsame : (ledger.apply (.activityCancelled activityId)).Awaits options purpose ↔
          ledger.Awaits options purpose := by
        apply awaits_congr
        · intro other _
          rw [activity?_apply]
          by_cases hother : other = activityId
          · rw [hother, hstate]
            exact ActivityState.follow_none rfl
          · apply ActivityState.follow_other
            simpa [Event.activityId?] using Ne.symm hother
        · exact fun timerId _ => isTimerPending_apply _ _ _
      have hkept : ledger.Awaits options purpose → purpose ∉ dropped := by
        intro hawaits hmem
        exact not_awaits_of_none (hdropped purpose hmem) hstate hawaits
      simpa [Balances, hsame] using hkept

theorem Balances.concat {events : List Event} {timers more : List Timer}
    {cancelled dropped : List TimerPurpose}
    (balances : ledger.Balances options events timers cancelled purpose)
    (step : (events.foldl apply ledger).Balances options [event] more dropped purpose)
    (hfresh : purpose ∈ more.map Timer.purpose → purpose ∉ cancelled) :
    ledger.Balances options (events ++ [event]) (timers ++ more) (cancelled ++ dropped) purpose := by
  unfold Balances at balances step ⊢
  rw [List.foldl_cons, List.foldl_nil] at step
  rw [List.foldl_append, List.foldl_cons, List.foldl_nil, step, balances, List.map_append,
    List.mem_append, List.mem_append]
  grind

end Ledger

end Chronicle
