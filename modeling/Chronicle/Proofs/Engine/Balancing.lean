import Chronicle.Proofs.Engine.Awaiting

/-!
# Commits keep timers in balance

On an orderly history, whatever is committed schedules and cancels just the timers that its events
call for.  The only exceptions are commits for timers that have fired, which are gone already.
-/

namespace Chronicle

/-! ## Orderly histories -/

def Event.startsTimer (timerId : String) : Event → Bool
  | .timerStarted started _ _ => started = timerId
  | _ => false

/-- The timer is not cancelled before it is started. -/
def StopsAfterwards (timerId : String) (history : List HistoryEvent) : Prop :=
  ∀ before event, before ++ [event] <+: history → event.event.startsTimer timerId = true →
    Event.timerCancelled timerId ∉ before.map HistoryEvent.event

/-- Activities are scheduled at most once, and nothing is cancelled before it begins. -/
structure Orderly (history : List HistoryEvent) : Prop where
  once : ∀ activityId, SchedulesOnce activityId history
  cancels : ∀ activityId, CancelsAfterwards activityId history
  stops : ∀ timerId, StopsAfterwards timerId history

/-- The history is orderly as far as timers for the purpose are concerned. -/
structure OrderlyFor (purpose : TimerPurpose) (history : List HistoryEvent) : Prop where
  once : ∀ activityId, purpose.activityId? = some activityId → SchedulesOnce activityId history
  cancels : ∀ activityId, purpose.activityId? = some activityId →
    CancelsAfterwards activityId history
  stops : ∀ timerId, purpose = .workflowTimer timerId → StopsAfterwards timerId history

theorem Orderly.orderlyFor {history : List HistoryEvent} (orderly : Orderly history)
    (purpose : TimerPurpose) : OrderlyFor purpose history where
  once := fun activityId _ => orderly.once activityId
  cancels := fun activityId _ => orderly.cancels activityId
  stops := fun timerId _ => orderly.stops timerId

namespace OrderlyFor

variable {purpose other : TimerPurpose} {history first second : List HistoryEvent}
  {activityId timerId : String}

theorem of_prefix (orderly : OrderlyFor purpose second) (h : first <+: second) :
    OrderlyFor purpose first where
  once := fun activityId hactivity => SchedulesOnce.of_prefix (orderly.once activityId hactivity) h
  cancels := fun activityId hactivity =>
    CancelsAfterwards.of_prefix (orderly.cancels activityId hactivity) h
  stops := fun timerId htimer before event hinitial =>
    orderly.stops timerId htimer before event (hinitial.trans h)

/-- For a timer of an activity, only that activity matters. -/
theorem of_activity (orderly : OrderlyFor purpose history)
    (hpurpose : purpose.activityId? = some activityId)
    (hother : other.activityId? = some activityId) : OrderlyFor other history where
  once := fun named hnamed => orderly.once named (by rw [hpurpose, ← hother, hnamed])
  cancels := fun named hnamed => orderly.cancels named (by rw [hpurpose, ← hother, hnamed])
  stops := by
    rintro timerId rfl
    cases hother

/-- For timers of activities, it is enough that all activities are in order. -/
theorem of_activities (orderly : ∀ activityId, SchedulesOnce activityId history ∧
      CancelsAfterwards activityId history) (hpurpose : purpose.activityId? = some activityId) :
    OrderlyFor purpose history where
  once := fun activityId _ => (orderly activityId).1
  cancels := fun activityId _ => (orderly activityId).2
  stops := by
    rintro timerId rfl
    cases hpurpose

/-- For a timer of the workflow, it is enough that nobody cancels it. -/
theorem of_uncancelled (h : Event.timerCancelled timerId ∉ history.map HistoryEvent.event) :
    OrderlyFor (.workflowTimer timerId) history where
  once := fun _ hnone => nomatch hnone
  cancels := fun _ hnone => nomatch hnone
  stops := by
    rintro _ ⟨⟩ before event hinitial - hmem
    have hearly := (List.prefix_append before [event]).trans hinitial
    exact h ((hearly.map HistoryEvent.event).subset hmem)

end OrderlyFor

/-- An activity that is scheduled only once is not known before. -/
theorem SchedulesOnce.activity?_eq_none {activityId : String} {history : List HistoryEvent}
    {event : HistoryEvent} (honce : SchedulesOnce activityId (history ++ [event]))
    (h : event.event.schedules activityId = true) :
    (Ledger.ofHistory history).activity? activityId = none := by
  cases hstate : (Ledger.ofHistory history).activity? activityId with
  | none => rfl
  | some state =>
      obtain ⟨earlier, hmem, hschedules⟩ := Ledger.schedules_of_activity? hstate
      have hpositive : 0 < history.countP fun event => event.event.schedules activityId :=
        List.countP_pos_iff.2 ⟨earlier, hmem, hschedules⟩
      rw [SchedulesOnce, List.countP_append, List.countP_singleton, if_pos h] at honce
      omega

namespace Orderly

variable {history : List HistoryEvent} {activityId : String}

theorem of_uncancelled {events : List Event} (hevents : history.map HistoryEvent.event = events)
    (honce : ∀ activityId, events.countP (Event.schedules activityId) ≤ 1)
    (hactivity : ∀ activityId, Event.activityCancelled activityId ∉ events)
    (htimer : ∀ timerId, Event.timerCancelled timerId ∉ events) : Orderly history where
  once := by
    intro activityId
    have hcount := honce activityId
    rw [← hevents, List.countP_map] at hcount
    exact hcount
  cancels := fun activityId => .of_none (hevents ▸ hactivity activityId)
  stops := by
    rintro timerId before event hinitial - hmem
    have hearly := (List.prefix_append before [event]).trans hinitial
    exact htimer timerId (hevents ▸ (hearly.map HistoryEvent.event).subset hmem)

end Orderly

/-- An attempt that was picked up and is still open has started. -/
theorem Recounts.started_of_pickedUp {activityId : String} {attempt : Nat}
    {history : List HistoryEvent} {state : ActivityState} (recounts : Recounts history)
    (once : SchedulesOnce activityId history) (picked : PickedUp activityId attempt history)
    (hstate : (Ledger.ofHistory history).activity? activityId = some state) :
    attempt < state.attempt ∨ (attempt = state.attempt ∧ state.started = true) := by
  obtain ⟨scheduling, hmem, hscheduled⟩ :=
    List.mem_map.1 (Ledger.scheduled_of_activity? hstate)
  obtain ⟨before, after, rfl⟩ := List.append_of_mem hmem
  obtain ⟨known, hknown, reflects, -⟩ := recounts.reflects once hscheduled
  rw [hstate, Option.some.injEq] at hknown
  subst hknown
  apply reflects.started
  obtain ⟨workerId, hpicked⟩ := picked
  rw [List.map_append, List.mem_append, List.map_cons, List.mem_cons] at hpicked
  rcases hpicked with hearly | hself | hlate
  · -- nothing before schedules the activity
    exfalso
    have hearlier := List.prefix_append before (scheduling :: after)
    apply (recounts.of_prefix hearlier).not_pickedUp _ ⟨workerId, hearly⟩
    have hschedules : scheduling.event.schedules activityId = true := by
      simp [hscheduled, Event.schedules]
    rw [SchedulesOnce, List.countP_append, List.countP_cons, if_pos hschedules] at once
    have hnone : before.countP (fun event => event.event.schedules activityId) = 0 := by omega
    simpa using List.countP_eq_zero.1 hnone
  · rw [hscheduled] at hself
    cases hself
  · obtain ⟨started, hstarted, hevent⟩ := List.mem_map.1 hlate
    exact List.mem_filterMap.2 ⟨started, hstarted, by simp [hevent, Event.news?]⟩

theorem AtAttempt.started {activityId : String} {attempt : Nat} {history : List HistoryEvent}
    {state : ActivityState} (attempted : AtAttempt history activityId attempt state)
    (recounts : Recounts history) (once : SchedulesOnce activityId history)
    (picked : PickedUp activityId attempt history) : state.started = true := by
  have hcurrent := attempted.current
  rcases recounts.started_of_pickedUp once picked attempted.known with hearlier | ⟨-, hstarted⟩
  · omega
  · exact hstarted

/-! ## Updates -/

theorem Provided.options_eq {history : List HistoryEvent} {work : ActivityTask}
    {state : ActivityState} (provided : Provided history work)
    (once : SchedulesOnce work.activityId history)
    (hstate : (Ledger.ofHistory history).activity? work.activityId = some state) :
    state.options = work.options := by
  obtain ⟨taskQueue, hscheduled⟩ := provided.scheduled
  obtain ⟨known, hknown, -, -, -, hoptions, -⟩ := Ledger.activity?_of_scheduled once hscheduled
  rw [hstate, Option.some.injEq] at hknown
  exact hknown ▸ hoptions

section Timers

variable {work : ActivityTask} {run : Run} {state : ActivityState} {activityId : String}
  {delay : Span} {now : Instant} {purpose : TimerPurpose}

theorem ActivityService.mem_startTimers :
    purpose ∈ (startTimers work now).map Timer.purpose ↔
      purpose = .activityAttempt work.activityId work.attempt ∨
        (purpose = .activityHeartbeat work.activityId work.attempt ∧
          work.options.heartbeatTimeout.isSome = true) := by
  cases htimeout : work.options.heartbeatTimeout <;> simp [startTimers, htimeout]

theorem mem_beatTimers :
    purpose ∈ (beatTimers work now).map Timer.purpose ↔
      purpose = .activityHeartbeat work.activityId work.attempt ∧
        work.options.heartbeatTimeout.isSome = true := by
  cases htimeout : work.options.heartbeatTimeout <;> simp [beatTimers, htimeout]

theorem mem_retryTimers :
    purpose ∈ (retryTimers run state activityId delay now).map Timer.purpose ↔
      purpose = .activityPickup activityId ∧ state.options.pickupTimeout.isSome = true := by
  cases htimeout : state.options.pickupTimeout <;> simp [retryTimers, htimeout]

theorem AttemptOutcome.mem_attemptTimers {attempt : Nat} :
    purpose ∈ attemptTimers activityId attempt ↔
      purpose = .activityAttempt activityId attempt ∨
        purpose = .activityHeartbeat activityId attempt := by
  simp [attemptTimers]

end Timers

namespace Ledger

variable {history : List HistoryEvent} {options : WorkflowOptions} {purpose : TimerPurpose}
  {work : ActivityTask} {state : ActivityState} {activityId : String} {attempt : Nat}
  {event : Event} {delay : Span} {now : Instant}

theorem balances_of_started {workerId : String} (provided : Provided history work)
    (attempted : AtAttempt history work.activityId work.attempt state)
    (waits : state.started = false) (orderly : OrderlyFor purpose history) :
    (ofHistory history).Balances options
      [.activityStarted work.activityId work.attempt workerId]
      (ActivityService.startTimers work now) [.activityPickup work.activityId] purpose := by
  have hcurrent := attempted.current
  have hlater : ActivityState.follow work.activityId (some state)
      (.activityStarted work.activityId work.attempt workerId) =
        some { state with started := true } := by
    simp [ActivityState.follow, Event.activityId?, ActivityState.onAttempt, attempted.isOpen,
      hcurrent]
  refine balances_of_activity rfl attempted.known hlater ?_ ?_ ?_
  · intro other hmem
    rcases ActivityService.mem_startTimers.1 hmem with rfl | ⟨rfl, -⟩ <;> rfl
  · simp [TimerPurpose.activityId?]
  · -- the pickup timer is traded for those of the attempt
    intro hpurpose
    have hoptions := provided.options_eq (orderly.once _ hpurpose) attempted.known
    have hbefore := ActivityState.awaits_of_waiting attempted.isOpen waits hpurpose
    have hafter := @ActivityState.awaits_of_started { state with started := true } _ _
      attempted.isOpen rfl hpurpose
    rw [hafter, hbefore, ActivityService.mem_startTimers, hcurrent, hoptions,
      List.mem_singleton]
    grind

theorem balances_of_beat {details : Option Json} (provided : Provided history work)
    (attempted : AtAttempt history work.activityId work.attempt state)
    (picked : PickedUp work.activityId work.attempt history) (recounts : Recounts history)
    (orderly : OrderlyFor purpose history) :
    (ofHistory history).Balances options
      [.activityHeartbeat work.activityId work.attempt details] (beatTimers work now) []
      purpose := by
  have hlater : ActivityState.follow work.activityId (some state)
      (.activityHeartbeat work.activityId work.attempt details) = some state := by
    simp [ActivityState.follow, Event.activityId?]
  refine balances_of_activity rfl attempted.known hlater ?_ (by rintro _ ⟨⟩) ?_
  · intro other hmem
    rw [(mem_beatTimers.1 hmem).1]
    rfl
  · intro hpurpose
    have hoptions := provided.options_eq (orderly.once _ hpurpose) attempted.known
    have hstarted := attempted.started recounts (orderly.once _ hpurpose) picked
    rw [ActivityState.awaits_of_started attempted.isOpen hstarted hpurpose, mem_beatTimers,
      attempted.current, hoptions]
    simp

theorem balances_of_ended (attempted : AtAttempt history activityId attempt state)
    (picked : PickedUp activityId attempt history)
    (ends : EndsAttempt state.options.retryPolicy activityId attempt none event)
    (recounts : Recounts history) (orderly : OrderlyFor purpose history) :
    (ofHistory history).Balances options [event] []
      (AttemptOutcome.attemptTimers activityId attempt) purpose := by
  have hlater := ends.follow_last attempted.isOpen attempted.current
  refine balances_of_activity ends.facts.1 attempted.known hlater (by rintro _ ⟨⟩) ?_ ?_
  · intro other hmem
    rcases AttemptOutcome.mem_attemptTimers.1 hmem with rfl | rfl <;> rfl
  · intro hpurpose
    have hstarted := attempted.started recounts (orderly.once _ hpurpose) picked
    have hbefore := ActivityState.awaits_of_started attempted.isOpen hstarted hpurpose
    have hmem := @AttemptOutcome.mem_attemptTimers activityId purpose attempt
    rw [attempted.current] at hbefore
    simp only [ActivityState.not_awaits_close, hbefore, hmem, List.map_nil, List.not_mem_nil]
    grind

theorem balances_of_retried {run : Run} (attempted : AtAttempt history activityId attempt state)
    (picked : PickedUp activityId attempt history)
    (ends : EndsAttempt state.options.retryPolicy activityId attempt (some delay) event)
    (recounts : Recounts history) (orderly : OrderlyFor purpose history) :
    (ofHistory history).Balances options [event] (retryTimers run state activityId delay now)
      (AttemptOutcome.attemptTimers activityId attempt) purpose := by
  have hlater := ends.follow_retry attempted.isOpen attempted.current
  refine balances_of_activity ends.facts.1 attempted.known hlater ?_ ?_ ?_
  · intro other hmem
    rw [(mem_retryTimers.1 hmem).1]
    rfl
  · intro other hmem
    rcases AttemptOutcome.mem_attemptTimers.1 hmem with rfl | rfl <;> rfl
  · -- the next attempt waits to be picked up, as the first one did
    intro hpurpose
    have hstarted := attempted.started recounts (orderly.once _ hpurpose) picked
    have hbefore := ActivityState.awaits_of_started attempted.isOpen hstarted hpurpose
    have hafter := @ActivityState.awaits_of_waiting
      { state with attempt := attempt + 1, started := false } _ _ attempted.isOpen rfl hpurpose
    have hmem := @AttemptOutcome.mem_attemptTimers activityId purpose attempt
    rw [attempted.current] at hbefore
    simp only [hafter, hbefore, hmem, mem_retryTimers]
    grind

end Ledger

theorem Update.balances {run : Run} {history : List HistoryEvent} {commit : Commit}
    {options : WorkflowOptions} {purpose : TimerPurpose}
    (update : Update False run history commit) (hclosing : commit.closing = none)
    (recounts : Recounts history) (orderly : OrderlyFor purpose history) :
    (Ledger.ofHistory history).Balances options commit.events commit.timers commit.cancelledTimers
      purpose := by
  cases update with
  | @reported event report =>
      apply Ledger.balances_of_quiet
      · cases event <;> first | rfl | cases report
      · cases event <;> first | exact fun _ => rfl | cases report
  | forced ends => cases hclosing
  | started workerId now own provided attempted waits =>
      exact Ledger.balances_of_started provided attempted waits orderly
  | beat details now own provided picked attempted =>
      exact Ledger.balances_of_beat provided attempted picked recounts orderly
  | ended attempted picked ends =>
      exact Ledger.balances_of_ended attempted (picked.resolve_left id) ends recounts orderly
  | retried now attempted picked ends =>
      exact Ledger.balances_of_retried attempted (picked.resolve_left id) ends recounts orderly
  | fired allowed pending => exact allowed.elim
  | missed allowed attempted waits => exact allowed.elim

/-! ## Decisions -/

theorem CancelsAfterwards.not_mem_of_concat {activityId : String} {history : List HistoryEvent}
    {event : HistoryEvent} (afterwards : CancelsAfterwards activityId (history ++ [event]))
    (h : event.event.schedules activityId = true) :
    Event.activityCancelled activityId ∉ history.map HistoryEvent.event :=
  afterwards history event List.prefix_rfl h

namespace Decision

variable {run : Run} {ledger : Ledger} {built : Instant} {events : List Event} {activityId : String}
  {purpose : TimerPurpose}

theorem activityId?_of_disarmed
    (h : purpose ∈ Event.disarmedTimers ledger (.activityCancelled activityId)) :
    purpose.activityId? = some activityId := by
  simp only [Event.disarmedTimers, List.mem_cons] at h
  rcases h with rfl | hattempt
  · rfl
  · cases hstate : ledger.activity? activityId with
    | none => simp [hstate] at hattempt
    | some state =>
        simp only [hstate, AttemptOutcome.attemptTimers, List.mem_cons, List.not_mem_nil,
          or_false] at hattempt
        rcases hattempt with rfl | rfl <;> rfl

theorem mem_disarmed_of_activity (hpurpose : purpose.activityId? = some activityId)
    (h : purpose ∈ events.flatMap (Event.disarmedTimers ledger)) :
    Event.activityCancelled activityId ∈ events := by
  obtain ⟨event, hmem, hdisarmed⟩ := List.mem_flatMap.1 h
  cases event with
  | timerCancelled timerId =>
      rw [List.mem_singleton.1 hdisarmed] at hpurpose
      cases hpurpose
  | activityCancelled cancelled =>
      have hsame := activityId?_of_disarmed hdisarmed
      rw [hpurpose, Option.some.injEq] at hsame
      exact hsame ▸ hmem
  | _ => cases hdisarmed

theorem mem_disarmed_of_timer {timerId : String}
    (h : .workflowTimer timerId ∈ events.flatMap (Event.disarmedTimers ledger)) :
    Event.timerCancelled timerId ∈ events := by
  obtain ⟨event, hmem, hdisarmed⟩ := List.mem_flatMap.1 h
  cases event with
  | timerCancelled cancelled =>
      cases List.mem_singleton.1 hdisarmed
      exact hmem
  | activityCancelled cancelled =>
      simp only [Event.disarmedTimers, List.mem_cons, reduceCtorEq, false_or] at hdisarmed
      cases hstate : ledger.activity? cancelled <;>
        simp [hstate, AttemptOutcome.attemptTimers] at hdisarmed
  | _ => cases hdisarmed

theorem not_mem_armed {attempt : Nat}
    (h : purpose = .activityAttempt activityId attempt ∨
      purpose = .activityHeartbeat activityId attempt) :
    purpose ∉ (events.flatMap (Event.armedTimers run built)).map Timer.purpose := by
  intro hmem
  obtain ⟨timer, htimer, rfl⟩ := List.mem_map.1 hmem
  obtain ⟨event, -, harmed⟩ := List.mem_flatMap.1 htimer
  cases event with
  | activityScheduled scheduled activityType input taskQueue options =>
      cases htimeout : options.pickupTimeout <;> simp [Event.armedTimers, htimeout] at harmed
      subst harmed
      simp at h
  | timerStarted timerId fireAt duration =>
      rw [List.mem_singleton.1 harmed] at h
      simp at h
  | _ => cases harmed

/-- An event arms no timer that an earlier one of the same decision disarms. -/
theorem not_disarmed_of_armed {history : List HistoryEvent} {now : Instant} {eventId next : Nat}
    {event : Event}
    (orderly : OrderlyFor purpose (history ++ RunRecord.number now eventId events ++
      RunRecord.number now next [event]))
    (harmed : purpose ∈ (Event.armedTimers run built event).map Timer.purpose) :
    purpose ∉ events.flatMap (Event.disarmedTimers ledger) := by
  intro hdisarmed
  cases event with
  | activityScheduled activityId activityType input taskQueue activityOptions =>
      have hpurpose : purpose.activityId? = some activityId := by
        cases htimeout : activityOptions.pickupTimeout <;>
          simp [Event.armedTimers, htimeout] at harmed
        rw [harmed]
        rfl
      have hnot := (orderly.cancels activityId hpurpose).not_mem_of_concat
        (by simp [Event.schedules, HistoryEvent.ofEvent])
      rw [List.map_append, RunRecord.map_event_number] at hnot
      exact hnot (List.mem_append_right _ (mem_disarmed_of_activity hpurpose hdisarmed))
  | timerStarted timerId fireAt duration =>
      have hpurpose : purpose = .workflowTimer timerId := by
        simpa [Event.armedTimers] using harmed
      have hnot := orderly.stops timerId hpurpose _ _ List.prefix_rfl
        (by simp [Event.startsTimer, HistoryEvent.ofEvent])
      rw [List.map_append, RunRecord.map_event_number] at hnot
      exact hnot (List.mem_append_right _ (mem_disarmed_of_timer (hpurpose ▸ hdisarmed)))
  | _ => cases harmed

/-- Cancelling an activity disarms what the ledger awaits for it. A decision that comes to that
may have armed its pickup timer, but none for an attempt. -/
theorem mem_disarmedTimers_of_awaits {options : WorkflowOptions}
    (hpurpose : purpose.activityId? = some activityId)
    (h : ledger.Awaits options purpose ∨
      purpose ∈ (events.flatMap (Event.armedTimers run built)).map Timer.purpose) :
    purpose ∈ Event.disarmedTimers ledger (.activityCancelled activityId) := by
  cases purpose with
  | activityPickup picked =>
      cases hpurpose
      exact List.mem_cons_self
  | activityAttempt attempted attempt =>
      cases hpurpose
      obtain ⟨state, hstate, -, -, rfl⟩ := h.resolve_right (not_mem_armed (.inl rfl))
      simp [Event.disarmedTimers, hstate, AttemptOutcome.attemptTimers]
  | activityHeartbeat beating attempt =>
      cases hpurpose
      obtain ⟨state, hstate, -, -, rfl, -⟩ := h.resolve_right (not_mem_armed (.inr rfl))
      simp [Event.disarmedTimers, hstate, AttemptOutcome.attemptTimers]
  | workflowTimer timerId => cases hpurpose
  | runTimeout => cases hpurpose

theorem balances {history : List HistoryEvent} {options : WorkflowOptions} {now : Instant}
    {eventId : Nat} (hkinds : ∀ event ∈ events, event.key? ≠ none ∨ isRejection event = true)
    (orderly : OrderlyFor purpose (history ++ RunRecord.number now eventId events)) :
    (Ledger.ofHistory history).Balances options events
      (events.flatMap (Event.armedTimers run built))
      (events.flatMap (Event.disarmedTimers (Ledger.ofHistory history))) purpose := by
  induction events using List.reverseRecOn with
  | nil => simp [Ledger.Balances]
  | append_singleton earlier event ih =>
      rw [RunRecord.number_append, ← List.append_assoc] at orderly
      have hearlier := ih (fun other hmem => hkinds other (by simp [hmem]))
        (orderly.of_prefix (List.prefix_append _ _))
      rw [List.flatMap_append, List.flatMap_append, List.flatMap_singleton, List.flatMap_singleton]
      -- it is left to say what the last event does, in the ledger after the earlier ones
      refine hearlier.concat ?_ (not_disarmed_of_armed orderly)
      cases event with
      | activityScheduled activityId activityType input taskQueue activityOptions =>
          refine Ledger.balances_of_scheduled ?_
          intro hpurpose
          rw [← Ledger.ofHistory_number history now eventId earlier]
          exact (orderly.once _ hpurpose).activity?_eq_none
            (by simp [Event.schedules, HistoryEvent.ofEvent])
      | timerStarted timerId fireAt duration =>
          exact Ledger.balances_of_timerStarted timerId run.ref fireAt duration
      | timerCancelled timerId => exact Ledger.balances_of_timerCancelled timerId
      | activityCancelled activityId =>
          refine Ledger.balances_of_cancelled
            (fun _ hdisarmed => activityId?_of_disarmed hdisarmed) ?_
          intro hpurpose hawaits
          exact mem_disarmedTimers_of_awaits hpurpose (hearlier.1 hawaits).1
      | activityStarted | activityHeartbeat | activityCompleted | activityFailed
      | activityTimedOut | timerFired =>
          exfalso
          have hkind := hkinds _ (List.mem_append_right earlier (List.mem_singleton_self _))
          simp [Event.key?, isRejection] at hkind
      | _ => exact Ledger.balances_of_quiet rfl (fun _ => rfl)

end Decision

/-! ## Whatever is committed -/

/-- The timer is the run's, and if it is for the workflow, it fires when the workflow asked for. -/
structure Timer.IsCalledFor (timer : Timer) (ref : RunRef) (events : List Event) : Prop where
  own : timer.run = ref
  recorded : ∀ timerId, timer.purpose = .workflowTimer timerId →
    ∃ duration, Event.timerStarted timerId timer.fireAt duration ∈ events

theorem Timer.IsCalledFor.of_activity {timer : Timer} {ref : RunRef} {events : List Event}
    {activityId : String} (own : timer.run = ref)
    (hpurpose : timer.purpose.activityId? = some activityId) : timer.IsCalledFor ref events where
  own := own
  recorded := by
    intro timerId htimer
    rw [htimer] at hpurpose
    cases hpurpose

theorem Update.isCalledFor {fires : Prop} {run : Run} {history : List HistoryEvent}
    {commit : Commit} (update : Update fires run history commit) {timer : Timer}
    (hmem : timer ∈ commit.timers) : timer.IsCalledFor run.ref commit.events := by
  cases update with
  | @started work state workerId now own provided attempted waits =>
      simp only [ActivityService.startTimers, List.mem_cons] at hmem
      rcases hmem with rfl | hsilence
      · exact .of_activity own rfl
      · cases htimeout : work.options.heartbeatTimeout <;> simp [htimeout] at hsilence
        subst hsilence
        exact .of_activity own rfl
  | @beat work state details now own provided picked attempted =>
      cases htimeout : work.options.heartbeatTimeout <;> simp [beatTimers, htimeout] at hmem
      subst hmem
      exact .of_activity own rfl
  | @retried activityId attempt state event delay now attempted picked ends =>
      cases htimeout : state.options.pickupTimeout <;> simp [retryTimers, htimeout] at hmem
      subst hmem
      exact .of_activity rfl rfl
  | _ => cases hmem

theorem Decision.Provisions.isCalledFor {run : Run} {ledger : Ledger} {built : Instant}
    {commit : Commit} (provisions : Provisions run ledger built commit) {timer : Timer}
    (hmem : timer ∈ commit.timers) : timer.IsCalledFor run.ref commit.events := by
  rw [provisions.timers] at hmem
  obtain ⟨event, hevent, harmed⟩ := List.mem_flatMap.1 hmem
  cases event with
  | activityScheduled activityId activityType input taskQueue options =>
      cases htimeout : options.pickupTimeout <;> simp [Event.armedTimers, htimeout] at harmed
      subst harmed
      exact .of_activity rfl rfl
  | timerStarted timerId fireAt duration =>
      rw [List.mem_singleton.1 harmed]
      exact ⟨rfl, by rintro _ ⟨⟩; exact ⟨duration, hevent⟩⟩
  | _ => cases harmed

namespace Rules.Writes

variable {rules : Rules} {fires : Prop} {run : Run} {history : List HistoryEvent} {commit : Commit}

theorem isCalledFor (writes : rules.Writes fires run history commit) {timer : Timer}
    (hmem : timer ∈ commit.timers) : timer.IsCalledFor run.ref commit.events := by
  rcases writes with update | ⟨engine, -, decided⟩
  · exact update.isCalledFor hmem
  · obtain ⟨built, provisions⟩ := decided.provisions
    exact provisions.isCalledFor hmem

theorem balances (writes : rules.Writes False run history commit) (hclosing : commit.closing = none)
    (recounts : Recounts history) {now : Instant} {eventId : Nat}
    {purpose : TimerPurpose}
    (orderly : OrderlyFor purpose (history ++ RunRecord.number now eventId commit.events))
    (options : WorkflowOptions) :
    (Ledger.ofHistory history).Balances options commit.events commit.timers commit.cancelledTimers
      purpose := by
  rcases writes with update | ⟨engine, -, decided⟩
  · exact update.balances hclosing recounts (orderly.of_prefix (List.prefix_append _ _))
  · obtain ⟨built, provisions⟩ := decided.provisions
    rw [provisions.timers, provisions.cancelledTimers]
    exact Decision.balances (fun _ hmem => decided.key?_or_isRejection hmem) orderly

end Rules.Writes

end Chronicle
