import Chronicle.Engine.Outcome
import Chronicle.Proofs.Engine.Batches

/-!
# What a decision provides for

The tasks and timers of a decision follow from the events that it records: each activity that is
scheduled gets a task, each timer that is started gets a timer, and what is cancelled is taken back.
-/

namespace Chronicle

namespace Event

def scheduledTask? (run : Run) : Event → Option NewTask
  | .activityScheduled activityId activityType input taskQueue options =>
      some ⟨taskQueue, .activity ⟨run.ref, activityId, activityType, input, options, 1⟩, .zero⟩
  | _ => none

def armedTimers (run : Run) (now : Instant) : Event → List Timer
  | .activityScheduled activityId _ _ _ options =>
      match options.pickupTimeout with
      | some timeout => [⟨run.ref, now.after timeout, .activityPickup activityId⟩]
      | none => []
  | .timerStarted timerId fireAt _ => [⟨run.ref, fireAt, .workflowTimer timerId⟩]
  | _ => []

def disarmedTimers (ledger : Ledger) : Event → List TimerPurpose
  | .timerCancelled timerId => [.workflowTimer timerId]
  | .activityCancelled activityId =>
      .activityPickup activityId :: match ledger.activity? activityId with
        | some state => AttemptOutcome.attemptTimers activityId state.attempt
        | none => []
  | _ => []

def cancelledActivity? : Event → Option String
  | .activityCancelled activityId => some activityId
  | _ => none

end Event

namespace Decision

variable {run : Run} {ledger : Ledger} {now : Instant}

/-- All tasks, timers and cancellations come from events. -/
structure Provides (run : Run) (ledger : Ledger) (now : Instant) (commit : Commit) : Prop where
  tasks : commit.tasks = commit.events.filterMap (Event.scheduledTask? run)
  timers : commit.timers = commit.events.flatMap (Event.armedTimers run now)
  cancelledTimers : commit.cancelledTimers = commit.events.flatMap (Event.disarmedTimers ledger)
  cancelledActivities : commit.cancelledActivities =
    commit.events.filterMap Event.cancelledActivity?

theorem Provides.empty : Provides run ledger now .empty := ⟨rfl, rfl, rfl, rfl⟩

theorem Provides.add {first second : Commit} {event : Event}
    (provides : Provides run ledger now first) (hevents : second.events = first.events ++ [event])
    (htasks : second.tasks = first.tasks ++ (event.scheduledTask? run).toList)
    (htimers : second.timers = first.timers ++ event.armedTimers run now)
    (hcancelledTimers : second.cancelledTimers =
      first.cancelledTimers ++ event.disarmedTimers ledger)
    (hcancelledActivities : second.cancelledActivities =
      first.cancelledActivities ++ event.cancelledActivity?.toList) :
    Provides run ledger now second where
  tasks := by
    rw [htasks, hevents, List.filterMap_append, provides.tasks]
    cases htask : event.scheduledTask? run <;> simp [htask]
  timers := by simp [htimers, hevents, provides.timers]
  cancelledTimers := by simp [hcancelledTimers, hevents, provides.cancelledTimers]
  cancelledActivities := by
    rw [hcancelledActivities, hevents, List.filterMap_append, provides.cancelledActivities]
    cases hcancelled : event.cancelledActivity? <;> simp [hcancelled]

/-- An event that provides for nothing is recorded. -/
theorem Provides.plain {first second : Commit} {event : Event}
    (provides : Provides run ledger now first) (hevents : second.events = first.events ++ [event])
    (htasks : second.tasks = first.tasks) (htimers : second.timers = first.timers)
    (hcancelledTimers : second.cancelledTimers = first.cancelledTimers)
    (hcancelledActivities : second.cancelledActivities = first.cancelledActivities)
    (htask : event.scheduledTask? run = none) (harmed : event.armedTimers run now = [])
    (hdisarmed : event.disarmedTimers ledger = []) (hcancelled : event.cancelledActivity? = none) :
    Provides run ledger now second :=
  provides.add hevents (by simp [htasks, htask]) (by simp [htimers, harmed])
    (by simp [hcancelledTimers, hdisarmed]) (by simp [hcancelledActivities, hcancelled])

theorem Provides.startChild {draft next : Draft} {workflowId workflowType : String} {input : Json}
    {taskQueue : Option String} {options : WorkflowOptions}
    (provides : Provides run ledger now draft.commit)
    (h : (Decision.startChild run draft workflowId workflowType input taskQueue
      options).Yields (.ok next)) : Provides run ledger now next.commit := by
  rcases draft_of_startChild h with ⟨failure, rfl | rfl⟩ | ⟨-, runId, rfl⟩ <;>
    exact provides.plain rfl rfl rfl rfl rfl rfl rfl rfl rfl

theorem Provides.addCommand {draft next : Draft} {command : Command}
    (provides : Provides run ledger now draft.commit)
    (h : (Decision.addCommand run ledger now draft command).Yields (.ok next)) :
    Provides run ledger now next.commit := by
  cases command with
  | startChild workflowId workflowType input taskQueue options => exact provides.startChild h
  | complete result =>
      obtain ⟨continued, -, hnext⟩ := h.of_bind
      cases hnext.eq_of_pure
      exact provides.plain rfl rfl rfl rfl rfl rfl rfl rfl rfl
  | fail failure =>
      obtain ⟨continued, -, hnext⟩ := h.of_bind
      cases hnext.eq_of_pure
      exact provides.plain rfl rfl rfl rfl rfl rfl rfl rfl rfl
  | cancel reason =>
      cases h.eq_of_pure
      exact provides.plain rfl rfl rfl rfl rfl rfl rfl rfl rfl
  | awaitSignal signalName =>
      cases h.eq_of_pure
      exact provides
  | awaitCondition conditionId timeout =>
      cases h.eq_of_pure
      exact provides
  | scheduleActivity activityId activityType input options =>
      cases h.eq_of_pure
      refine provides.add rfl rfl ?_ (List.append_nil _).symm (List.append_nil _).symm
      cases htimeout : options.pickupTimeout <;>
        simp [scheduleActivity, Event.armedTimers, htimeout, Draft.record, Draft.addTimers,
          Draft.addTask]
  | startTimer timerId duration =>
      cases h.eq_of_pure
      exact provides.add rfl (List.append_nil _).symm rfl (List.append_nil _).symm
        (List.append_nil _).symm
  | cancelTimer timerId =>
      cases h.eq_of_pure
      exact provides.add rfl (List.append_nil _).symm (List.append_nil _).symm rfl
        (List.append_nil _).symm
  | cancelActivity activityId =>
      cases h.eq_of_pure
      refine provides.add rfl (List.append_nil _).symm (List.append_nil _).symm ?_ rfl
      cases hstate : ledger.activity? activityId <;>
        simp [cancelActivity, Event.disarmedTimers, hstate, Draft.record, Draft.cancelTimers,
          AttemptOutcome.attemptTimers]

/-- Besides, a decision that rejected a child wakes its workflow. -/
structure Provisions (run : Run) (ledger : Ledger) (now : Instant) (commit : Commit) : Prop where
  tasks : ∃ wakes, commit.tasks = commit.events.filterMap (Event.scheduledTask? run) ++ wakes ∧
    (wakes = [run.workflowTask] ∨
      wakes = [] ∧ ∀ event ∈ commit.events, isRejection event = false)
  timers : commit.timers = commit.events.flatMap (Event.armedTimers run now)
  cancelledTimers : commit.cancelledTimers = commit.events.flatMap (Event.disarmedTimers ledger)
  cancelledActivities : commit.cancelledActivities =
    commit.events.filterMap Event.cancelledActivity?

theorem isRejection_of_key? {event : Event} (h : event.key? ≠ none) : isRejection event = false := by
  cases hrejection : isRejection event with
  | false => rfl
  | true => exact absurd (key?_of_isRejection hrejection) h

theorem provisions_of_build {commands : List Command} {commit : Commit}
    (h : (build run ledger commands now).Yields (.ok commit)) :
    Provisions run ledger now commit := by
  obtain ⟨draft, rfl, hadded⟩ := draft_of_build h
  have records := Records.empty.addCommands rfl hadded
  have provides := addCommands_induction
    (fun before after command _ (provides : Provides run ledger now before.commit) =>
      provides.addCommand) rfl .empty hadded
  have hkeyed : ∀ event ∈ draft.commit.events, isRejection event = false :=
    fun event hmem => isRejection_of_key? (records.key?_ne_none hmem)
  unfold finish
  split
  · exact ⟨⟨[], by simp [provides.tasks], .inr ⟨rfl, hkeyed⟩⟩, provides.timers,
      provides.cancelledTimers, provides.cancelledActivities⟩
  · have hnothing : ∀ event ∈ draft.trailing, event.scheduledTask? run = none ∧
        event.armedTimers run now = [] ∧ event.disarmedTimers ledger = [] ∧
        event.cancelledActivity? = none := by
      intro event hmem
      have hrejection := records.trailing event hmem
      cases event <;> simp_all [isRejection, Event.scheduledTask?, Event.armedTimers,
        Event.disarmedTimers, Event.cancelledActivity?]
    constructor
    · refine ⟨[run.workflowTask], ?_, .inl rfl⟩
      have htrailing : draft.trailing.filterMap (Event.scheduledTask? run) = [] :=
        List.filterMap_eq_nil_iff.2 fun event hmem => (hnothing event hmem).1
      simp [provides.tasks, htrailing]
    · have htrailing : draft.trailing.flatMap (Event.armedTimers run now) = [] :=
        List.flatMap_eq_nil_iff.2 fun event hmem => (hnothing event hmem).2.1
      simp [provides.timers, htrailing]
    · have htrailing : draft.trailing.flatMap (Event.disarmedTimers ledger) = [] :=
        List.flatMap_eq_nil_iff.2 fun event hmem => (hnothing event hmem).2.2.1
      simp [provides.cancelledTimers, htrailing]
    · have htrailing : draft.trailing.filterMap Event.cancelledActivity? = [] :=
        List.filterMap_eq_nil_iff.2 fun event hmem => (hnothing event hmem).2.2.2
      simp [provides.cancelledActivities, htrailing]

end Decision

end Chronicle
