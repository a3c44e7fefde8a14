import Chronicle.Proofs.Engine.Firing
import Chronicle.Proofs.Program.Timeliness

/-!
# Engines, clients and timer services keep to the time

Timers count from the time that a decision or a revision has read off the clock after it read the
history.  Only timer services record that a time is up, and they do so for timers that were due.
-/

namespace Chronicle

variable {outlasts : Span → Prop} {works : List ActivityTask} {charge : Charge} {ref : RunRef}
  {history : List HistoryEvent}

/-! ## Revisions -/

namespace Revision

variable {α : Type}

/-- Whenever the revision is made, what it writes keeps to the time. -/
def Allowed (outlasts : Span → Prop) (charge : Charge) (ref : RunRef) (history : List HistoryEvent) :
    Revision α → Prop
  | .keep _ => True
  | .write commit => charge.Allows outlasts ref history none commit
  | .writeAt commit => ∀ now, charge.Allows outlasts ref history (some now) (commit now)

theorem outcome_timely {revision : Revision α} {sight : Sight}
    (hhistory : sight.history = some (ref, history)) (hclock : sight.clock = none)
    (allowed : revision.Allowed outlasts charge ref history) :
    revision.outcome.Timely outlasts (fun outcome later => later.charge = sight.charge ∧
      ∀ commit, outcome = .ok commit → later.history = some (ref, history) ∧
        charge.Allows outlasts ref history later.clock commit) sight := by
  cases revision with
  | keep reason => exact ⟨rfl, fun commit h => nomatch h⟩
  | write commit =>
      refine ⟨rfl, ?_⟩
      rintro _ ⟨⟩
      exact ⟨hhistory, hclock ▸ allowed⟩
  | writeAt commit =>
      apply Program.Timely.inquire rfl
      intro now
      refine ⟨rfl, ?_⟩
      rintro _ ⟨⟩
      exact ⟨hhistory, allowed now⟩

/-- Until the revision is accepted, and of timers for which it records nothing, all remain. -/
theorem attempt_timely {reviser : Reviser α}
    (allowed : ∀ (run : Run) history, run.ref = ref →
      (reviser run (.ofHistory history)).Allowed outlasts charge ref history)
    (rounds : Nat) {sight : Sight} (within : charge.Within sight.charge) :
    (attempt ref reviser rounds).Timely outlasts (fun result later => ∀ timer ∈ sight.charge.due,
      (∀ purpose, charge.Raises outlasts ref purpose → timer.key ≠ (ref, purpose)) ∨
        (∃ error, result = .error error) → timer ∈ later.charge.due) sight := by
  induction rounds generalizing sight with
  | zero => exact fun timer hmem _ => hmem
  | succ rounds ih =>
      unfold attempt
      apply Program.Timely.request (sight.permits_of_free rfl)
      intro got href
      cases got with
      | error error => exact fun timer hmem _ => hmem
      | ok run =>
          simp only
          split
          · exact fun timer hmem _ => hmem
          · apply Program.Timely.inquire rfl
            intro read
            cases read with
            | error error => exact fun timer hmem _ => hmem
            | ok history =>
                apply Program.Timely.bind
                apply (outcome_timely rfl rfl (allowed run history href)).weaken
                rintro outcome later - ⟨hcharge, hlater⟩
                replace hcharge : later.charge = sight.charge := hcharge
                cases outcome with
                | error reason => exact fun timer hmem _ => hcharge ▸ hmem
                | ok commit =>
                    obtain ⟨hhistory, allows⟩ := hlater commit rfl
                    apply Program.Timely.request
                    · exact ⟨history, hhistory, rfl, allows.grow (hcharge ▸ within)⟩
                    · intro answer _
                      cases answer with
                      | ok version =>
                          -- the commit settles what it raises an alarm for, and nothing else
                          intro timer hmem hkept
                          refine Charge.mem_settle.2 ⟨hcharge ▸ hmem, fun hsettled => ?_⟩
                          obtain ⟨purpose, halarm, hkey⟩ := List.mem_map.1 hsettled
                          rcases hkept with hother | ⟨error, herror⟩
                          · exact hother purpose (allows.alarms purpose halarm) hkey.symm
                          · cases herror
                      | error error =>
                          cases error with
                          | versionConflict expected found =>
                              have again := @ih later (hcharge ▸ within)
                              rwa [hcharge] at again
                          | _ => exact fun timer hmem _ => hcharge ▸ hmem

end Revision

theorem Program.OnTime.revise {α : Type} {reviser : Reviser α} (engine : Engine)
    (allowed : ∀ (run : Run) history, run.ref = ref →
      (reviser run (.ofHistory history)).Allowed outlasts (.ofWorks works) ref history) :
    (engine.revise ref reviser).OnTime outlasts works fun _ => True :=
  fun _ hworks => (Revision.attempt_timely allowed engine.rounds (.ofWorks hworks)).weaken
    fun _ _ _ _ => trivial

theorem Program.OnTime.discard {α : Type} {program : Program α}
    (onTime : program.OnTime outlasts works fun _ => True) :
    program.discard.OnTime outlasts works fun _ => True :=
  onTime.bind fun _ _ => .pure trivial

/-! ## Alarms -/

theorem Commit.alarms_single {commit : Commit} {event : Event} (hevents : commit.events = [event]) :
    commit.alarms = event.alarm?.toList := by
  rw [alarms, hevents]
  cases halarm : event.alarm? <;> simp [halarm]

theorem Commit.raises_of_alarm {commit : Commit} {event : Event} {purpose : TimerPurpose}
    (hevents : commit.events = [event])
    (raises : ∀ purpose, event.alarm? = some purpose → charge.Raises outlasts ref purpose)
    (hmem : purpose ∈ commit.alarms) : charge.Raises outlasts ref purpose := by
  rw [alarms_single hevents, Option.mem_toList] at hmem
  exact raises purpose hmem

/-- The commit sets no timer, and its alarm is for what has come due. -/
theorem Charge.Allows.alarm {commit : Commit} {event : Event} {clock : Option Instant}
    (hevents : commit.events = [event]) (htimers : commit.timers = [])
    (raises : ∀ purpose, event.alarm? = some purpose → charge.Raises outlasts ref purpose) :
    charge.Allows outlasts ref history clock commit where
  timers := fun _ hmem => absurd (htimers ▸ hmem) List.not_mem_nil
  alarms := fun _ hmem => Commit.raises_of_alarm hevents raises hmem

namespace AttemptOutcome

variable {activityId : String} {attempt : Nat}

def alarm? (activityId : String) (attempt : Nat) : AttemptOutcome → Option TimerPurpose
  | .timedOut timeout => (Event.activityTimedOut activityId attempt timeout false false).alarm?
  | _ => none

theorem retryRevision_allowed {run : Run} {state : ActivityState} (href : run.ref = ref)
    (hstate : (Ledger.ofHistory history).activity? activityId = some state) (delay : Span)
    {event : Event}
    (raises : ∀ purpose, event.alarm? = some purpose → charge.Raises outlasts ref purpose) :
    (retryRevision run state activityId attempt delay event).Allowed outlasts charge ref history := by
  unfold retryRevision
  simp only
  split
  · exact .alarm rfl rfl raises
  · rename_i timeout htimeout
    intro now
    constructor
    case alarms => exact fun _ hmem => Commit.raises_of_alarm rfl raises hmem
    case timers =>
      intro timer hmem
      rw [List.mem_singleton.1 hmem]
      refine ⟨href, ⟨now, timeout, delay.plus timeout⟩, rfl, ⟨?_, rfl⟩, .inl ?_⟩
      · have hcentury : Instant.century.nanos ≤ Span.longest.nanos := by decide
        change (timeout.min Instant.century).nanos ≤ (delay.plus timeout).nanos
        unfold Span.plus Span.min
        split <;> simp only [Nat.le_min] <;> omega
      · refine .before (Ledger.scheduled_of_activity? hstate) ?_ (by simp [TimerPurpose.activityId?])
        simp [Event.limit?, TimerPurpose.activityId?, ActivityOptions.limit?, htimeout]

theorem reviser_allowed {run : Run} (href : run.ref = ref) {outcome : AttemptOutcome}
    (raises : ∀ purpose, outcome.alarm? activityId attempt = some purpose →
      charge.Raises outlasts ref purpose) :
    (reviser activityId attempt outcome run (.ofHistory history)).Allowed outlasts charge ref
      history := by
  have hfailed : ∀ (state : ActivityState) (failure : ActivityFailure)
      (event : Bool → Bool → Event),
      (Ledger.ofHistory history).activity? activityId = some state →
      (∀ again exhausted purpose, (event again exhausted).alarm? = some purpose →
        charge.Raises outlasts ref purpose) →
      (failureRevision run state activityId attempt failure event).Allowed outlasts charge ref
        history := by
    intro state failure event hstate hevent
    unfold failureRevision
    split
    · exact retryRevision_allowed href hstate _ (hevent _ _)
    · exact .alarm rfl rfl (hevent _ _)
  unfold reviser
  split
  · trivial
  · rename_i state hstate
    split
    · cases outcome with
      | completed result => exact .of_plain rfl rfl
      | failed failure => exact hfailed state _ _ hstate fun _ _ purpose hnone => nomatch hnone
      | timedOut timeout =>
          apply hfailed state _ _ hstate
          intro again exhausted purpose halarm
          apply raises purpose
          cases timeout <;> exact halarm
    · trivial

end AttemptOutcome

/-! ## Decisions -/

/-- The event is no alarm, and a timer that it starts counts from the instant. -/
def Event.CountsFrom (now : Instant) : Event → Prop
  | .timerStarted _ fireAt duration => fireAt = now.after duration
  | event => event.alarm? = none

theorem Event.CountsFrom.alarm? {now : Instant} {event : Event} (counts : event.CountsFrom now) :
    event.alarm? = none := by
  cases event <;> first | rfl | exact counts

namespace Decision

variable {run : Run} {ledger : Ledger} {now : Instant}

def Draft.CountsFrom (draft : Draft) (now : Instant) : Prop :=
  ∀ event ∈ draft.commit.events ++ draft.trailing, event.CountsFrom now

theorem Draft.CountsFrom.add {draft next : Draft} (counts : draft.CountsFrom now) {event : Event}
    (hevents : next.commit.events = draft.commit.events ++ [event])
    (htrailing : ∀ other ∈ next.trailing, other ∈ draft.trailing ∨ other.CountsFrom now)
    (hevent : event.CountsFrom now) : next.CountsFrom now := by
  intro other hmem
  rw [hevents, List.append_assoc, List.mem_append, List.mem_append, List.mem_singleton] at hmem
  rcases hmem with hold | rfl | hlater
  · exact counts other (List.mem_append_left _ hold)
  · exact hevent
  · exact (htrailing other hlater).elim (fun hold => counts other (List.mem_append_right _ hold)) id

theorem Draft.CountsFrom.reject {draft : Draft} (counts : draft.CountsFrom now)
    (workflowId workflowType : String) (failure : Failure) :
    (rejectChild draft workflowId workflowType failure).CountsFrom now := by
  refine counts.add rfl (fun other hmem => ?_) rfl
  refine (List.mem_append.1 hmem).imp_right fun hnew => ?_
  rw [List.mem_singleton.1 hnew]
  rfl

theorem Draft.CountsFrom.named {draft : Draft} (counts : draft.CountsFrom now)
    (workflowId : String) :
    { draft with children := workflowId :: draft.children }.CountsFrom now := counts

theorem addCommand_counts {draft next : Draft} {command : Command} (counts : draft.CountsFrom now)
    (h : (addCommand run ledger now draft command).Yields (.ok next)) : next.CountsFrom now := by
  cases command with
  | startChild workflowId workflowType input taskQueue options =>
      have hnamed := Draft.CountsFrom.named counts workflowId
      rcases draft_of_startChild h with ⟨failure, rfl | rfl⟩ | ⟨-, runId, rfl⟩
      · exact counts.reject workflowId workflowType failure
      · exact hnamed.reject workflowId workflowType failure
      · exact hnamed.add rfl (fun _ => .inl) rfl
  | complete result =>
      obtain ⟨continued, -, hnext⟩ := h.of_bind
      cases hnext.eq_of_pure
      exact counts.add rfl (fun _ => .inl) rfl
  | fail failure =>
      obtain ⟨continued, -, hnext⟩ := h.of_bind
      cases hnext.eq_of_pure
      exact counts.add rfl (fun _ => .inl) rfl
  | awaitSignal signalName =>
      cases h.eq_of_pure
      exact counts
  | awaitCondition conditionId timeout =>
      cases h.eq_of_pure
      exact counts
  | _ =>
      cases h.eq_of_pure
      exact counts.add rfl (fun _ => .inl) rfl

theorem counts_of_build {commands : List Command} {commit : Commit}
    (h : (build run ledger commands now).Yields (.ok commit)) :
    ∀ event ∈ commit.events, event.CountsFrom now := by
  obtain ⟨draft, rfl, hadded⟩ := draft_of_build h
  have empty : Draft.empty.CountsFrom now := fun _ hnone => nomatch hnone
  have counts : draft.CountsFrom now :=
    addCommands_induction (fun before after command _ counts => addCommand_counts counts) rfl empty
      hadded
  intro event hmem
  unfold finish at hmem
  split at hmem
  · exact counts event (List.mem_append_left _ hmem)
  · exact counts event hmem

theorem allows_of_build {commands : List Command} {commit : Commit}
    (h : (build run ledger commands now).Yields (.ok commit)) :
    charge.Allows outlasts run.ref history (some now) commit where
  alarms := by
    intro purpose hmem
    obtain ⟨event, hevent, halarm⟩ := List.mem_filterMap.1 hmem
    rw [(counts_of_build h event hevent).alarm?] at halarm
    cases halarm
  timers := by
    intro timer hmem
    rw [(provisions_of_build h).timers] at hmem
    obtain ⟨event, hevent, harmed⟩ := List.mem_flatMap.1 hmem
    have counts := counts_of_build h event hevent
    cases event with
    | activityScheduled activityId activityType input taskQueue options =>
        cases htimeout : options.pickupTimeout <;> simp [Event.armedTimers, htimeout] at harmed
        subst harmed
        refine ⟨rfl, ⟨now, _, _⟩, rfl, ⟨Instant.min_century_le _, rfl⟩, .inl (.now hevent ?_)⟩
        simp [Event.limit?, TimerPurpose.activityId?, ActivityOptions.limit?, htimeout]
    | timerStarted timerId fireAt duration =>
        rw [List.mem_singleton.1 harmed]
        refine ⟨rfl, ⟨now, duration, duration⟩, rfl, ⟨Instant.min_century_le _, counts⟩,
          .inl (.now hevent ?_)⟩
        simp [Event.limit?]
    | _ => cases harmed

/-! ### Requests -/

theorem nextRun_looksAway (run : Run) (failure : Option Failure) (now : Instant) :
    (nextRun run failure now).LooksAway := by
  unfold nextRun
  split
  · trivial
  · split
    · exact ⟨rfl, fun _ => trivial⟩
    · trivial

theorem isRunning_looksAway (workflowId : String) : (isRunning workflowId).LooksAway := by
  refine ⟨rfl, fun answer => ?_⟩
  simp only [Program.bind]
  split <;> trivial

theorem resolveChild_looksAway (run : Run) (draft : Draft) (workflowId workflowType : String)
    (input : Json) (taskQueue : Option String) (options : WorkflowOptions)
    (running : Except EngineError Bool) :
    (resolveChild run draft workflowId workflowType input taskQueue options running).LooksAway := by
  unfold resolveChild
  split
  · trivial
  · trivial
  · exact ⟨rfl, fun _ => trivial⟩

theorem addCommand_looksAway (run : Run) (ledger : Ledger) (now : Instant) (draft : Draft)
    (command : Command) : (addCommand run ledger now draft command).LooksAway := by
  cases command with
  | startChild workflowId workflowType input taskQueue options =>
      rcases startChild_cases run draft workflowId workflowType input taskQueue options with
        ⟨failure, hrejected⟩ | hrepeated | ⟨-, hasked⟩
      · rw [addCommand, hrejected]
        trivial
      · rw [addCommand, hrepeated]
        exact resolveChild_looksAway _ _ _ _ _ _ _ _
      · rw [addCommand, hasked]
        exact (isRunning_looksAway workflowId).bind fun running => resolveChild_looksAway _ _ _ _ _ _ _ _
  | complete result => exact (nextRun_looksAway run none now).bind fun _ => trivial
  | fail failure => exact (nextRun_looksAway run (some failure) now).bind fun _ => trivial
  | _ => trivial

theorem addCommands_looksAway (run : Run) (ledger : Ledger) (now : Instant) (draft : Draft)
    (commands : List Command) : (addCommands run ledger now draft commands).LooksAway := by
  induction commands generalizing draft with
  | nil => trivial
  | cons command rest ih =>
      apply (addCommand_looksAway run ledger now draft command).bind
      intro result
      cases result with
      | error error => trivial
      | ok next =>
          simp only
          split
          · trivial
          · exact ih next

theorem build_looksAway (run : Run) (ledger : Ledger) (commands : List Command) (now : Instant) :
    (build run ledger commands now).LooksAway := by
  apply (addCommands_looksAway run ledger now .empty commands).bind
  intro result
  cases result <;> trivial

end Decision

/-! ## Engines -/

namespace Engine

variable {engine : Engine}

theorem noticeCommit_allowed {event : Event} (hplain : event.alarm? = none) (run : Run)
    (ledger : Ledger) : (noticeCommit event run ledger).Allowed outlasts charge ref history :=
  .of_plain rfl (by simp [Commit.alarms, Commit.ofEvents, hplain])

theorem forceClose_allowed {event : Event}
    (raises : ∀ purpose, event.alarm? = some purpose → charge.Raises outlasts ref purpose)
    (closing : Closing) (run : Run) (ledger : Ledger) :
    (forceClose event closing run ledger).Allowed outlasts charge ref history :=
  .alarm rfl rfl raises

theorem forceClose_onTime {event : Event} (hplain : event.alarm? = none) (closing : Closing) :
    (engine.revise ref (forceClose event closing)).OnTime outlasts works fun _ => True :=
  .revise engine fun run history _ =>
    forceClose_allowed (fun purpose halarm => by simp [hplain] at halarm) closing run _

theorem signal_onTime (ref : RunRef) (received : Signal) :
    (engine.signal ref received).OnTime outlasts works fun _ => True :=
  .revise engine fun run _ _ => noticeCommit_allowed rfl run _

theorem requestCancellation_onTime (ref : RunRef) (reason : String) :
    (engine.requestCancellation ref reason).OnTime outlasts works fun _ => True :=
  .revise engine fun run _ _ => noticeCommit_allowed rfl run _

theorem terminate_onTime (ref : RunRef) (reason : String) :
    (engine.terminate ref reason).OnTime outlasts works fun _ => True :=
  forceClose_onTime rfl _

theorem start_onTime (new : NewRun) : (start new).OnTime outlasts works fun _ => True := by
  unfold start
  split
  · exact .pure trivial
  · apply (Program.OnTime.ask rfl).bind
    intro answer _
    cases answer <;> exact .pure trivial

theorem query_onTime (ref : RunRef) (name : String) (args : Json) :
    (engine.query ref name args).OnTime outlasts works fun _ => True := by
  apply (Program.OnTime.ask rfl).bind
  intro read _
  cases read with
  | error error => exact .pure trivial
  | ok history =>
      simp only
      split
      · exact .crash _ _
      · exact .pure trivial
      · split <;> exact .pure trivial

theorem failInvalidInput_onTime (ref : RunRef) (reason : String) :
    (engine.failInvalidInput ref reason).OnTime outlasts works fun _ => True := by
  apply (forceClose_onTime rfl _).bind
  intro result _
  split <;> exact .pure trivial

/-- A decision reads the clock after the history, and asks nothing then that would matter. -/
theorem commitDecision_timely {run : Run} {sight : Sight} (commands : List Command)
    {again : Program (Except EngineError TaskResult)} (hworks : works ⊆ sight.charge.works)
    (hhistory : sight.history = some (run.ref, history))
    (hagain : again.OnTime outlasts works fun _ => True) :
    (commitDecision run history commands again).Timely outlasts (fun _ _ => True) sight := by
  apply Program.Timely.inquire rfl
  intro now
  apply Program.Timely.bind
  apply ((Decision.build_looksAway run _ commands now).timely _).weaken
  rintro result later - ⟨built, rfl⟩
  cases result with
  | error error => trivial
  | ok commit =>
      apply Program.Timely.request
      · exact ⟨history, hhistory, rfl, Decision.allows_of_build built⟩
      · intro answer _
        have hlater := hagain ((sight.learn .now now).learn (.commit _ _ commit) answer)
          (List.Subset.trans hworks ((sight.learn .now now).works_learn _ answer))
        split
        · trivial
        · exact hlater
        · exact hlater
        · trivial
        · trivial

theorem processTask_onTime (ref : RunRef) :
    (engine.processTask ref).OnTime outlasts works fun _ => True := by
  unfold processTask
  induction engine.rounds with
  | zero => exact .pure trivial
  | succ rounds ih =>
      unfold advance
      apply Program.OnTime.request rfl
      intro got href
      cases got with
      | error error => exact .pure trivial
      | ok run =>
          obtain rfl : run.ref = ref := href
          simp only
          split
          · exact .pure trivial
          · intro sight within
            apply Program.Timely.inquire rfl
            intro read
            cases read with
            | error error => trivial
            | ok history =>
                simp only
                split
                · trivial
                · unfold decide
                  split
                  · trivial
                  · exact failInvalidInput_onTime _ _ _ within
                  · trivial
                  · split
                    · trivial
                    · split
                      · trivial
                      · exact commitDecision_timely _ within rfl ih

end Engine

/-! ## Clients -/

namespace Client

variable {α : Type} {client : Client}

theorem liftEngine_onTime {program : Program (Except EngineError α)}
    (onTime : program.OnTime outlasts works fun _ => True) :
    (liftEngine program).OnTime outlasts works fun _ => True := by
  apply onTime.bind
  intro result _
  cases result <;> exact .pure trivial

theorem forget_onTime {program : Program (Except ClientError α)}
    (onTime : program.OnTime outlasts works fun _ => True) :
    (forget program).OnTime outlasts works fun _ => True := by
  apply onTime.bind
  intro result _
  cases result <;> exact .pure trivial

theorem onCurrentRun_onTime (workflowId : String) {use : Run → Program (Except ClientError α)}
    (onTime : ∀ run, (use run).OnTime outlasts works fun _ => True) :
    (onCurrentRun workflowId use).OnTime outlasts works fun _ => True := by
  apply (Program.OnTime.ask rfl).bind
  intro result _
  cases result with
  | error error => exact .pure trivial
  | ok run => exact onTime run

theorem start_onTime (workflowType workflowId taskQueue : String) (input : Json)
    (options : WorkflowOptions) :
    (start workflowType workflowId taskQueue input options).OnTime outlasts works
      fun _ => True := by
  apply (Program.OnTime.ask rfl).bind
  intro runId _
  apply (liftEngine_onTime (Engine.start_onTime _)).bind
  intro result _
  cases result <;> exact .pure trivial

theorem signal_onTime (workflowId name : String) (payload : Json) :
    (client.signal workflowId name payload).OnTime outlasts works fun _ => True := by
  apply onCurrentRun_onTime
  intro run
  apply (Program.OnTime.ask rfl).bind
  intro now _
  exact forget_onTime (liftEngine_onTime (Engine.signal_onTime _ _))

theorem query_onTime (workflowId name : String) (args : Json) :
    (client.query workflowId name args).OnTime outlasts works fun _ => True := by
  apply onCurrentRun_onTime
  intro run
  split
  · exact liftEngine_onTime (Engine.query_onTime _ _ _)
  · exact .pure trivial

theorem history_onTime (workflowId : String) :
    (Client.history workflowId).OnTime outlasts works fun _ => True := by
  apply onCurrentRun_onTime
  intro run
  apply (Program.OnTime.ask rfl).bind
  intro result _
  cases result <;> exact .pure trivial

end Client

theorem ResultWait.follow_onTime (interval : Span) (moment : Moment) (limit : Nat)
    (wait : ResultWait) : (follow interval moment limit wait).OnTime outlasts works
      fun _ => True := by
  induction limit generalizing wait with
  | zero => exact .crash _ _
  | succ limit ih =>
      have hlook : (Client.lookForResult wait.run).OnTime outlasts works fun _ => True := by
        apply (Program.OnTime.ask rfl).bind
        intro result _
        cases result <;> exact .pure trivial
      unfold follow
      apply hlook.bind
      intro look _
      cases look with
      | finished result => exact .pure trivial
      | follow next => exact ih _
      | stillRunning =>
          simp only
          split <;> exact .pure trivial

/-! ## Timer services -/

namespace TimerService

variable {service : TimerService} {timer : Timer}

theorem reviser_allowed {purpose : TimerPurpose} {run : Run} (href : run.ref = ref)
    (raises : charge.Raises outlasts ref purpose) :
    (purpose.reviser run (.ofHistory history)).Allowed outlasts charge ref history := by
  have hself : ∀ other, some purpose = some other → charge.Raises outlasts ref other := by
    rintro _ ⟨⟩
    exact raises
  cases purpose with
  | workflowTimer timerId =>
      simp only [TimerPurpose.reviser, workflowTimer]
      split
      · exact .alarm rfl rfl hself
      · trivial
  | activityPickup activityId =>
      simp only [TimerPurpose.reviser, pickupTimeout]
      split
      · trivial
      · split
        · trivial
        · exact .alarm rfl rfl hself
  | activityAttempt activityId attempt => exact AttemptOutcome.reviser_allowed href hself
  | activityHeartbeat activityId attempt => exact AttemptOutcome.reviser_allowed href hself
  | runTimeout =>
      exact @Engine.forceClose_allowed _ _ _ _ .workflowTimedOut hself _ run _

/-- Whether a timer fires or not, other timers that are due remain so, and if it fails it does. -/
theorem fire_timely {sight : Sight} (hdue : timer ∈ sight.charge.due) :
    (service.fire timer).Timely outlasts (fun result later => ∀ other ∈ sight.charge.due,
      other.key ≠ timer.key ∨ (∃ error, result = .error error) → other ∈ later.charge.due)
      sight := by
  have within : (⟨[], [timer]⟩ : Charge).Within sight.charge :=
    ⟨List.nil_subset _, List.cons_subset.2 ⟨hdue, List.nil_subset _⟩⟩
  have hself : ∀ purpose, (⟨[], [timer]⟩ : Charge).Raises outlasts timer.run purpose →
      timer.key = (timer.run, purpose) := by
    rintro purpose (hkey | ⟨work, hnone, -⟩)
    · exact (List.mem_singleton.1 hkey).symm
    · cases hnone
  rw [fire_eq]
  apply (Revision.attempt_timely (fun run _ href => reviser_allowed href
    (.inl List.mem_cons_self)) service.engine.rounds within).weaken
  intro result later _ hkept other hmem hother
  apply hkept other hmem
  refine hother.imp_left fun hne purpose raises => ?_
  rwa [← hself purpose raises]

theorem fireOrReschedule_timely {sight : Sight} (hdue : timer ∈ sight.charge.due) :
    (service.fireOrReschedule timer).Timely outlasts (fun _ later => ∀ other ∈ sight.charge.due,
      other.key ≠ timer.key → other ∈ later.charge.due) sight := by
  apply Program.Timely.bind
  apply (fire_timely hdue).weaken
  intro result later _ hkept
  split
  · exact fun other hmem hne => hkept other hmem (.inl hne)
  · exact fun other hmem hne => hkept other hmem (.inl hne)
  · exact fun other hmem hne => hkept other hmem (.inl hne)
  · apply Program.Timely.inquire rfl
    intro now
    have hthere : timer.key ∈ later.charge.due.map Timer.key :=
      List.mem_map_of_mem (hkept timer hdue (.inr ⟨_, rfl⟩))
    refine ⟨hthere, fun answer _ => ?_⟩
    intro other hmem hne
    have hother := hkept other hmem (.inl hne)
    cases answer with
    | error error => exact hother
    | ok _ => exact Charge.mem_settle.2 ⟨hother, fun hsame => hne (List.mem_singleton.1 hsame)⟩

/-- The timers of a batch are fired one by one, each of them once. -/
theorem fireAll_timely {due : List Timer} {sight : Sight} (hdue : due ⊆ sight.charge.due)
    (hdistinct : (due.map Timer.key).Nodup) :
    (service.fireAll due).Timely outlasts (fun _ _ => True) sight := by
  induction due generalizing sight with
  | nil => trivial
  | cons timer rest ih =>
      rw [List.map_cons, List.nodup_cons] at hdistinct
      apply Program.Timely.bind
      apply (fireOrReschedule_timely (hdue List.mem_cons_self)).weaken
      intro result later _ hkept
      cases result with
      | error error => trivial
      | ok _ =>
          refine ih (fun other hmem => ?_) hdistinct.2
          refine hkept other (hdue (List.mem_cons_of_mem _ hmem)) fun hsame => ?_
          exact hdistinct.1 (hsame ▸ List.mem_map_of_mem hmem)

/-- What is fired was given to the service, at a time that it has read off the clock. -/
theorem drain_timely (limit fired : Nat) (sight : Sight) :
    (service.drain limit fired).Timely outlasts (fun _ _ => True) sight := by
  induction limit generalizing fired sight with
  | zero => trivial
  | succ limit ih =>
      unfold drain
      apply Program.Timely.inquire rfl
      intro now
      apply Program.Timely.request
      · exact (rfl : (sight.learn .now now).clock = some now)
      intro result hdistinct
      cases result with
      | error error => trivial
      | ok due =>
          apply Program.Timely.bind
          apply (fireAll_timely (List.subset_append_left _ _) hdistinct).weaken
          intro value later _ _
          cases value with
          | error error => trivial
          | ok _ =>
              simp only
              split
              · trivial
              · exact ih _ later

theorem drain_onTime (limit fired : Nat) :
    (service.drain limit fired).OnTime outlasts works fun _ => True :=
  fun sight _ => drain_timely limit fired sight

end TimerService

end Chronicle
