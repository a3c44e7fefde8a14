import Chronicle.Proofs.Replay.Reaction
import Mathlib.Data.List.Forall2

/-!
# Repeated replays

A history is replayed again and again, with other limits and after more of it was decided.  As
long as a handler does not look at whether it is repeated, each replay that comes to its end does
the same; what it remembers of its calls can differ as far as the calls of one handler can.
-/

namespace Chronicle

/-- State and step of a reaction do not depend on whether the event is handled again. -/
def WorkflowType.Deterministic (workflow : WorkflowType) : Prop :=
  ∀ state context stimulus reaction replaying,
    workflow.react state context stimulus = .ok reaction →
    ∃ other, workflow.react state { context with replaying := replaying } stimulus = .ok other ∧
      other.state = reaction.state ∧ other.step = reaction.step

/-- Handlers do the same whether or not the event is handled again, and their calls are alike. -/
def WorkflowType.Repeatable (workflow : WorkflowType) (alike : HandlerCall → HandlerCall → Prop) :
    Prop :=
  ∀ state context stimulus reaction replaying,
    workflow.react state context stimulus = .ok reaction →
    ∃ other, workflow.react state { context with replaying := replaying } stimulus = .ok other ∧
      other.state = reaction.state ∧ other.step = reaction.step ∧
      alike ⟨context, stimulus, reaction.step, reaction.drawn⟩
        ⟨{ context with replaying := replaying }, stimulus, other.step, other.drawn⟩

theorem WorkflowType.Deterministic.repeatable {workflow : WorkflowType}
    (hdeterministic : workflow.Deterministic) : workflow.Repeatable fun _ _ => True := by
  intro state context stimulus reaction replaying hreact
  obtain ⟨other, hother, hstate, hstep⟩ :=
    hdeterministic state context stimulus reaction replaying hreact
  exact ⟨other, hother, hstate, hstep, trivial⟩

namespace Replayer

variable {workflow : WorkflowType} {alike : HandlerCall → HandlerCall → Prop}

/-! ## Other horizons -/

def withCalls (replayer : Replayer workflow) (calls : List HandlerCall) : Replayer workflow :=
  { replayer with calls := calls }

section

variable (replayer : Replayer workflow) (calls : List HandlerCall)

@[simp] theorem withCalls_pending : (replayer.withCalls calls).pending = replayer.pending := rfl

@[simp] theorem withCalls_draining : (replayer.withCalls calls).draining = replayer.draining := rfl

@[simp] theorem withCalls_terminalPending :
    (replayer.withCalls calls).terminalPending = replayer.terminalPending := rfl

@[simp] theorem withCalls_inbox : (replayer.withCalls calls).inbox = replayer.inbox := rfl

@[simp] theorem withCalls_conditions :
    (replayer.withCalls calls).conditions = replayer.conditions := rfl

@[simp] theorem withCalls_startedTimers :
    (replayer.withCalls calls).startedTimers = replayer.startedTimers := rfl

@[simp] theorem withCalls_cancelledTimers :
    (replayer.withCalls calls).cancelledTimers = replayer.cancelledTimers := rfl

@[simp] theorem withCalls_cancelledActivities :
    (replayer.withCalls calls).cancelledActivities = replayer.cancelledActivities := rfl

@[simp] theorem withCalls_cancelRequested :
    (replayer.withCalls calls).cancelRequested = replayer.cancelRequested := rfl

@[simp] theorem withCalls_closed : (replayer.withCalls calls).closed = replayer.closed := rfl

@[simp] theorem withCalls_isDeliverable :
    (replayer.withCalls calls).isDeliverable = replayer.isDeliverable := rfl

@[simp] theorem withCalls_isSatisfied :
    (replayer.withCalls calls).isSatisfied = replayer.isSatisfied := rfl

end

theorem acceptCommand_withCalls (replayer : Replayer workflow) (calls : List HandlerCall)
    (command : Command) :
    (replayer.withCalls calls).acceptCommand command =
      (replayer.acceptCommand command).withCalls calls := by
  unfold acceptCommand
  rw [withCalls_terminalPending]
  split
  · rfl
  · cases command <;> rfl

theorem accept_withCalls (replayer : Replayer workflow) (calls : List HandlerCall) (step : Step) :
    (replayer.withCalls calls).accept step = (replayer.accept step).withCalls calls := by
  rw [accept_eq_foldl, accept_eq_foldl]
  generalize Step.commands step = commands
  induction commands generalizing replayer with
  | nil => rfl
  | cons command rest ih => rw [List.foldl_cons, acceptCommand_withCalls, ih, List.foldl_cons]

theorem noteRecorded_withCalls (replayer : Replayer workflow) (calls : List HandlerCall)
    (event : Event) :
    (replayer.withCalls calls).noteRecorded event =
      (replayer.noteRecorded event).withCalls calls := by
  unfold noteRecorded
  split
  · rfl
  · rfl
  · rfl
  · split <;> rfl

/-- What the first replay returns, the second one returns as well, with calls that are alike. -/
def Repeats (alike : HandlerCall → HandlerCall → Prop)
    (first second : Except ReplayStop (Replayer workflow)) : Prop :=
  ∀ result, first = .ok result →
    ∃ calls, List.Forall₂ alike result.calls calls ∧ second = .ok (result.withCalls calls)

theorem Repeats.ok {replayer : Replayer workflow} {calls : List HandlerCall}
    (hcalls : List.Forall₂ alike replayer.calls calls) :
    Repeats alike (.ok replayer) (.ok (replayer.withCalls calls)) := by
  intro result h
  cases h
  exact ⟨calls, hcalls, rfl⟩

theorem Repeats.error (stop : ReplayStop) (second : Except ReplayStop (Replayer workflow)) :
    Repeats alike (.error stop) second := by
  intro result h
  cases h

/-- What goes on after a repeated replay repeats what went on after the first one. -/
theorem Repeats.andThen {first second : Except ReplayStop (Replayer workflow)}
    {next again : Replayer workflow → Except ReplayStop (Replayer workflow)} :
    Repeats alike first second →
    (∀ replayer calls, List.Forall₂ alike replayer.calls calls →
      Repeats alike (next replayer) (again (replayer.withCalls calls))) →
    Repeats alike
      (match first with
        | .error stop => .error stop
        | .ok replayer => next replayer)
      (match second with
        | .error stop => .error stop
        | .ok replayer => again replayer) := by
  intro repeats hnext result h
  cases first with
  | error stop => cases h
  | ok middle =>
      obtain ⟨calls, hcalls, hsecond⟩ := repeats middle rfl
      rw [hsecond]
      exact hnext middle calls hcalls result h

section

variable (hrepeatable : workflow.Repeatable alike) (frame : ReplayFrame) (horizon : Nat)
  (event : HistoryEvent) {replayer : Replayer workflow} {calls : List HandlerCall}
  (hcalls : List.Forall₂ alike replayer.calls calls)

include hrepeatable hcalls

theorem dispatch_repeats (stimulus : Stimulus) :
    Repeats alike (dispatch frame event replayer stimulus)
      (dispatch { frame with horizon := horizon } event (replayer.withCalls calls) stimulus) := by
  intro result h
  rcases dispatch_cases h with ⟨hidle, hresult⟩ | ⟨hterminal, hclosed, reaction, hreact, hresult⟩
  · have hbusy : (replayer.terminalPending || replayer.closed) = true := by simpa using hidle
    refine ⟨calls, hresult ▸ hcalls, ?_⟩
    unfold dispatch
    rw [withCalls_terminalPending, withCalls_closed, hbusy, if_pos rfl, hresult]
  · obtain ⟨other, hother, hstate, hstep, halike⟩ := hrepeatable replayer.state
      (contextOf frame event) stimulus reaction (event.eventId < horizon) hreact
    have hactive : ((replayer.withCalls calls).terminalPending ||
        (replayer.withCalls calls).closed) = false := by simp [hterminal, hclosed]
    have hagain : workflow.react (replayer.withCalls calls).state
        (contextOf { frame with horizon := horizon } event) stimulus = .ok other := hother
    refine ⟨calls ++
      [⟨contextOf { frame with horizon := horizon } event, stimulus, other.step, other.drawn⟩],
      ?_, ?_⟩
    · rw [hresult, afterCall, accept_calls]
      exact List.rel_append hcalls (.cons halike .nil)
    unfold dispatch
    rw [hactive]
    simp only [Bool.false_eq_true, if_false, hagain]
    rw [hresult, afterCall, ← hstep, ← hstate, ← accept_withCalls]
    rfl

theorem deliver_repeats (index : Nat) :
    Repeats alike (deliver frame event replayer index)
      (deliver { frame with horizon := horizon } event (replayer.withCalls calls) index) := by
  unfold deliver
  rw [withCalls_inbox]
  cases replayer.inbox[index]? with
  | none => exact .ok hcalls
  | some signal =>
      refine dispatch_repeats hrepeatable frame horizon event ?_ _
      exact hcalls

theorem satisfy_repeats (index : Nat) :
    Repeats alike (satisfy frame event replayer index)
      (satisfy { frame with horizon := horizon } event (replayer.withCalls calls) index) := by
  unfold satisfy
  rw [withCalls_conditions]
  cases replayer.conditions[index]? with
  | none => exact .ok hcalls
  | some condition =>
      cases htimer : condition.hasTimer with
      | false =>
          simp only [htimer]
          refine dispatch_repeats hrepeatable frame horizon event ?_ _
          exact hcalls
      | true =>
          have hcancelled : List.Forall₂ alike
              (({ replayer with conditions := replayer.conditions.eraseIdx index }).acceptCommand
                (.cancelTimer (Command.conditionTimer condition.id))).calls calls := by
            rw [acceptCommand_calls]
            exact hcalls
          have hagain := dispatch_repeats hrepeatable frame horizon event hcancelled
            (.conditionResolved condition.id .satisfied)
          rw [← acceptCommand_withCalls] at hagain
          simp only [htimer, if_true]
          exact hagain

theorem conditionTimedOut_repeats (conditionId : String) :
    Repeats alike (conditionTimedOut frame event replayer conditionId)
      (conditionTimedOut { frame with horizon := horizon } event (replayer.withCalls calls)
        conditionId) := by
  unfold conditionTimedOut
  rw [withCalls_conditions]
  cases replayer.conditions.findIdx? fun condition => condition.id = conditionId with
  | none => exact .ok hcalls
  | some index =>
      refine dispatch_repeats hrepeatable frame horizon event ?_ _
      exact hcalls

theorem timerFired_repeats (timerId : String) :
    Repeats alike (timerFired frame event replayer timerId)
      (timerFired { frame with horizon := horizon } event (replayer.withCalls calls) timerId) := by
  unfold timerFired
  rw [withCalls_cancelledTimers, withCalls_startedTimers]
  split
  · exact .ok hcalls
  · cases Command.conditionOfTimer? timerId with
    | none => exact dispatch_repeats hrepeatable frame horizon event hcalls _
    | some conditionId =>
        exact conditionTimedOut_repeats hrepeatable frame horizon event hcalls _

theorem activityClosed_repeats (activityId : String) (stimulus : Stimulus) :
    Repeats alike (activityClosed frame event replayer activityId stimulus)
      (activityClosed { frame with horizon := horizon } event (replayer.withCalls calls) activityId
        stimulus) := by
  unfold activityClosed
  rw [withCalls_cancelledActivities]
  split
  · exact .ok hcalls
  · exact dispatch_repeats hrepeatable frame horizon event hcalls _

theorem perceive_repeats :
    Repeats alike (perceive frame event replayer)
      (perceive { frame with horizon := horizon } event (replayer.withCalls calls)) := by
  have hdispatched := dispatch_repeats hrepeatable frame horizon event hcalls
  have hclosed := activityClosed_repeats hrepeatable frame horizon event hcalls
  unfold perceive
  cases event.event with
  | workflowStarted => exact hdispatched _
  | activityCompleted => exact hclosed _ _
  | activityFailed => exact hclosed _ _
  | activityTimedOut => exact hclosed _ _
  | timerFired => exact timerFired_repeats hrepeatable frame horizon event hcalls _
  | childCompleted => exact hdispatched _
  | childFailed => exact hdispatched _
  | cancellationRequested =>
      cases hrequested : replayer.cancelRequested with
      | true =>
          simp only [withCalls_cancelRequested, hrequested, if_true]
          exact .ok hcalls
      | false =>
          simp only [withCalls_cancelRequested, hrequested, Bool.false_eq_true, if_false]
          refine dispatch_repeats hrepeatable frame horizon event ?_ _
          exact hcalls
  | signalReceived signal =>
      exact .ok hcalls
  | _ => exact .ok hcalls

theorem settle_repeats (limit : Nat) :
    Repeats alike (settle frame event limit replayer)
      (settle { frame with horizon := horizon } event limit (replayer.withCalls calls)) := by
  induction limit generalizing replayer calls with
  | zero => exact .error _ _
  | succ limit ih =>
      unfold settle
      rw [withCalls_isDeliverable, withCalls_isSatisfied, withCalls_inbox, withCalls_conditions,
        withCalls_closed, withCalls_terminalPending]
      split
      · exact .ok hcalls
      · split
        · exact .error _ _
        · rename_i index _
          exact (deliver_repeats hrepeatable frame horizon event hcalls index).andThen
            fun _ _ => ih
        · split
          · exact .error _ _
          · rename_i index _
            exact (satisfy_repeats hrepeatable frame horizon event hcalls index).andThen
              fun _ _ => ih
          · exact .ok hcalls

omit hrepeatable in
theorem matchCommand_repeats (found : CommandKey) :
    Repeats alike (matchCommand replayer event found)
      (matchCommand (replayer.withCalls calls) event found) := by
  unfold matchCommand
  rw [withCalls_pending]
  split
  · exact .error _ _
  · rename_i command rest _
    split
    · intro result h
      cases h
      refine ⟨calls, ?_, ?_⟩
      · rw [noteRecorded_calls]
        exact hcalls
      · rw [← noteRecorded_withCalls]
        rfl
    · exact .error _ _

theorem apply_repeats (limit : Nat) :
    Repeats alike (apply limit frame replayer event)
      (apply limit { frame with horizon := horizon } (replayer.withCalls calls) event) := by
  unfold apply
  rw [withCalls_draining, withCalls_pending]
  cases event.event.key? with
  | some found => exact matchCommand_repeats event hcalls found
  | none =>
      simp only
      split
      · exact .ok hcalls
      · split
        · exact .ok hcalls
        · split
          · exact .error _ _
          · apply (perceive_repeats hrepeatable frame horizon event hcalls).andThen
            intro next others hothers
            exact settle_repeats hrepeatable frame horizon event hothers limit

theorem applyAll_repeats (limit : Nat) (events : List HistoryEvent) :
    Repeats alike (applyAll limit frame replayer events)
      (applyAll limit { frame with horizon := horizon } (replayer.withCalls calls) events) := by
  induction events generalizing replayer calls with
  | nil => exact .ok hcalls
  | cons event rest ih =>
      unfold applyAll
      apply (apply_repeats hrepeatable frame horizon event hcalls limit).andThen
      intro next others hothers
      rw [withCalls_closed]
      split
      · exact .ok hothers
      · exact ih hothers

end

/-! ## Other limits -/

section

variable {less limit : Nat} (hle : less ≤ limit) (frame : ReplayFrame) (event : HistoryEvent)
  (replayer : Replayer workflow)

include hle

/-- Within a smaller limit a replay gets nowhere, or as far as within a larger one. -/
theorem settle_limit :
    settle frame event less replayer = .error (.crash .endless) ∨
      settle frame event less replayer = settle frame event limit replayer := by
  induction less generalizing limit replayer with
  | zero => exact .inl rfl
  | succ less ih =>
      obtain ⟨limit, rfl⟩ : ∃ more, limit = more + 1 := ⟨limit - 1, by omega⟩
      have hsmaller : less ≤ limit := by omega
      unfold settle
      split
      · exact .inr rfl
      · split
        · exact .inr rfl
        · cases deliver frame event replayer _ with
          | error stop => exact .inr rfl
          | ok next => exact ih hsmaller next
        · split
          · exact .inr rfl
          · cases satisfy frame event replayer _ with
            | error stop => exact .inr rfl
            | ok next => exact ih hsmaller next
          · exact .inr rfl

theorem apply_limit :
    apply less frame replayer event = .error (.crash .endless) ∨
      apply less frame replayer event = apply limit frame replayer event := by
  unfold apply
  split
  · exact .inr rfl
  · split
    · exact .inr rfl
    · split
      · exact .inr rfl
      · split
        · exact .inr rfl
        · cases perceive frame event replayer with
          | error stop => exact .inr rfl
          | ok next => exact settle_limit hle frame event next

theorem applyAll_limit (events : List HistoryEvent) :
    applyAll less frame replayer events = .error (.crash .endless) ∨
      applyAll less frame replayer events = applyAll limit frame replayer events := by
  induction events generalizing replayer with
  | nil => exact .inr rfl
  | cons event rest ih =>
      unfold applyAll
      rcases apply_limit hle frame event replayer with hendless | hsame
      · rw [hendless]
        exact .inl rfl
      · rw [hsame]
        cases apply limit frame replayer event with
        | error stop => exact .inr rfl
        | ok next =>
            simp only
            split
            · exact .inr rfl
            · exact ih next

end

/-- Once a replay has come to its end, no other one ends in a different way. -/
theorem applyAll_alike (hrepeatable : workflow.Repeatable alike) {limit : Nat} {frame : ReplayFrame}
    {replayer result : Replayer workflow} {events : List HistoryEvent}
    (hcalls : List.Forall₂ alike replayer.calls replayer.calls)
    (h : applyAll limit frame replayer events = .ok result) (other horizon : Nat) :
    applyAll other { frame with horizon := horizon } replayer events = .error (.crash .endless) ∨
      ∃ calls, List.Forall₂ alike result.calls calls ∧
        applyAll other { frame with horizon := horizon } replayer events =
          .ok (result.withCalls calls) := by
  have hlarge : applyAll (max limit other) frame replayer events = .ok result := by
    rcases applyAll_limit (Nat.le_max_left limit other) frame replayer events with hendless | hsame
    · rw [hendless] at h
      cases h
    · rw [← hsame]
      exact h
  obtain ⟨calls, halike, hresult⟩ := applyAll_repeats hrepeatable frame horizon hcalls
    (max limit other) events result hlarge
  rcases applyAll_limit (Nat.le_max_right limit other) { frame with horizon := horizon } replayer
    events with hendless | hsame
  · exact .inl hendless
  · exact .inr ⟨calls, halike, hsame.trans hresult⟩

theorem applyAll_again (hdeterministic : workflow.Deterministic) {limit : Nat} {frame : ReplayFrame}
    {replayer result : Replayer workflow} {events : List HistoryEvent}
    (h : applyAll limit frame replayer events = .ok result) (other horizon : Nat) :
    applyAll other { frame with horizon := horizon } replayer events = .error (.crash .endless) ∨
      ∃ calls, applyAll other { frame with horizon := horizon } replayer events =
        .ok (result.withCalls calls) := by
  have hsame : List.Forall₂ (fun _ _ : HandlerCall => True) replayer.calls replayer.calls :=
    List.forall₂_same.2 fun _ _ => trivial
  exact (applyAll_alike hdeterministic.repeatable hsame h other horizon).imp_right
    fun ⟨calls, _, hresult⟩ => ⟨calls, hresult⟩

end Replayer

end Chronicle
