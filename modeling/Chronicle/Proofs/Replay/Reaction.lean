import Chronicle.Replay.Engine

/-!
# Reactions of workflow code

One event can make several handlers run, one after the other.  This file says what a single
call does to a replayer, and gives the induction over the calls that one event causes: what
every call keeps, `perceive` and `settle` keep.
-/

namespace Chronicle

/-- The commands of a step; a failure is the command to fail. -/
def Step.commands : Step → List Command
  | .ok commands => commands
  | .error failure => [.fail failure]

namespace Replayer

variable {workflow : WorkflowType}

theorem accept_eq_foldl (replayer : Replayer workflow) (step : Step) :
    replayer.accept step = (Step.commands step).foldl acceptCommand replayer := by
  cases step <;> rfl

/-! ## Queueing commands -/

/-- What a queued command leaves alone. -/
theorem acceptCommand_keeps {β : Type} (part : Replayer workflow → β)
    (keeps : ∀ (replayer : Replayer workflow) pending awaited conditions terminalPending,
      part { replayer with
        pending := pending, awaited := awaited, conditions := conditions,
        terminalPending := terminalPending } = part replayer)
    (replayer : Replayer workflow) (command : Command) :
    part (replayer.acceptCommand command) = part replayer := by
  unfold acceptCommand
  split
  · rfl
  · cases command <;> exact keeps replayer _ _ _ _

theorem accept_keeps {β : Type} (part : Replayer workflow → β)
    (keeps : ∀ (replayer : Replayer workflow) pending awaited conditions terminalPending,
      part { replayer with
        pending := pending, awaited := awaited, conditions := conditions,
        terminalPending := terminalPending } = part replayer)
    (replayer : Replayer workflow) (step : Step) :
    part (replayer.accept step) = part replayer := by
  rw [accept_eq_foldl]
  induction Step.commands step generalizing replayer with
  | nil => rfl
  | cons command rest ih =>
      rw [List.foldl_cons, ih, acceptCommand_keeps part keeps]

@[simp] theorem acceptCommand_state (replayer : Replayer workflow) (command : Command) :
    (replayer.acceptCommand command).state = replayer.state :=
  acceptCommand_keeps Replayer.state (fun _ _ _ _ _ => rfl) replayer command

@[simp] theorem acceptCommand_calls (replayer : Replayer workflow) (command : Command) :
    (replayer.acceptCommand command).calls = replayer.calls :=
  acceptCommand_keeps Replayer.calls (fun _ _ _ _ _ => rfl) replayer command

@[simp] theorem acceptCommand_closed (replayer : Replayer workflow) (command : Command) :
    (replayer.acceptCommand command).closed = replayer.closed :=
  acceptCommand_keeps Replayer.closed (fun _ _ _ _ _ => rfl) replayer command

@[simp] theorem acceptCommand_inbox (replayer : Replayer workflow) (command : Command) :
    (replayer.acceptCommand command).inbox = replayer.inbox :=
  acceptCommand_keeps Replayer.inbox (fun _ _ _ _ _ => rfl) replayer command

@[simp] theorem accept_state (replayer : Replayer workflow) (step : Step) :
    (replayer.accept step).state = replayer.state :=
  accept_keeps Replayer.state (fun _ _ _ _ _ => rfl) replayer step

@[simp] theorem accept_calls (replayer : Replayer workflow) (step : Step) :
    (replayer.accept step).calls = replayer.calls :=
  accept_keeps Replayer.calls (fun _ _ _ _ _ => rfl) replayer step

@[simp] theorem accept_inbox (replayer : Replayer workflow) (step : Step) :
    (replayer.accept step).inbox = replayer.inbox :=
  accept_keeps Replayer.inbox (fun _ _ _ _ _ => rfl) replayer step

/-! ## Recorded commands -/

/-- What the record of a command leaves alone. -/
theorem noteRecorded_keeps {β : Type} (part : Replayer workflow → β)
    (keeps : ∀ (replayer : Replayer workflow) started cancelled activities closed,
      part { replayer with
        startedTimers := started, cancelledTimers := cancelled,
        cancelledActivities := activities, closed := closed } = part replayer)
    (replayer : Replayer workflow) (event : Event) :
    part (replayer.noteRecorded event) = part replayer := by
  unfold noteRecorded
  split
  · exact keeps replayer _ _ _ _
  · exact keeps replayer _ _ _ _
  · exact keeps replayer _ _ _ _
  · split
    · exact keeps replayer _ _ _ _
    · rfl

@[simp] theorem noteRecorded_state (replayer : Replayer workflow) (event : Event) :
    (replayer.noteRecorded event).state = replayer.state :=
  noteRecorded_keeps Replayer.state (fun _ _ _ _ _ => rfl) replayer event

@[simp] theorem noteRecorded_pending (replayer : Replayer workflow) (event : Event) :
    (replayer.noteRecorded event).pending = replayer.pending :=
  noteRecorded_keeps Replayer.pending (fun _ _ _ _ _ => rfl) replayer event

@[simp] theorem noteRecorded_draining (replayer : Replayer workflow) (event : Event) :
    (replayer.noteRecorded event).draining = replayer.draining :=
  noteRecorded_keeps Replayer.draining (fun _ _ _ _ _ => rfl) replayer event

@[simp] theorem noteRecorded_terminalPending (replayer : Replayer workflow) (event : Event) :
    (replayer.noteRecorded event).terminalPending = replayer.terminalPending :=
  noteRecorded_keeps Replayer.terminalPending (fun _ _ _ _ _ => rfl) replayer event

@[simp] theorem noteRecorded_conditions (replayer : Replayer workflow) (event : Event) :
    (replayer.noteRecorded event).conditions = replayer.conditions :=
  noteRecorded_keeps Replayer.conditions (fun _ _ _ _ _ => rfl) replayer event

@[simp] theorem noteRecorded_inbox (replayer : Replayer workflow) (event : Event) :
    (replayer.noteRecorded event).inbox = replayer.inbox :=
  noteRecorded_keeps Replayer.inbox (fun _ _ _ _ _ => rfl) replayer event

@[simp] theorem noteRecorded_awaited (replayer : Replayer workflow) (event : Event) :
    (replayer.noteRecorded event).awaited = replayer.awaited :=
  noteRecorded_keeps Replayer.awaited (fun _ _ _ _ _ => rfl) replayer event

@[simp] theorem noteRecorded_calls (replayer : Replayer workflow) (event : Event) :
    (replayer.noteRecorded event).calls = replayer.calls :=
  noteRecorded_keeps Replayer.calls (fun _ _ _ _ _ => rfl) replayer event

theorem noteRecorded_closed (replayer : Replayer workflow) (event : Event) :
    (replayer.noteRecorded event).closed = (replayer.closed || event.isClose) := by
  unfold noteRecorded
  split
  · simp [Event.isClose]
  · simp [Event.isClose]
  · simp [Event.isClose]
  · split <;> simp_all

/-! ## A single call -/

def afterCall (frame : ReplayFrame) (event : HistoryEvent) (replayer : Replayer workflow)
    (stimulus : Stimulus) (reaction : Reaction workflow.State) : Replayer workflow :=
  let call : HandlerCall :=
    ⟨contextOf frame event, stimulus, reaction.step, reaction.drawn⟩
  { replayer with
    state := reaction.state
    calls := replayer.calls ++ [call] }.accept reaction.step

/-- A dispatch that returns either had no handler to run, or ran one. -/
theorem dispatch_cases {frame : ReplayFrame} {event : HistoryEvent}
    {replayer result : Replayer workflow} {stimulus : Stimulus}
    (h : dispatch frame event replayer stimulus = .ok result) :
    ((replayer.terminalPending = true ∨ replayer.closed = true) ∧ result = replayer) ∨
      (replayer.terminalPending = false ∧ replayer.closed = false ∧
        ∃ reaction,
          workflow.react replayer.state (contextOf frame event) stimulus = .ok reaction ∧
          result = replayer.afterCall frame event stimulus reaction) := by
  unfold dispatch at h
  split at h
  · rename_i hidle
    cases h
    exact .inl ⟨by simpa using hidle, rfl⟩
  · rename_i hactive
    cases hreact : workflow.react replayer.state (contextOf frame event) stimulus with
    | error panic => simp [hreact] at h
    | ok reaction =>
        simp only [hreact] at h
        cases h
        simp only [Bool.or_eq_true, not_or, Bool.not_eq_true] at hactive
        exact .inr ⟨hactive.1, hactive.2, reaction, rfl, rfl⟩

theorem dispatch_of_terminal (frame : ReplayFrame) (event : HistoryEvent)
    {replayer : Replayer workflow} (stimulus : Stimulus) (h : replayer.terminalPending = true) :
    dispatch frame event replayer stimulus = .ok replayer := by
  simp [dispatch, h]

/-- What a call and its commands leave alone. -/
theorem dispatch_keeps {β : Type} (part : Replayer workflow → β)
    (keeps : ∀ (replayer : Replayer workflow) state calls pending awaited conditions
      terminalPending, part { replayer with
        state := state, calls := calls, pending := pending, awaited := awaited,
        conditions := conditions, terminalPending := terminalPending } = part replayer)
    {frame : ReplayFrame} {event : HistoryEvent} {replayer result : Replayer workflow}
    {stimulus : Stimulus} (h : dispatch frame event replayer stimulus = .ok result) :
    part result = part replayer := by
  rcases dispatch_cases h with ⟨-, rfl⟩ | ⟨-, -, reaction, -, rfl⟩
  · rfl
  · unfold afterCall
    rw [accept_keeps part fun replayer => keeps replayer replayer.state replayer.calls]
    exact keeps replayer _ _ replayer.pending replayer.awaited replayer.conditions
      replayer.terminalPending

theorem dispatch_closed {frame : ReplayFrame} {event : HistoryEvent}
    {replayer result : Replayer workflow} {stimulus : Stimulus}
    (h : dispatch frame event replayer stimulus = .ok result) : result.closed = replayer.closed :=
  dispatch_keeps Replayer.closed (fun _ _ _ _ _ _ _ => rfl) h

/-! ## Looking for an item -/

theorem findIndex?_eq_some {α : Type} {holds : α → Except Panic Bool} {items : List α}
    {start index : Nat} (h : findIndex? holds start items = .ok (some index)) :
    ∃ place item, index = start + place ∧ items[place]? = some item ∧ holds item = .ok true ∧
      ∀ earlier other, earlier < place → items[earlier]? = some other → holds other = .ok false := by
  induction items generalizing start with
  | nil => simp [findIndex?] at h
  | cons item rest ih =>
      unfold findIndex? at h
      cases hitem : holds item with
      | error panic => simp [hitem] at h
      | ok value =>
          cases value with
          | true =>
              simp only [hitem] at h
              cases h
              exact ⟨0, item, rfl, rfl, hitem, fun _ _ hlt => absurd hlt (Nat.not_lt_zero _)⟩
          | false =>
              simp only [hitem] at h
              obtain ⟨place, found, rfl, hget, hfound, hbefore⟩ := ih h
              refine ⟨place + 1, found, by omega, by simpa using hget, hfound, ?_⟩
              intro earlier other hlt hother
              cases earlier with
              | zero =>
                  simp only [List.getElem?_cons_zero, Option.some.injEq] at hother
                  exact hother ▸ hitem
              | succ earlier =>
                  exact hbefore earlier other (by omega) (by simpa using hother)

theorem findIndex?_eq_none {α : Type} {holds : α → Except Panic Bool} {items : List α}
    {start : Nat} (h : findIndex? holds start items = .ok none) :
    ∀ item ∈ items, holds item = .ok false := by
  induction items generalizing start with
  | nil => simp
  | cons item rest ih =>
      unfold findIndex? at h
      split at h
      · cases h
      · cases h
      · rename_i hitem
        exact List.forall_mem_cons.2 ⟨hitem, ih h⟩

/-! ## All calls of one event -/

/-- What holds through the calls that settle a replayer. -/
structure Settles (frame : ReplayFrame) (event : HistoryEvent) (holds : Replayer workflow → Prop) :
    Prop where
  delivered : ∀ (replayer result : Replayer workflow) index, replayer.terminalPending = false →
    findIndex? replayer.isDeliverable 0 replayer.inbox = .ok (some index) →
    holds replayer → deliver frame event replayer index = .ok result → holds result
  satisfied : ∀ (replayer result : Replayer workflow) index, replayer.terminalPending = false →
    findIndex? replayer.isSatisfied 0 replayer.conditions = .ok (some index) →
    holds replayer → satisfy frame event replayer index = .ok result → holds result

/-- What holds through all the calls that one event causes. -/
structure Kept (frame : ReplayFrame) (event : HistoryEvent) (holds : Replayer workflow → Prop) :
    Prop where
  /-- Signals and cancellation requests are noted beside the state of the workflow. -/
  noted : ∀ (replayer : Replayer workflow) inbox awaited cancelRequested, holds replayer →
    holds { replayer with
      inbox := inbox, awaited := awaited, cancelRequested := cancelRequested }
  dispatched : ∀ (replayer result : Replayer workflow) stimulus,
    (∀ conditionId outcome, stimulus ≠ .conditionResolved conditionId outcome) →
    holds replayer → dispatch frame event replayer stimulus = .ok result → holds result
  satisfied : ∀ (replayer result : Replayer workflow) index, replayer.terminalPending = false →
    findIndex? replayer.isSatisfied 0 replayer.conditions = .ok (some index) →
    holds replayer → satisfy frame event replayer index = .ok result → holds result
  timedOut : ∀ (replayer result : Replayer workflow) conditionId,
    holds replayer → conditionTimedOut frame event replayer conditionId = .ok result → holds result

variable {frame : ReplayFrame} {event : HistoryEvent} {holds : Replayer workflow → Prop}

theorem Settles.settle (settles : Settles frame event holds) {limit : Nat}
    {replayer result : Replayer workflow} (hold : holds replayer)
    (h : settle frame event limit replayer = .ok result) : holds result := by
  induction limit generalizing replayer with
  | zero => simp [Replayer.settle] at h
  | succ limit ih =>
      unfold Replayer.settle at h
      split at h
      · cases h
        exact hold
      · rename_i hactive
        have hterminal : replayer.terminalPending = false := by simp_all
        split at h
        · simp at h
        · rename_i index hfound
          cases hdelivered : Replayer.deliver frame event replayer index with
          | error stop => simp [hdelivered] at h
          | ok next =>
              simp only [hdelivered] at h
              exact ih (settles.delivered _ _ index hterminal hfound hold hdelivered) h
        · split at h
          · simp at h
          · rename_i index hfound
            cases hsatisfied : satisfy frame event replayer index with
            | error stop => simp [hsatisfied] at h
            | ok next =>
                simp only [hsatisfied] at h
                exact ih (settles.satisfied _ _ index hterminal hfound hold hsatisfied) h
          · cases h
            exact hold

theorem Kept.settles (kept : Kept frame event holds) : Settles frame event holds where
  delivered := by
    intro replayer result index _ _ hold h
    unfold Replayer.deliver at h
    cases hsignal : replayer.inbox[index]? with
    | none =>
        simp only [hsignal] at h
        cases h
        exact hold
    | some signal =>
        simp only [hsignal] at h
        exact kept.dispatched _ _ _ (by simp)
          (kept.noted replayer _ _ replayer.cancelRequested hold) h
  satisfied := kept.satisfied

theorem Kept.settle (kept : Kept frame event holds) {limit : Nat}
    {replayer result : Replayer workflow} (hold : holds replayer)
    (h : settle frame event limit replayer = .ok result) : holds result :=
  kept.settles.settle hold h

theorem Kept.timerFired (kept : Kept frame event holds) {replayer result : Replayer workflow}
    {timerId : String} (hold : holds replayer)
    (h : timerFired frame event replayer timerId = .ok result) : holds result := by
  unfold Replayer.timerFired at h
  split at h
  · cases h
    exact hold
  · split at h
    · exact kept.timedOut _ _ _ hold h
    · exact kept.dispatched _ _ _ (by simp) hold h

theorem Kept.activityClosed (kept : Kept frame event holds) {replayer result : Replayer workflow}
    {activityId : String} {stimulus : Stimulus}
    (plain : ∀ conditionId outcome, stimulus ≠ .conditionResolved conditionId outcome)
    (hold : holds replayer)
    (h : activityClosed frame event replayer activityId stimulus = .ok result) :
    holds result := by
  unfold Replayer.activityClosed at h
  split at h
  · cases h
    exact hold
  · exact kept.dispatched _ _ _ plain hold h

theorem Kept.perceive (kept : Kept frame event holds) {replayer result : Replayer workflow}
    (hold : holds replayer) (h : perceive frame event replayer = .ok result) : holds result := by
  unfold Replayer.perceive at h
  split at h
  · exact kept.dispatched _ _ _ (by simp) hold h
  · exact kept.activityClosed (by simp) hold h
  · exact kept.activityClosed (by simp) hold h
  · exact kept.activityClosed (by simp) hold h
  · exact kept.timerFired hold h
  · cases h
    exact kept.noted replayer _ replayer.awaited replayer.cancelRequested hold
  · exact kept.dispatched _ _ _ (by simp) hold h
  · exact kept.dispatched _ _ _ (by simp) hold h
  · split at h
    · cases h
      exact hold
    · exact kept.dispatched _ _ _ (by simp)
        (kept.noted replayer replayer.inbox replayer.awaited true hold) h
  · cases h
    exact hold

/-- What calls and commands leave alone keeps its value through all the calls. -/
theorem kept_part {β : Type} (part : Replayer workflow → β)
    (keeps : ∀ (replayer : Replayer workflow) state calls pending awaited conditions terminalPending
      inbox cancelRequested, part { replayer with
        state := state, calls := calls, pending := pending, awaited := awaited,
        conditions := conditions, terminalPending := terminalPending, inbox := inbox,
        cancelRequested := cancelRequested } = part replayer)
    (frame : ReplayFrame) (event : HistoryEvent) (value : β) :
    Kept frame event fun replayer => part replayer = value := by
  have hdispatch : ∀ {replayer result : Replayer workflow} {stimulus : Stimulus},
      dispatch frame event replayer stimulus = .ok result → part result = part replayer := by
    intro replayer result stimulus
    exact dispatch_keeps part fun replayer state calls pending awaited conditions terminalPending =>
      keeps replayer state calls pending awaited conditions terminalPending replayer.inbox
        replayer.cancelRequested
  have hconditions : ∀ (replayer : Replayer workflow) conditions,
      part { replayer with conditions := conditions } = part replayer :=
    fun replayer conditions => keeps replayer replayer.state replayer.calls replayer.pending
      replayer.awaited conditions replayer.terminalPending replayer.inbox replayer.cancelRequested
  constructor
  case noted =>
    intro replayer inbox awaited cancelRequested hold
    exact (keeps replayer replayer.state replayer.calls replayer.pending awaited replayer.conditions
      replayer.terminalPending inbox cancelRequested).trans hold
  case dispatched => exact fun _ _ _ _ hold h => (hdispatch h).trans hold
  case satisfied =>
    intro replayer result index _ _ hold h
    unfold satisfy at h
    split at h
    · cases h
      exact hold
    · rw [hdispatch h, ← hold]
      split
      · rw [acceptCommand_keeps part fun replayer pending awaited conditions terminalPending =>
          keeps replayer replayer.state replayer.calls pending awaited conditions terminalPending
            replayer.inbox replayer.cancelRequested]
        exact hconditions replayer _
      · exact hconditions replayer _
  case timedOut =>
    intro replayer result conditionId hold h
    unfold conditionTimedOut at h
    split at h
    · cases h
      exact hold
    · exact ((hdispatch h).trans (hconditions replayer _)).trans hold

/-! ## One event -/

/-- The record of a command takes the oldest one from the queue. -/
theorem matchCommand_cases {found : CommandKey} {replayer result : Replayer workflow}
    (h : replayer.matchCommand event found = .ok result) :
    ∃ command rest, replayer.pending = command :: rest ∧ command.key? = some found ∧
      result = { replayer with pending := rest, draining := !rest.isEmpty }.noteRecorded
        event.event := by
  unfold matchCommand at h
  split at h
  · cases h
  · rename_i command rest hpending
    split at h
    · rename_i hkey
      cases h
      exact ⟨command, rest, hpending, hkey, rfl⟩
    · cases h

/-- What becomes of an event. -/
inductive Applied (limit : Nat) (frame : ReplayFrame) (event : HistoryEvent)
    (replayer result : Replayer workflow) : Prop where
  | recorded (found : CommandKey) (key : event.event.key? = some found)
      (matched : replayer.matchCommand event found = .ok result)
  | progress (key : event.event.key? = none) (isProgress : event.event.isProgress = true)
      (result_eq : result = replayer)
  | forced (key : event.event.key? = none) (isForcedClose : event.event.isForcedClose = true)
      (result_eq : result = { replayer with closed := true })
  | perceived (key : event.event.key? = none) (isForcedClose : event.event.isForcedClose = false)
      (middle : Replayer workflow) (perceived : perceive frame event replayer = .ok middle)
      (settled : settle frame event limit middle = .ok result)

theorem apply_cases {limit : Nat} {replayer result : Replayer workflow}
    (h : replayer.apply limit frame event = .ok result) :
    Applied limit frame event replayer result := by
  unfold apply at h
  cases hkey : event.event.key? with
  | some found =>
      simp only [hkey] at h
      exact .recorded found hkey h
  | none =>
      simp only [hkey] at h
      split at h
      · rename_i hprogress
        cases h
        exact .progress hkey hprogress rfl
      · split at h
        · rename_i hforced
          cases h
          exact .forced hkey hforced rfl
        · rename_i hforced
          split at h
          · cases h
          · cases hperceived : perceive frame event replayer with
            | error stop => simp [hperceived] at h
            | ok middle =>
                simp only [hperceived] at h
                exact .perceived hkey (by simpa using hforced) middle hperceived h

/-- A replay goes on after its first event, unless that event has closed the run. -/
theorem applyAll_cons {limit : Nat} {replayer result : Replayer workflow} {rest : List HistoryEvent}
    (h : applyAll limit frame replayer (event :: rest) = .ok result) :
    ∃ next, replayer.apply limit frame event = .ok next ∧
      ((next.closed = true ∧ result = next) ∨
        (next.closed = false ∧ applyAll limit frame next rest = .ok result)) := by
  unfold applyAll at h
  cases happlied : replayer.apply limit frame event with
  | error stop => simp [happlied] at h
  | ok next =>
      simp only [happlied] at h
      refine ⟨next, rfl, ?_⟩
      cases hclosed : next.closed with
      | true =>
          rw [hclosed, if_pos rfl] at h
          exact .inl ⟨rfl, (Except.ok.inj h).symm⟩
      | false =>
          rw [hclosed, if_neg Bool.false_ne_true] at h
          exact .inr ⟨rfl, h⟩

end Replayer

end Chronicle
