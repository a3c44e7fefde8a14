import Chronicle.Proofs.Replay.Reaction

/-!
# Why a replay stops

A replay of a known workflow stops early for one of two reasons: code of the workflow panicked or
never came to rest, or a recorded command is not the one that was expected.
-/

namespace Chronicle

/-- Code of the workflow is why there is no result. -/
inductive ReplayStop.FromCode (workflow : WorkflowType) : ReplayStop → Prop where
  | endless : FromCode workflow (.crash .endless)
  | react {state : workflow.State} {context : Context} {stimulus : Stimulus} {panic : Panic}
      (eventId : Nat) (panics : workflow.react state context stimulus = .error panic) :
      FromCode workflow (.error (.handlerPanicked eventId panic.message))
  | acceptsSignal {state : workflow.State} {name : String} {panic : Panic}
      (panics : workflow.acceptsSignal state name = .error panic) :
      FromCode workflow (.crash (.panicked panic))
  | conditionHolds {state : workflow.State} {conditionId : String} {panic : Panic}
      (panics : workflow.conditionHolds state conditionId = .error panic) :
      FromCode workflow (.crash (.panicked panic))

namespace Replayer

variable {workflow : WorkflowType} {frame : ReplayFrame} {event : HistoryEvent}
  {replayer : Replayer workflow} {stop : ReplayStop}

theorem dispatch_stops {stimulus : Stimulus}
    (h : dispatch frame event replayer stimulus = .error stop) : stop.FromCode workflow := by
  unfold dispatch at h
  split at h
  · cases h
  · cases hreact : workflow.react replayer.state (contextOf frame event) stimulus with
    | error panic =>
        simp only [hreact] at h
        cases h
        exact .react event.eventId hreact
    | ok reaction => simp [hreact] at h

theorem deliver_stops {index : Nat} (h : deliver frame event replayer index = .error stop) :
    stop.FromCode workflow := by
  unfold deliver at h
  split at h
  · cases h
  · exact dispatch_stops h

theorem satisfy_stops {index : Nat} (h : satisfy frame event replayer index = .error stop) :
    stop.FromCode workflow := by
  unfold satisfy at h
  split at h
  · cases h
  · exact dispatch_stops h

theorem findIndex?_eq_error {α : Type} {holds : α → Except Panic Bool} {items : List α}
    {start : Nat} {panic : Panic} (h : findIndex? holds start items = .error panic) :
    ∃ item ∈ items, holds item = .error panic := by
  induction items generalizing start with
  | nil => cases h
  | cons item rest ih =>
      unfold findIndex? at h
      cases hitem : holds item with
      | error cause =>
          simp only [hitem] at h
          cases h
          exact ⟨item, List.mem_cons_self, hitem⟩
      | ok value =>
          cases value with
          | true => simp [hitem] at h
          | false =>
              simp only [hitem] at h
              obtain ⟨other, hmem, hother⟩ := ih h
              exact ⟨other, List.mem_cons_of_mem _ hmem, hother⟩

theorem settle_stops {limit : Nat} (h : settle frame event limit replayer = .error stop) :
    stop.FromCode workflow := by
  induction limit generalizing replayer with
  | zero =>
      cases h
      exact .endless
  | succ limit ih =>
      unfold settle at h
      split at h
      · cases h
      · split at h
        · -- a handler was asked whether it takes a signal
          rename_i panic hfound
          cases h
          obtain ⟨signal, -, hsignal⟩ := findIndex?_eq_error hfound
          unfold isDeliverable at hsignal
          split at hsignal
          · cases hsignal
          · exact .acceptsSignal hsignal
        · rename_i index _
          cases hdelivered : deliver frame event replayer index with
          | error cause =>
              simp only [hdelivered] at h
              cases h
              exact deliver_stops hdelivered
          | ok next =>
              simp only [hdelivered] at h
              exact ih h
        · split at h
          · -- a handler was asked whether a condition holds
            rename_i panic hfound
            cases h
            obtain ⟨condition, -, hcondition⟩ := findIndex?_eq_error hfound
            exact .conditionHolds hcondition
          · rename_i index _
            cases hsatisfied : satisfy frame event replayer index with
            | error cause =>
                simp only [hsatisfied] at h
                cases h
                exact satisfy_stops hsatisfied
            | ok next =>
                simp only [hsatisfied] at h
                exact ih h
          · cases h

theorem timerFired_stops {timerId : String}
    (h : timerFired frame event replayer timerId = .error stop) : stop.FromCode workflow := by
  unfold timerFired at h
  split at h
  · cases h
  · split at h
    · unfold conditionTimedOut at h
      split at h
      · cases h
      · exact dispatch_stops h
    · exact dispatch_stops h

theorem activityClosed_stops {activityId : String} {stimulus : Stimulus}
    (h : activityClosed frame event replayer activityId stimulus = .error stop) :
    stop.FromCode workflow := by
  unfold activityClosed at h
  split at h
  · cases h
  · exact dispatch_stops h

theorem perceive_stops (h : perceive frame event replayer = .error stop) :
    stop.FromCode workflow := by
  unfold perceive at h
  split at h
  · exact dispatch_stops h
  · exact activityClosed_stops h
  · exact activityClosed_stops h
  · exact activityClosed_stops h
  · exact timerFired_stops h
  · cases h
  · exact dispatch_stops h
  · exact dispatch_stops h
  · split at h
    · cases h
    · exact dispatch_stops h
  · cases h

/-- What is recorded is not what workflow code asked for. -/
def IsMismatch (stop : ReplayStop) : Prop :=
  ∃ eventId expected found, stop = .error (.nonDeterminism eventId expected found)

theorem matchCommand_stops {found : CommandKey}
    (h : replayer.matchCommand event found = .error stop) : IsMismatch stop := by
  unfold matchCommand at h
  split at h
  · cases h
    exact ⟨_, _, _, rfl⟩
  · split at h
    · cases h
    · cases h
      exact ⟨_, _, _, rfl⟩

/-- Between two decisions only the record of a command can be a mismatch. -/
theorem apply_stops_cases {limit : Nat} (h : replayer.apply limit frame event = .error stop) :
    stop.FromCode workflow ∨
      (IsMismatch stop ∧ (event.event.key? ≠ none ∨ replayer.draining = true)) := by
  unfold apply at h
  cases hkey : event.event.key? with
  | some found =>
      simp only [hkey] at h
      exact .inr ⟨matchCommand_stops h, .inl (by simp)⟩
  | none =>
      simp only [hkey] at h
      split at h
      · cases h
      · split at h
        · cases h
        · split at h
          · rename_i hdraining
            cases h
            exact .inr ⟨⟨_, _, _, rfl⟩, .inr (Bool.and_eq_true_iff.1 hdraining).1⟩
          · left
            cases hperceived : perceive frame event replayer with
            | error cause =>
                simp only [hperceived] at h
                cases h
                exact perceive_stops hperceived
            | ok perceived =>
                simp only [hperceived] at h
                exact settle_stops h

/-- An event other than the record of a command, met between two decisions. -/
theorem apply_stops {limit : Nat} (hkey : event.event.key? = none)
    (hsettled : replayer.draining = false)
    (h : replayer.apply limit frame event = .error stop) : stop.FromCode workflow := by
  rcases apply_stops_cases h with hcode | ⟨-, hrecords | hdraining⟩
  · exact hcode
  · exact absurd hkey hrecords
  · rw [hsettled] at hdraining
    cases hdraining

theorem applyAll_stops {limit : Nat} {events : List HistoryEvent}
    (h : applyAll limit frame replayer events = .error stop) :
    stop.FromCode workflow ∨ ∃ eventId expected found,
      stop = .error (.nonDeterminism eventId expected found) := by
  induction events generalizing replayer with
  | nil => cases h
  | cons event rest ih =>
      unfold applyAll at h
      cases happlied : replayer.apply limit frame event with
      | ok next =>
          simp only [happlied] at h
          split at h
          · cases h
          · exact ih h
      | error cause =>
          simp only [happlied] at h
          cases h
          exact (apply_stops_cases happlied).imp_right And.left

end Replayer

namespace Replay

variable {limit : Nat} {registry : WorkflowRegistry} {ref : RunRef} {history : List HistoryEvent}

/-- Only an input that the workflow cannot read is called undecodable. -/
theorem undecodable_iff {reason : String} :
    replay limit registry ref history =
        .error (.error (.registry (.undecodableInput reason))) ↔
      ∃ workflowType input taskQueue attempt parent options workflow,
        history.head?.map HistoryEvent.event =
          some (.workflowStarted workflowType input taskQueue attempt parent options) ∧
        registry.find? workflowType = some workflow ∧
        workflow.create input = .error (.undecodable reason) := by
  constructor
  · intro h
    unfold replay at h
    split at h
    · rename_i workflowType input taskQueue attempt parent options hhead
      split at h
      · cases h
      · rename_i workflow hfind
        unfold Replay.run at h
        split at h
        · rename_i cause hcreate
          cases h
          exact ⟨workflowType, input, taskQueue, attempt, parent, options, workflow, hhead, hfind,
            hcreate⟩
        · cases h
        · split at h
          · rename_i stop happlied
            cases h
            rcases Replayer.applyAll_stops happlied with hcode | ⟨eventId, expected, found, hstop⟩
            · cases hcode
            · cases hstop
          · unfold conclude at h
            split at h <;> cases h
    · cases h
  · rintro ⟨workflowType, input, taskQueue, attempt, parent, options, workflow, hhead, hfind,
      hcreate⟩
    simp only [replay, hhead, hfind, Replay.run, hcreate]

/-- An input that does not decode stays so, however the history grows. -/
theorem undecodable_of_prefix {earlier : List HistoryEvent} {reason : String}
    (hinitial : earlier <+: history)
    (h : replay limit registry ref earlier =
      .error (.error (.registry (.undecodableInput reason)))) :
    replay limit registry ref history =
      .error (.error (.registry (.undecodableInput reason))) := by
  obtain ⟨workflowType, input, taskQueue, attempt, parent, options, workflow, hhead, hfind,
    hcreate⟩ := undecodable_iff.1 h
  rw [undecodable_iff]
  refine ⟨workflowType, input, taskQueue, attempt, parent, options, workflow, ?_, hfind, hcreate⟩
  obtain ⟨rest, hrest⟩ := hinitial
  cases earlier with
  | nil => simp at hhead
  | cons first others =>
      rw [← hrest]
      exact hhead

end Replay

end Chronicle
