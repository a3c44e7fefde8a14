import Chronicle.Proofs.Engine.Operations
import Chronicle.Proofs.Program.Heeding

/-!
# Workflow tasks are heedful

A decision asks for the current run of a workflow id before it starts a child under that id.  While
the run that decides is open, it is itself the current run of its own id, so a child that is
accepted has another one.
-/

namespace Chronicle

def Event.startsChild : Event → Bool
  | .childStarted .. => true
  | _ => false

namespace SparesOwn

variable {own later : Option RunRef} {events added : List Event}

theorem of_childless (h : ∀ event ∈ events, event.startsChild = false) : SparesOwn own events := by
  intro workflowId runId workflowType hmem
  cases h _ hmem

theorem append (first : SparesOwn own events) (second : SparesOwn own added) :
    SparesOwn own (events ++ added) := by
  intro workflowId runId workflowType hmem
  rcases List.mem_append.1 hmem with hold | hnew
  · exact first workflowId runId workflowType hold
  · exact second workflowId runId workflowType hnew

theorem concat {event : Event} (spares : SparesOwn own events) (hplain : event.startsChild = false) :
    SparesOwn own (events ++ [event]) :=
  spares.append (.of_childless (by simpa using hplain))

/-- Who has forgotten its run has nothing to spare. -/
theorem forget (spares : SparesOwn own events) (hlater : ∀ ref ∈ later, ref ∈ own) :
    SparesOwn later events :=
  fun workflowId runId workflowType hmem hgenuine ref href =>
    spares workflowId runId workflowType hmem hgenuine ref (hlater ref href)

end SparesOwn

/-! ## Revisions -/

theorem Revision.outcome_heeds {α : Type} {post : Except α Commit → Option RunRef → Prop}
    {revision : Revision α} {own : Option RunRef}
    (hkept : ∀ reason, post (.error reason) own)
    (hwritten : ∀ commit, revision.Writes commit → post (.ok commit) own) :
    revision.outcome.Heeds post own := by
  cases revision with
  | keep reason => exact hkept reason
  | write commit => exact hwritten commit rfl
  | writeAt commit => exact Program.Heeds.ask rfl fun now _ => hwritten (commit now) ⟨now, rfl⟩

theorem Revision.attempt_heeds {α : Type} {reviser : Reviser α} (ref : RunRef)
    (hchildless : ∀ run ledger commit, (reviser run ledger).Writes commit →
      ∀ event ∈ commit.events, event.startsChild = false) (rounds : Nat) (own : Option RunRef) :
    (Revision.attempt ref reviser rounds).Heeds (fun _ _ => True) own := by
  induction rounds generalizing own with
  | zero => trivial
  | succ rounds ih =>
      unfold Revision.attempt
      apply Program.Heeds.request
      · trivial
      intro got _
      cases got with
      | error error => trivial
      | ok run =>
          simp only
          split
          · trivial
          · apply Program.Heeds.ask rfl
            intro read _
            cases read with
            | error error => trivial
            | ok history =>
                apply Program.Heeds.bind
                apply Revision.outcome_heeds (fun _ => trivial)
                intro commit hwrites
                apply Program.Heeds.request
                · exact SparesOwn.of_childless (hchildless run _ commit hwrites)
                · intro answer _
                  cases answer with
                  | ok version => trivial
                  | error error =>
                      cases error with
                      | versionConflict expected found => exact ih _
                      | _ => trivial

/-! ## Decisions -/

namespace Decision

/-- A draft spares the run, and holds nothing back but rejections. -/
structure Draft.Spares (draft : Draft) (own : Option RunRef) : Prop where
  events : SparesOwn own draft.commit.events
  trailing : ∀ event ∈ draft.trailing, event.startsChild = false

/-- What a step of a decision leaves: a draft that spares what is still remembered. -/
def Spared (result : Except EngineError Draft) (own : Option RunRef) : Prop :=
  ∀ next, result = .ok next → next.Spares own

theorem Draft.Spares.spared {draft : Draft} {own : Option RunRef} (spares : draft.Spares own) :
    Spared (.ok draft) own := by
  rintro next ⟨⟩
  exact spares

theorem recorded_heeds {draft next : Draft} {own : Option RunRef} {event : Event}
    (spares : draft.Spares own) (hevents : next.commit.events = draft.commit.events ++ [event])
    (htrailing : next.trailing = draft.trailing) (hplain : event.startsChild = false) :
    (pure (.ok next) : Program (Except EngineError Draft)).Heeds Spared own :=
  Draft.Spares.spared ⟨hevents ▸ spares.events.concat hplain, htrailing ▸ spares.trailing⟩

theorem nextRun_heeds {run : Run} {failure : Option Failure} {now : Instant}
    {post : Option NewRun → Option RunRef → Prop} {own : Option RunRef}
    (h : ∀ next, post next own) : (nextRun run failure now).Heeds post own := by
  unfold nextRun
  split
  · exact h none
  · split
    · exact Program.Heeds.ask rfl fun runId _ => h _
    · trivial

theorem rejectChild_spares {draft : Draft} {own : Option RunRef} (spares : draft.Spares own)
    (workflowId workflowType : String) (failure : Failure) :
    (rejectChild draft workflowId workflowType failure).Spares own where
  events := by
    apply spares.events.append
    intro otherId runId otherType hmem hgenuine
    simp only [List.mem_singleton, Event.childStarted.injEq] at hmem
    exact absurd hmem.2.1 hgenuine
  trailing := by
    intro event hmem
    rcases List.mem_append.1 hmem with hold | hnew
    · exact spares.trailing event hold
    · rw [List.mem_singleton.1 hnew]
      rfl

theorem resolveChild_heeds {run : Run} {draft : Draft} {own : Option RunRef}
    (spares : draft.Spares own) (workflowId workflowType : String) (input : Json)
    (taskQueue : Option String) (options : WorkflowOptions) {running : Except EngineError Bool}
    (hfree : running = .ok false → ∀ ref ∈ own, workflowId ≠ ref.workflowId) :
    (resolveChild run draft workflowId workflowType input taskQueue options running).Heeds Spared
      own := by
  unfold resolveChild
  split
  · exact fun next hnext => nomatch hnext
  · exact (rejectChild_spares spares workflowId workflowType _).spared
  · apply Program.Heeds.ask rfl
    intro runId _
    apply Draft.Spares.spared
    refine ⟨spares.events.append ?_, spares.trailing⟩
    intro otherId otherRun otherType hmem _ ref href
    simp only [List.mem_singleton, Event.childStarted.injEq] at hmem
    rw [hmem.1]
    exact hfree rfl ref href

/-- Only a workflow id without an open run is free, and so it is not that of an open run. -/
theorem isRunning_heeds (workflowId : String) (own : Option RunRef) :
    (isRunning workflowId).Heeds (fun running later => (∀ ref ∈ later, ref ∈ own) ∧
      (running = .ok false → ∀ ref ∈ later, workflowId ≠ ref.workflowId)) own := by
  have hforgotten : ∀ ref ∈ own.filter fun ref => ref.workflowId != workflowId,
      ref ∈ own ∧ workflowId ≠ ref.workflowId := by
    intro ref href
    rw [Option.mem_filter_iff] at href
    exact ⟨href.1, fun heq => by simp [heq] at href⟩
  apply Program.Heeds.request
  · trivial
  intro answer _
  cases answer with
  | ok run =>
      cases hclosed : run.status.isClosed with
      | false =>
          have hsame : (Request.currentRun workflowId).remember own (.ok run) = own := by
            simp [Request.remember, Program.namesOpenRun, hclosed]
          rw [hsame]
          exact ⟨fun _ href => href, fun hfree => by simp [hclosed] at hfree⟩
      | true =>
          have hgone : (Request.currentRun workflowId).remember own (.ok run) =
              own.filter fun ref => ref.workflowId != workflowId := by
            simp [Request.remember, Program.namesOpenRun, hclosed]
          rw [hgone]
          exact ⟨fun ref href => (hforgotten ref href).1, fun _ ref href => (hforgotten ref href).2⟩
  | error error =>
      have hgone : (Request.currentRun workflowId).remember own (.error error) =
          own.filter fun ref => ref.workflowId != workflowId := rfl
      rw [hgone]
      cases error <;>
        exact ⟨fun ref href => (hforgotten ref href).1, fun _ ref href => (hforgotten ref href).2⟩

theorem startChild_heeds {run : Run} {draft : Draft} {own : Option RunRef}
    (spares : draft.Spares own) (workflowId workflowType : String) (input : Json)
    (taskQueue : Option String) (options : WorkflowOptions) :
    (startChild run draft workflowId workflowType input taskQueue options).Heeds Spared own := by
  have named : Draft.Spares { draft with children := workflowId :: draft.children } own :=
    ⟨spares.events, spares.trailing⟩
  rcases startChild_cases run draft workflowId workflowType input taskQueue options with
    ⟨failure, hrejected⟩ | hrepeated | ⟨-, hasked⟩
  · rw [hrejected]
    exact (rejectChild_spares spares workflowId workflowType failure).spared
  · rw [hrepeated]
    exact resolveChild_heeds named workflowId workflowType input taskQueue options fun hfree =>
      nomatch hfree
  · rw [hasked]
    apply Program.Heeds.bind
    apply (isRunning_heeds workflowId own).weaken
    rintro running later ⟨hforgets, hfree⟩
    exact resolveChild_heeds ⟨named.events.forget hforgets, named.trailing⟩ workflowId workflowType
      input taskQueue options hfree

theorem addCommand_heeds {run : Run} {ledger : Ledger} {now : Instant} {draft : Draft}
    {own : Option RunRef} (spares : draft.Spares own) (command : Command) :
    (addCommand run ledger now draft command).Heeds Spared own := by
  cases command with
  | startChild workflowId workflowType input taskQueue options =>
      exact startChild_heeds spares workflowId workflowType input taskQueue options
  | complete result =>
      apply Program.Heeds.bind
      exact nextRun_heeds fun next => recorded_heeds spares rfl rfl rfl
  | fail failure =>
      apply Program.Heeds.bind
      exact nextRun_heeds fun next => recorded_heeds spares rfl rfl rfl
  | awaitSignal signalName => exact spares.spared
  | awaitCondition conditionId timeout => exact spares.spared
  | _ => exact recorded_heeds spares rfl rfl rfl

theorem addCommands_heeds {run : Run} {ledger : Ledger} {now : Instant} {draft : Draft}
    {own : Option RunRef} (spares : draft.Spares own) (commands : List Command) :
    (addCommands run ledger now draft commands).Heeds Spared own := by
  induction commands generalizing draft own with
  | nil => exact spares.spared
  | cons command rest ih =>
      unfold addCommands
      apply Program.Heeds.bind
      apply (addCommand_heeds spares command).weaken
      intro result later hspared
      cases result with
      | error error => rintro next ⟨⟩
      | ok next =>
          simp only
          split
          · exact hspared
          · exact ih (hspared next rfl)

/-- A decision starts no child under the id of the run that it takes for open. -/
theorem build_heeds (run : Run) (ledger : Ledger) (commands : List Command) (now : Instant)
    (own : Option RunRef) :
    (build run ledger commands now).Heeds
      (fun result later => ∀ commit, result = .ok commit → SparesOwn later commit.events) own := by
  have empty : Draft.empty.Spares own :=
    ⟨.of_childless fun _ hmem => (nomatch hmem), fun _ hmem => (nomatch hmem)⟩
  unfold build
  apply Program.Heeds.bind
  apply (addCommands_heeds empty commands).weaken
  intro result later hspared
  cases result with
  | error error => exact fun commit hcommit => nomatch hcommit
  | ok draft =>
      rintro commit ⟨⟩
      have spares := hspared draft rfl
      unfold finish
      split
      · exact spares.events
      · exact spares.events.append (.of_childless spares.trailing)

end Decision

/-! ## Workflow tasks -/

namespace Engine

variable {engine : Engine} {ref : RunRef}

theorem failInvalidInput_heeds (reason : String) (own : Option RunRef) :
    (engine.failInvalidInput ref reason).Heeds (fun _ _ => True) own := by
  apply Program.Heeds.bind
  refine (Revision.attempt_heeds ref ?_ engine.rounds own).weaken ?_
  · intro run ledger commit hwrites event hmem
    obtain ⟨-, -, hevents⟩ := tidy_of_forceClose rfl rfl hwrites
    rw [hevents] at hmem
    rw [List.mem_singleton.1 hmem]
    rfl
  · intro result later _
    cases result with
    | ok revised => trivial
    | error error => cases error <;> trivial

theorem commitDecision_heeds {run : Run} {history : List HistoryEvent} {commands : List Command}
    {again : Program (Except EngineError TaskResult)} {own : Option RunRef}
    (hagain : ∀ later, again.Heeds (fun _ _ => True) later) :
    (commitDecision run history commands again).Heeds (fun _ _ => True) own := by
  apply Program.Heeds.ask rfl
  intro now _
  apply Program.Heeds.bind
  apply (Decision.build_heeds run (.ofHistory history) commands now own).weaken
  intro result later hspares
  cases result with
  | error error => trivial
  | ok commit =>
      apply Program.Heeds.request
      · exact hspares commit rfl
      · intro answer _
        cases answer with
        | ok version => trivial
        | error error =>
            cases error with
            | versionConflict expected found => exact hagain _
            | alreadyStarted workflowId runId => exact hagain _
            | _ => trivial

theorem advance_heeds (rounds : Nat) (own : Option RunRef) :
    (engine.advance ref rounds).Heeds (fun _ _ => True) own := by
  induction rounds generalizing own with
  | zero => trivial
  | succ rounds ih =>
      unfold advance
      apply Program.Heeds.request
      · trivial
      intro got _
      cases got with
      | error error => trivial
      | ok run =>
          simp only
          split
          · trivial
          · apply Program.Heeds.ask rfl
            intro read _
            cases read with
            | error error => trivial
            | ok history =>
                simp only
                split
                · trivial
                · unfold decide
                  split
                  · trivial
                  · exact failInvalidInput_heeds _ _
                  · trivial
                  · split
                    · trivial
                    · split
                      · trivial
                      · -- the commit of a decision is the only request that needs care
                        exact commitDecision_heeds fun later => ih later

end Engine

theorem Worker.runWorkflowTask_heeds {worker : Worker} {catalogue : WorkflowRegistry}
    (task : LeasedTask) (own : Option RunRef) :
    (worker.runWorkflowTask catalogue task).Heeds (fun _ _ => True) own := by
  apply Program.Heeds.bind
  apply (Engine.advance_heeds _ own).weaken
  intro result later _
  cases result with
  | ok result => exact Program.Heeds.ask rfl fun _ _ => trivial
  | error error => exact Program.Heeds.ask rfl fun _ _ => trivial

/-- An operation that processes a workflow task is heedful from its beginning on. -/
theorem Operation.program_heeds {operation : Operation} (htask : operation.isTask = true)
    (own : Option RunRef) : operation.program.Heeds (fun _ _ => True) own := by
  cases operation with
  | processTask engine ref =>
      apply Program.Heeds.bind
      exact (Engine.advance_heeds _ own).weaken fun _ _ _ => trivial
  | workerTurn worker catalogue moment part =>
      apply Program.Heeds.bind
      cases part with
      | claimed task =>
          cases hwork : task.work with
          | workflow ref workflowType =>
              simp only [Worker.partTurn, hwork]
              apply Program.Heeds.bind
              exact (Worker.runWorkflowTask_heeds task own).weaken fun _ _ _ => trivial
          | activity work =>
              simp [Operation.isTask, WorkerPart.isWorkflowTask, hwork] at htask
      | _ => cases htask
  | _ => cases htask

end Chronicle
