import Chronicle.Proofs.Program.Avoiding

/-!
# Engines write to the run that they are asked to advance

A revision, and a workflow task, of one run leaves every other run alone: a decision only asks
questions before it commits, and it commits to the run that was read.
-/

namespace Chronicle

variable {ref target : RunRef}

theorem Request.writesTo_commit {expected : Nat} {commit : Commit} (hother : target ≠ ref) :
    (Request.commit target expected commit).writesTo ref = false := decide_eq_false hother

/-! ## Revisions -/

theorem Revision.outcome_avoids {α : Type} (revision : Revision α) :
    revision.outcome.Avoids ref fun _ => True := by
  cases revision with
  | keep reason => exact .pure trivial
  | write commit => exact .pure trivial
  | writeAt commit => exact (Program.Avoids.ask rfl).bind fun now _ => .pure trivial

theorem Revision.attempt_avoids {α : Type} (hother : target ≠ ref) (reviser : Reviser α)
    (rounds : Nat) : (Revision.attempt target reviser rounds).Avoids ref fun _ => True := by
  induction rounds with
  | zero => exact .pure trivial
  | succ rounds ih =>
      unfold Revision.attempt
      apply (Program.Avoids.ask rfl).bind
      intro got _
      cases got with
      | error error => exact .pure trivial
      | ok run =>
          simp only
          split
          · exact .pure trivial
          · apply (Program.Avoids.ask rfl).bind
            intro read _
            cases read with
            | error error => exact .pure trivial
            | ok history =>
                apply (Revision.outcome_avoids _).bind
                intro outcome _
                cases outcome with
                | error reason => exact .pure trivial
                | ok commit =>
                    apply (Program.Avoids.ask (Request.writesTo_commit hother)).bind
                    intro answer _
                    cases answer with
                    | ok version => exact .pure trivial
                    | error error =>
                        cases error with
                        | versionConflict expected found => exact ih
                        | _ => exact .pure trivial

/-! ## Decisions -/

namespace Decision

theorem nextRun_avoids (run : Run) (failure : Option Failure) (now : Instant) :
    (nextRun run failure now).Avoids ref fun _ => True := by
  unfold nextRun
  split
  · exact .pure trivial
  · split
    · exact (Program.Avoids.ask rfl).bind fun runId _ => .pure trivial
    · exact .crash _ _

theorem isRunning_avoids (workflowId : String) : (isRunning workflowId).Avoids ref fun _ => True := by
  apply (Program.Avoids.ask rfl).bind
  intro answer _
  split <;> exact .pure trivial

theorem resolveChild_avoids (run : Run) (draft : Draft) (workflowId workflowType : String)
    (input : Json) (taskQueue : Option String) (options : WorkflowOptions)
    (running : Except EngineError Bool) :
    (resolveChild run draft workflowId workflowType input taskQueue options running).Avoids ref
      fun _ => True := by
  unfold resolveChild
  split
  · exact .pure trivial
  · exact .pure trivial
  · exact (Program.Avoids.ask rfl).bind fun runId _ => .pure trivial

theorem startChild_avoids (run : Run) (draft : Draft) (workflowId workflowType : String)
    (input : Json) (taskQueue : Option String) (options : WorkflowOptions) :
    (startChild run draft workflowId workflowType input taskQueue options).Avoids ref
      fun _ => True := by
  rcases startChild_cases run draft workflowId workflowType input taskQueue options with
    ⟨failure, hrejected⟩ | hrepeated | ⟨-, hasked⟩
  · rw [hrejected]
    exact .pure trivial
  · rw [hrepeated]
    exact resolveChild_avoids _ _ _ _ _ _ _ _
  · rw [hasked]
    exact (isRunning_avoids workflowId).bind fun running _ => resolveChild_avoids _ _ _ _ _ _ _ _

theorem addCommand_avoids (run : Run) (ledger : Ledger) (now : Instant) (draft : Draft)
    (command : Command) : (addCommand run ledger now draft command).Avoids ref fun _ => True := by
  cases command with
  | startChild workflowId workflowType input taskQueue options =>
      exact startChild_avoids run draft workflowId workflowType input taskQueue options
  | complete result => exact (nextRun_avoids run none now).bind fun next _ => .pure trivial
  | fail failure => exact (nextRun_avoids run (some failure) now).bind fun next _ => .pure trivial
  | _ => exact .pure trivial

theorem addCommands_avoids (run : Run) (ledger : Ledger) (now : Instant) (draft : Draft)
    (commands : List Command) :
    (addCommands run ledger now draft commands).Avoids ref fun _ => True := by
  induction commands generalizing draft with
  | nil => exact .pure trivial
  | cons command rest ih =>
      apply (addCommand_avoids run ledger now draft command).bind
      intro result _
      cases result with
      | error error => exact .pure trivial
      | ok next =>
          simp only
          split
          · exact .pure trivial
          · exact ih next

theorem build_avoids (run : Run) (ledger : Ledger) (commands : List Command) (now : Instant) :
    (build run ledger commands now).Avoids ref fun _ => True := by
  apply (addCommands_avoids run ledger now .empty commands).bind
  intro result _
  cases result <;> exact .pure trivial

end Decision

/-! ## Workflow tasks -/

namespace Engine

variable {engine : Engine}

theorem failInvalidInput_avoids (hother : target ≠ ref) (reason : String) :
    (engine.failInvalidInput target reason).Avoids ref fun _ => True := by
  apply (Revision.attempt_avoids hother _ engine.rounds).bind
  intro result _
  split <;> exact .pure trivial

theorem commitDecision_avoids {run : Run} (hother : run.ref ≠ ref) (history : List HistoryEvent)
    (commands : List Command) {again : Program (Except EngineError TaskResult)}
    (hagain : again.Avoids ref fun _ => True) :
    (commitDecision run history commands again).Avoids ref fun _ => True := by
  apply (Program.Avoids.ask rfl).bind
  intro now _
  apply (Decision.build_avoids run _ commands now).bind
  intro result _
  cases result with
  | error error => exact .pure trivial
  | ok commit =>
      apply (Program.Avoids.ask (Request.writesTo_commit hother)).bind
      intro answer _
      split
      · exact .pure trivial
      · exact hagain
      · exact hagain
      · exact .pure trivial
      · exact .pure trivial

/-- What is committed belongs to the run that was read, and that is the one that was asked for. -/
theorem processTask_avoids (hother : target ≠ ref) :
    (engine.processTask target).Avoids ref fun _ => True := by
  unfold processTask
  induction engine.rounds with
  | zero => exact .pure trivial
  | succ rounds ih =>
      unfold advance
      apply Program.Avoids.request rfl
      intro got apart
      cases got with
      | error error => exact .pure trivial
      | ok run =>
          have href : run.ref = target := apart
          simp only
          split
          · exact .pure trivial
          · apply (Program.Avoids.ask rfl).bind
            intro read _
            cases read with
            | error error => exact .pure trivial
            | ok history =>
                simp only
                split
                · exact .pure trivial
                · unfold decide
                  split
                  · exact .crash _ _
                  · exact failInvalidInput_avoids hother _
                  · exact .pure trivial
                  · split
                    · exact .pure trivial
                    · split
                      · exact .pure trivial
                      · exact commitDecision_avoids (href ▸ hother) history _ ih

end Engine

end Chronicle
