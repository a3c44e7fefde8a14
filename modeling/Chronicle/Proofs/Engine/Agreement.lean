import Chronicle.Proofs.Engine.HistoryLog
import Chronicle.Proofs.Replay.Agreement

/-!
# Decisions agree with replays

Runs of one workflow, on a store on which all kinds of operations act side by side.  Whatever is
written to such a run, its workflow can go on replaying its history; and right after a decision
there is nothing left to decide, unless a child was rejected with it.
-/

namespace Chronicle

/-- The engine knows the type of the workflow by no other code. -/
def Engine.Serves (engine : Engine) (workflow : WorkflowType) : Prop :=
  ∀ other, engine.registry.find? workflow.name = some other → other = workflow

namespace Engine

variable {workflow : WorkflowType} {engine : Engine} {ref : RunRef} {run : Run}
  {history : List HistoryEvent} {commit : Commit}

theorem Refused.unreadable (refused : engine.Refused ref run history commit)
    (serves : engine.Serves workflow) : ¬ Replay.Readable workflow history := by
  intro hreadable
  obtain ⟨-, reason, hreplay, -⟩ := refused
  exact hreadable.decodes serves reason hreplay

theorem Decided.silent (decided : engine.Decided ref run history commit)
    (hopen : commit.closing = none) : commit.notifications = [] := by
  obtain ⟨-, outcome, now, -, -, -, hyields⟩ := decided
  obtain ⟨recorded, rejected, batch⟩ := Decision.batch_of_build hyields
  exact batch.silent hopen

theorem Refused.closes (refused : engine.Refused ref run history commit) :
    commit.closing ≠ none := by
  obtain ⟨-, reason, -, hwrites⟩ := refused
  cases hwrites
  exact Option.some_ne_none _

/-- After a decision no command is outstanding, and none is new unless a child was rejected. -/
theorem Decided.endsWith (decided : engine.Decided ref run history commit)
    (serves : engine.Serves workflow) (hdeterministic : workflow.Deterministic)
    (hpanics : workflow.NeverPanics) (hsome : history ≠ [])
    (agrees : Replay.Agrees workflow ref history) (now : Instant) (eventId : Nat) :
    Replay.EndsWith workflow ref (history ++ RunRecord.number now eventId commit.events)
      fun replayer => replayer.draining = false ∧
        ((∀ event ∈ commit.events, Decision.isRejection event = false) → replayer.pending = []) := by
  obtain ⟨-, outcome, time, hreplay, hopen, -, hyields⟩ := decided
  obtain ⟨hkeyed, hcut⟩ := Replay.decided_of_replay hreplay
  obtain ⟨recorded, rejected, batch⟩ := Decision.batch_of_build hyields
  have hevents := RunRecord.map_event_number now eventId recorded
  have hkeys : (RunRecord.number now eventId recorded).map (fun event => event.event.key?) =
      outcome.newCommands.map Command.key? := by
    have hrecorded : (RunRecord.number now eventId recorded).map (fun event => event.event.key?) =
        recorded.map Event.key? := by
      conv_rhs => rw [← hevents]
      rw [List.map_map]
      rfl
    rw [hrecorded, batch.keys, hcut, Replay.map_key?_eq hkeyed]
  have hinner : ∀ event ∈ (RunRecord.number now eventId recorded).dropLast,
      event.event.isClose = false := by
    intro event hmem
    apply batch.inner
    rw [← hevents, ← List.map_dropLast]
    exact List.mem_map_of_mem hmem
  have hdrained := agrees.record hdeterministic hsome serves hreplay hopen hkeys hinner
  rw [batch.events, RunRecord.number_append, ← List.append_assoc]
  intro input taskQueue attempt parent options start hhead hcreate limit horizon
  have hrejected : ∀ event ∈ RunRecord.number now (eventId + recorded.length) rejected,
      event.event.key? = none := by
    intro event hmem
    have hrejection := batch.rejections _ (RunRecord.event_mem_of_mem_number hmem)
    exact Decision.key?_of_isRejection hrejection
  rw [Replay.head?_append (by simp [hsome])] at hhead
  apply (hdrained input taskQueue attempt parent options start hhead hcreate limit horizon).append rfl
  · exact fun _ hdrained _ => ⟨hdrained.1, fun _ => hdrained.2⟩
  · intro middle hdrained _
    -- a rejected child is an event for workflow code, which may want something new
    cases rejected with
    | nil => exact .inr ⟨middle, rfl, hdrained.1, fun _ => hdrained.2⟩
    | cons event rest =>
        apply (Replayer.applyAll_keyless hpanics hrejected hdrained.1).mono
        intro replayer hdraining
        refine ⟨hdraining, ?_⟩
        intro hnone
        have hrejection := batch.rejections event List.mem_cons_self
        have hplain := hnone event (by simp)
        rw [hrejection] at hplain
        cases hplain

end Engine

namespace RunRecord

/-- What may be written to a run of the workflow, or to any other run. -/
def MayWrite (workflow : WorkflowType) (record : RunRecord) (commit : Commit) : Prop :=
  commit.Notice ∨ ∃ (engine : Engine) (run : Run), engine.Serves workflow ∧
    (engine.Decided record.run.ref run record.events commit ∨
      engine.Refused record.run.ref run record.events commit)

structure Agrees (workflow : WorkflowType) (record : RunRecord) : Prop where
  begun : record.events ≠ []
  replays : Replay.Agrees workflow record.run.ref record.events

variable {workflow : WorkflowType}

theorem Agrees.start (hpanics : workflow.NeverPanics) (new : NewRun) (now : Instant) :
    (RunRecord.start new now).Agrees workflow where
  begun := List.cons_ne_nil _ _
  replays := by
    apply Replay.agrees_of_keyless hpanics
    intro event hmem
    rw [List.mem_singleton.1 hmem]
    rfl

theorem Agrees.revise {record : RunRecord} {commit : Commit} (agrees : record.Agrees workflow)
    (hdeterministic : workflow.Deterministic) (hpanics : workflow.NeverPanics)
    (hwrite : MayWrite workflow record commit) (now : Instant) :
    (record.revise commit now).Agrees workflow where
  begun := by simp [agrees.begun]
  replays := by
    rw [revise_ref, revise_events]
    rcases hwrite with notice | ⟨engine, run, serves, decided | refused⟩
    · apply agrees.replays.extend hpanics agrees.begun
      intro event hmem
      exact notice.keyless _ (event_mem_of_mem_number hmem)
    · have hends := decided.endsWith serves hdeterministic hpanics agrees.begun agrees.replays now
        (record.version + 1)
      exact hends.mono fun _ hdrained => hdrained.1
    · -- a run that is failed for its input was never begun by the workflow
      intro input taskQueue attempt parent options start hhead hcreate
      rw [Replay.head?_append agrees.begun] at hhead
      exact absurd ⟨input, taskQueue, attempt, parent, options, start, hhead, hcreate⟩
        (refused.unreadable serves)

/-- Each step in the life of a run leaves a history that agrees with its replays. -/
theorem Agrees.step {before after : RunRecord} (agrees : before.Agrees workflow)
    (hdeterministic : workflow.Deterministic) (hpanics : workflow.NeverPanics)
    (step : Step (MayWrite workflow) (fun event => event.isAnnouncement = true) before after) :
    after.Agrees workflow := by
  cases step with
  | revised now isOpen warranted => exact agrees.revise hdeterministic hpanics warranted now
  | notified now isOpen announced =>
      refine ⟨by simp [agrees.begun], ?_⟩
      apply agrees.replays.extend hpanics agrees.begun
      intro event hmem
      have hevent := event_mem_of_mem_number hmem
      rw [List.mem_singleton.1 hevent]
      exact Event.key?_of_isAnnouncement announced
  | linked next => exact ⟨agrees.begun, agrees.replays⟩

end RunRecord

/-! ## Scenes -/

structure ServingOperation (workflow : WorkflowType) : Type 1 where
  operation : Operation
  serves : ∀ engine, operation.engine? = some engine → engine.Serves workflow

namespace ServingOperation

variable {workflow : WorkflowType}

def program (serving : ServingOperation workflow) : Program Unit := serving.operation.program

def charter (serving : ServingOperation workflow) : Charter := serving.operation.charter

theorem program_keeps (serving : ServingOperation workflow) :
    serving.program.Keeps serving.charter (fun _ _ => True) .nothing :=
  serving.operation.program_obeys .nothing

theorem charter_fits (serving : ServingOperation workflow) :
    serving.charter.Fits (RunRecord.MayWrite workflow) fun event => event.isAnnouncement = true where
  warrants := by
    intro run record commit horigin warranted
    rw [RunRecord.MayWrite, ← Run.ref_eq_of_origin horigin]
    rcases warranted with ⟨-, notice⟩ | ⟨engine, hengine, htask⟩
    · exact .inl notice
    · exact .inr ⟨engine, run, serving.serves engine hengine, htask⟩
  announces := fun _ _ _ warranted => (Operation.Warrants.tidy warranted).announced

end ServingOperation

end Chronicle
