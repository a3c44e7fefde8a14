import Chronicle.Proofs.Engine.Redelivery
import Chronicle.Proofs.Engine.Relief
import Chronicle.Proofs.Worker.Roles

/-!
# No wake-up is lost

As long as the replay of an open run wants something recorded, there is a workflow task for the
run.  A task goes only after a decision that left nothing to record, or with another one to follow.
-/

namespace Chronicle

open Relation (ReflTransGen)

/-! ## Histories on which nothing is left to decide -/

/-- The replay has nothing to add to the history. -/
def Replayer.WantsNothing {workflow : WorkflowType} (replayer : Replayer workflow) : Prop :=
  replayer.closed = true ∨ replayer.pending = []

namespace Replay

variable {workflow : WorkflowType} {ref : RunRef} {history : List HistoryEvent} {limit : Nat}
  {registry : WorkflowRegistry} {outcome : ReplayOutcome}

/-- What one replay comes to, all others come to as well. -/
theorem endsWith_of_replay (hdeterministic : workflow.Deterministic)
    (hregistry : ∀ other, registry.find? workflow.name = some other → other = workflow)
    (hreplay : replay limit registry ref history = .ok outcome) :
    EndsWith workflow ref history fun replayer => replayer.closed = outcome.closed ∧
      (outcome.closed = false → replayer.pending = outcome.newCommands ∧
        (outcome.newCommands ≠ [] → replayer.draining = false)) := by
  intro input taskQueue attempt parent options start hhead hcreate other horizon
  obtain ⟨replayer, hfind, happlied, rfl⟩ := replayer_of_replay hregistry hreplay hhead hcreate
  rcases Replayer.applyAll_again hdeterministic happlied other horizon with
    hendless | ⟨calls, hcalls⟩
  · exact .inl hendless
  · refine .inr ⟨_, hcalls, rfl, ?_⟩
    intro hopen
    have hstill : replayer.closed = false := hopen
    refine ⟨by simp [hstill, Replayer.withCalls], ?_⟩
    intro hsome
    -- a replay that ends in the middle of a decision returns nothing
    by_contra hdraining
    have hmiddle : replayer.draining = true := by simpa [Replayer.withCalls] using hdraining
    simp only [hstill, Bool.false_eq_true, if_false] at hsome
    simp [replay, hhead, hfind, Replay.run, hcreate, happlied, conclude, hstill, hmiddle, hsome]
      at hreplay

theorem EndsWith.of_idle (hdeterministic : workflow.Deterministic)
    (hregistry : ∀ other, registry.find? workflow.name = some other → other = workflow)
    (hreplay : replay limit registry ref history = .ok outcome)
    (hidle : outcome.closed = true ∨ outcome.newCommands = []) :
    EndsWith workflow ref history Replayer.WantsNothing := by
  apply (endsWith_of_replay hdeterministic hregistry hreplay).mono
  rintro replayer ⟨hclosed, hpending⟩
  cases hopen : outcome.closed with
  | true => exact .inl (hclosed.trans hopen)
  | false =>
      obtain ⟨hsame, -⟩ := hpending hopen
      rw [hopen] at hidle
      exact .inr (hsame.trans (hidle.resolve_left Bool.false_ne_true))

theorem EndsWith.newCommands_eq_nil (ends : EndsWith workflow ref history Replayer.WantsNothing)
    (hreadable : Readable workflow history) (hregistry : registry.find? workflow.name = some workflow)
    (hreplay : replay limit registry ref history = .ok outcome) : outcome.newCommands = [] := by
  obtain ⟨input, taskQueue, attempt, parent, options, start, hhead, hcreate⟩ := hreadable
  obtain ⟨replayer, -, happlied, rfl⟩ := replayer_of_replay
    (fun other hother => Option.some.inj (hother.symm.trans hregistry)) hreplay hhead hcreate
  rcases ends input taskQueue attempt parent options start hhead hcreate limit
    (Replay.horizon history) with hendless | ⟨same, hsame, hnothing⟩
  · rw [hendless] at happlied
    cases happlied
  · rw [hsame, Except.ok.injEq] at happlied
    subst happlied
    rcases hnothing with hclosed | hnone
    · simp [hclosed]
    · simp [hnone]

theorem key?_of_isProgress {event : Event} (h : event.isProgress = true) : event.key? = none := by
  cases event <;> simp_all [Event.isProgress, Event.key?]

/-- Progress of activities is nothing to workflow code. -/
theorem applyAll_progress {frame : ReplayFrame} {replayer : Replayer workflow}
    {more : List HistoryEvent} (hopen : replayer.closed = false)
    (hprogress : ∀ event ∈ more, event.event.isProgress = true) :
    Replayer.applyAll limit frame replayer more = .ok replayer := by
  induction more with
  | nil => rfl
  | cons event rest ih =>
      have hfirst := hprogress event List.mem_cons_self
      have happlied : Replayer.apply limit frame replayer event = .ok replayer := by
        simp [Replayer.apply, key?_of_isProgress hfirst, hfirst]
      unfold Replayer.applyAll
      simp only [happlied, hopen]
      exact ih fun other hmem => hprogress other (List.mem_cons_of_mem _ hmem)

theorem EndsWith.progress {more : List HistoryEvent}
    (ends : EndsWith workflow ref history Replayer.WantsNothing)
    (hprogress : ∀ event ∈ more, event.event.isProgress = true) :
    EndsWith workflow ref (history ++ more) Replayer.WantsNothing := by
  intro input taskQueue attempt parent options start hhead hcreate other horizon
  cases history with
  | nil =>
      cases more with
      | nil => cases hhead
      | cons event rest =>
          have hfirst := hprogress event List.mem_cons_self
          simp only [List.nil_append, List.head?_cons, Option.map_some, Option.some.injEq] at hhead
          rw [hhead] at hfirst
          cases hfirst
  | cons first rest =>
      apply (ends input taskQueue attempt parent options start hhead hcreate other horizon).append rfl
      · exact fun _ hnothing _ => hnothing
      · exact fun middle hnothing hopen => .inr ⟨middle, applyAll_progress hopen hprogress, hnothing⟩

end Replay

theorem Engine.Decided.wantsNothing {workflow : WorkflowType} {engine : Engine} {ref : RunRef}
    {run : Run} {history : List HistoryEvent} {commit : Commit}
    (decided : engine.Decided ref run history commit) (serves : engine.Serves workflow)
    (hdeterministic : workflow.Deterministic) (hpanics : workflow.NeverPanics)
    (hplain : ∀ event ∈ commit.events, Decision.isRejection event = false) (now : Instant)
    (eventId : Nat) :
    Replay.EndsWith workflow ref (history ++ RunRecord.number now eventId commit.events)
      Replayer.WantsNothing := by
  obtain ⟨-, outcome, -, hreplay, hopen, hsome, -⟩ := id decided
  have agrees : Replay.Agrees workflow ref history :=
    (Replay.endsWith_of_replay hdeterministic serves hreplay).mono
      fun replayer hsame => (hsame.2 hopen).2 hsome
  have hbegun : history ≠ [] := by
    rintro rfl
    obtain ⟨workflowType, input, taskQueue, attempt, parent, options, found, start, replayer, hhead,
      -⟩ := Replay.eq_ok_of_replay hreplay
    cases hhead
  apply (decided.endsWith serves hdeterministic hpanics hbegun agrees now eventId).mono
  exact fun replayer hdrained => .inr (hdrained.2 hplain)

/-! ## Rules -/

/-- Whoever knows the workflow may decide, by the same code. -/
def Rules.serving (workflow : WorkflowType) : Rules where
  decides engine := engine.Serves workflow
  settled ref history := Replay.EndsWith workflow ref history Replayer.WantsNothing
  keeps _ := True

theorem Rules.serving_lawful {workflow : WorkflowType} (hdeterministic : workflow.Deterministic)
    (hpanics : workflow.NeverPanics) : (Rules.serving workflow).Lawful where
  starts := fun _ _ => trivial
  steps := fun _ _ _ _ => trivial
  idle := fun _ _ _ decides _ hreplay hidle => .of_idle hdeterministic decides hreplay hidle
  decided := fun _ _ _ _ decides _ decided hplain now eventId =>
    decided.wantsNothing decides hdeterministic hpanics hplain now eventId
  progress := fun _ _ _ settled hprogress => settled.progress hprogress

/-! ## Scenes -/

structure ServingRole (workflow : WorkflowType) : Type 1 where
  role : Role
  serves : ∀ engine, role.engine? = some engine → engine.Serves workflow

namespace ServingRole

variable {workflow : WorkflowType}

def program (serving : ServingRole workflow) : Program Unit := serving.role.program

/-- Whatever is left to decide for an open run, there is a workflow task for it, and never more than
one that nobody holds. -/
theorem openRun_hasTask (hdeterministic : workflow.Deterministic) (hpanics : workflow.NeverPanics)
    {start : World} (hempty : start.store = .empty) {scene : Scene (ServingRole workflow) Unit}
    (reaches : Scene.Reaches program (.opening start) scene) :
    (∀ ref record, scene.world.store.runs.find? ref = some record → record.isClosed = false →
      Replay.Readable workflow record.events →
      ∀ limit (registry : WorkflowRegistry) outcome,
        registry.find? workflow.name = some workflow →
        replay limit registry ref record.events = .ok outcome → outcome.newCommands ≠ [] →
        ∃ slot ∈ scene.world.store.tasks.slots, slot.work.isWorkflowOf ref = true) ∧
    ∀ ref, scene.world.store.tasks.slots.countP (TaskSlot.isPending ref) ≤ 1 := by
  have lawful := Rules.serving_lawful hdeterministic hpanics
  obtain ⟨moves, sane⟩ := Scene.moves_of_empty lawful
    (fun serving => serving.role.program_obeys)
    (fun serving => serving.role.program_plays lawful serving.serves fun _ => trivial) hempty reaches
  refine ⟨?_, sane.tasks.single⟩
  intro ref record hfind hopen hreadable limit registry outcome hregistry hreplay hsome
  have nothing : (Rules.serving workflow).Attended .empty ref 0 := fun _ hnone => nomatch hnone
  rcases Leads.attended moves lawful (.empty _) (Nat.zero_le _) nothing record hfind hopen with
    hsettled | ⟨slot, hslot, hworkflow, -⟩
  · exact absurd (hsettled.newCommands_eq_nil hreadable hregistry hreplay) hsome
  · exact ⟨slot, hslot, hworkflow⟩

def ofOperation (serving : ServingOperation workflow)
    (isPlain : serving.operation.isPlain = true) : ServingRole workflow where
  role := .operate serving.operation isPlain
  serves := serving.serves

def sampleStart : ServingRole Samples.bare := ofOperation ServingOperation.sampleStart rfl

def sampleCancellation : ServingRole Samples.bare :=
  ofOperation ServingOperation.sampleCancellation rfl

/-- A run that is asked to cancel wants to do so, and has a task for it. -/
theorem cancelledRun_hasTask :
    ∃ (scene : Scene (ServingRole Samples.bare) Unit) (record : RunRecord) (outcome : ReplayOutcome),
      Scene.Reaches program (.opening Operation.blankWorld) scene ∧
      scene.world.store.runs.find? Operation.sampleRun = some record ∧ record.isClosed = false ∧
      replay 100 Operation.sampleEngine.registry Operation.sampleRun record.events = .ok outcome ∧
      outcome.newCommands ≠ [] ∧
      (∃ slot ∈ scene.world.store.tasks.slots,
        slot.work.isWorkflowOf Operation.sampleRun = true) ∧
      ∀ ref, scene.world.store.tasks.slots.countP (TaskSlot.isPending ref) ≤ 1 := by
  have entered : Scene.Reaches program (.opening Operation.blankWorld)
      ⟨Operation.blankWorld, [⟨_, program sampleStart⟩, ⟨_, program sampleCancellation⟩], []⟩ :=
    (ReflTransGen.single (.enter _)).tail (.enter _)
  have started := (entered.act 0 rfl rfl).act 0 rfl rfl
  have requested := ((started.act 1 rfl rfl).act 1 rfl rfl).act 1 rfl rfl
  obtain ⟨htasks, hsingle⟩ := openRun_hasTask ServingOperation.bare_deterministic
    ServingOperation.bare_neverPanics rfl requested
  have hsome : ∀ reason, [Command.cancel reason] ≠ [] := fun _ => List.cons_ne_nil _ _
  refine ⟨_, _, _, requested, rfl, rfl, rfl, hsome _, ?_, hsingle⟩
  exact htasks Operation.sampleRun _ rfl rfl
    ⟨.null, "default", 1, none, .standard, (), rfl, rfl⟩ 100 Operation.sampleEngine.registry _ rfl rfl
    (hsome _)

end ServingRole

end Chronicle
