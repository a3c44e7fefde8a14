import Chronicle.Proofs.Engine.Agreement

/-!
# Redelivered workflow tasks

Whatever happens to a run, its history can be replayed.  A workflow task that is processed right
after another one of its run finds nothing new to decide, and writes nothing.
-/

namespace Chronicle

open Relation (ReflTransGen)

theorem Program.run_request {σ α : Type} {handler : Program.Handler σ} {request : Request}
    {next : request.Answer → Program α} {before after : σ} {answer : request.Answer}
    (h : handler request before = (.ok answer, after)) :
    (Program.request request >>= next).run handler before = (next answer).run handler after := by
  show (Program.ask request fun answer => next answer).run handler before = _
  rw [Program.run, h]

namespace Engine

variable {engine : Engine} {ref : RunRef} {world : World} {record : RunRecord}

/-- Nothing is decided about the run, and nothing makes it fail. -/
def IsIdle (engine : Engine) (ref : RunRef) (history : List HistoryEvent) : Prop :=
  (∀ outcome, replay engine.limits.replayLimit engine.registry ref history = .ok outcome →
      outcome.newCommands = []) ∧
    ∀ reason, replay engine.limits.replayLimit engine.registry ref history ≠
      .error (.error (.registry (.undecodableInput reason)))

theorem decide_of_idle {run : Run} {history : List HistoryEvent}
    {again : Program (Except EngineError TaskResult)} (idle : engine.IsIdle ref history) :
    ((engine.decide run ref history again).run World.answer world).2 = world := by
  obtain ⟨hnothing, hreads⟩ := idle
  unfold decide
  split
  · rfl
  · rename_i reason hreplay
    exact absurd hreplay (hreads reason)
  · rfl
  · rename_i outcome hreplay
    rw [hnothing outcome hreplay]
    split <;> rfl

/-- A workflow task leaves an idle run, and everything else, as it is. -/
theorem processTask_of_idle (hfind : world.store.runs.find? ref = some record)
    (idle : engine.IsIdle ref record.events) :
    ((engine.processTask ref).run World.answer world).2 = world := by
  unfold processTask rounds advance
  rw [Program.run_request (World.answer_getRun_of_find hfind)]
  simp only
  split
  · rfl
  · rw [Program.run_request (World.answer_readEvents_of_find hfind)]
    simp only
    split
    · rfl
    · exact decide_of_idle idle

end Engine

namespace Replay

variable {workflow : WorkflowType} {ref : RunRef} {history : List HistoryEvent}

/-- Every replay by the workflow that comes to an end returns an outcome. -/
def Undisputed (workflow : WorkflowType) (ref : RunRef) (history : List HistoryEvent) : Prop :=
  ∀ limit (registry : WorkflowRegistry), registry.find? workflow.name = some workflow →
    replay limit registry ref history = .error (.crash .endless) ∨
      ∃ outcome, replay limit registry ref history = .ok outcome

/-- No replay by the workflow wants anything recorded. -/
def Exhausted (workflow : WorkflowType) (ref : RunRef) (history : List HistoryEvent) : Prop :=
  ∀ limit (registry : WorkflowRegistry) outcome,
    registry.find? workflow.name = some workflow →
    replay limit registry ref history = .ok outcome → outcome.newCommands = []

theorem Agrees.undisputed (agrees : Agrees workflow ref history)
    (hreadable : Readable workflow history) : Undisputed workflow ref history := by
  intro limit registry hfind
  rcases replay_of_endsWith agrees (fun _ hdraining => hdraining) hreadable hfind with
    hendless | ⟨replayer, -, hreplay⟩
  · exact .inl hendless
  · exact .inr ⟨_, hreplay⟩

theorem exhausted_of_drained (ends : EndsWith workflow ref history Replayer.Drained)
    (hreadable : Readable workflow history) : Exhausted workflow ref history := by
  intro limit registry outcome hfind hreplay
  rcases replay_of_endsWith ends (fun _ hdrained => hdrained.1) hreadable hfind with
    hendless | ⟨replayer, hdrained, hsame⟩
  · rw [hendless] at hreplay
    cases hreplay
  · rw [hsame] at hreplay
    cases hreplay
    rw [hdrained.2, ite_self]

theorem Exhausted.isIdle {engine : Engine} (exhausted : Exhausted workflow ref history)
    (hreadable : Readable workflow history) (serves : engine.Serves workflow) :
    engine.IsIdle ref history := by
  constructor
  · intro outcome hreplay
    obtain ⟨input, taskQueue, attempt, parent, options, start, hhead, hcreate⟩ := hreadable
    obtain ⟨workflowType, input', taskQueue', attempt', parent', options', found, start', replayer,
      hhead', hfind, -, -, -⟩ := eq_ok_of_replay hreplay
    rw [hhead] at hhead'
    cases hhead'
    rw [serves found hfind] at hfind
    exact exhausted _ _ outcome hfind hreplay
  · exact fun reason => hreadable.decodes serves reason

end Replay

namespace ServingOperation

variable {workflow : WorkflowType}

theorem agrees_of_reaches (hdeterministic : workflow.Deterministic)
    (hpanics : workflow.NeverPanics) {start : World} (blank : start.IsBlank)
    {scene : Scene (ServingOperation workflow) Unit}
    (reaches : Scene.Reaches program (.opening start) scene) :
    ∀ ref record, scene.world.store.runs.find? ref = some record → record.Agrees workflow := by
  have opening : Scene.Follows charter (fun _ _ _ => True)
      (.opening start : Scene (ServingOperation workflow) Unit) fun _ => .nothing :=
    .opening blank.supplied
  have hsteps := opening.tables program_keeps charter_fits reaches
  apply RunTable.every_of_steps (RunRecord.Agrees.start hpanics)
    (fun _ _ step agrees => agrees.step hdeterministic hpanics step) hsteps
  intro ref record hfind
  rw [Scene.opening, blank] at hfind
  cases hfind

/-- The history that a workflow task has just written to leaves nothing to record. -/
theorem drained_of_task (hdeterministic : workflow.Deterministic) (hpanics : workflow.NeverPanics)
    {scene : Scene (ServingOperation workflow) Unit} {know : Nat → Knowledge}
    (follows : Scene.Follows charter (fun _ _ _ => True) scene know)
    (hagrees : ∀ ref record, scene.world.store.runs.find? ref = some record →
      record.Agrees workflow)
    {index : Nat} {serving : ServingOperation workflow} {ref : RunRef} {expected version : Nat}
    {commit : Commit} {next : Except StoreError Nat → Program Unit} {world : World}
    (turn : scene.actors[index]? = some ⟨serving, .ask (.commit ref expected commit) next⟩)
    (htask : serving.operation.isTask = true)
    (answered : World.answer (.commit ref expected commit) scene.world = (.ok (.ok version), world))
    (hplain : ∀ event ∈ commit.events, Decision.isRejection event = false) :
    ∃ record, world.store.runs.find? ref = some record ∧
      (Replay.Readable workflow record.events →
        Replay.EndsWith workflow ref record.events Replayer.Drained) := by
  obtain ⟨-, hpermits, -⟩ := follows.keeps index _ turn
  obtain ⟨now, run, record, -, hfind, -, -, horigin, hwarrants, hfresh, hdistinct, hafter, -⟩ :=
    (follows.knows index).commit hpermits answered
  have agrees := hagrees ref record hfind
  have href : record.run.ref = ref := RunTable.ref_of_find? hfind
  have hsame : run.ref = ref := (Run.ref_eq_of_origin horigin).trans href
  have hsilent : commit.closing = none → commit.notifications = [] := by
    intro hopen
    rcases hwarrants with ⟨hother, -⟩ | ⟨engine, -, decided | refused⟩
    · rw [htask] at hother
      cases hother
    · -- a parent can be told only of the end of the run
      exact decided.silent hopen
    · exact absurd hopen refused.closes
  obtain ⟨later, hlater, hevents⟩ := RunTable.events_applied_exactly now hfind hfresh hdistinct
    (Operation.Warrants.tidy hwarrants) hsilent
  have hruns : world.store.runs = scene.world.store.runs.applied ref commit now := by
    rw [hafter]
    exact Store.apply_runs _ _ _ _
  refine ⟨later, hruns ▸ hlater, ?_⟩
  intro hreadable
  rw [hevents] at hreadable ⊢
  rcases hwarrants with ⟨hother, -⟩ | ⟨engine, hengine, decided | refused⟩
  · rw [htask] at hother
    cases hother
  · have serves := serving.serves engine hengine
    rw [hsame] at decided
    have hreplays := agrees.replays
    rw [href] at hreplays
    have hends := decided.endsWith serves hdeterministic hpanics agrees.begun hreplays now
      (record.events.length + 1)
    exact hends.mono fun _ hdrained => ⟨hdrained.1, hdrained.2 hplain⟩
  · have serves := serving.serves engine hengine
    exact absurd (hreadable.of_append agrees.begun) (refused.unreadable serves)

/-- Replays of a workflow whose handlers are deterministic and do not panic agree with what was
committed, whatever else happens; and right after a workflow task that rejected no child, nothing
is left to commit. -/
theorem replay_agrees (hdeterministic : workflow.Deterministic) (hpanics : workflow.NeverPanics)
    {start : World} (blank : start.IsBlank) {scene : Scene (ServingOperation workflow) Unit}
    (reaches : Scene.Reaches program (.opening start) scene) :
    (∀ ref record, scene.world.store.runs.find? ref = some record →
      Replay.Readable workflow record.events → Replay.Undisputed workflow ref record.events) ∧
    ∀ (index : Nat) (serving : ServingOperation workflow) (ref : RunRef) (expected version : Nat)
      (commit : Commit) (next : Except StoreError Nat → Program Unit) (world : World),
      scene.actors[index]? = some ⟨serving, .ask (.commit ref expected commit) next⟩ →
      serving.operation.isTask = true →
      World.answer (.commit ref expected commit) scene.world = (.ok (.ok version), world) →
      (∀ event ∈ commit.events, Decision.isRejection event = false) →
      ∃ record, world.store.runs.find? ref = some record ∧
        (Replay.Readable workflow record.events →
          Replay.Exhausted workflow ref record.events ∧
          ∀ engine : Engine, engine.Serves workflow →
            ((engine.processTask ref).run World.answer world).2 = world) := by
  have hagrees := agrees_of_reaches hdeterministic hpanics blank reaches
  constructor
  · intro ref record hfind hreadable
    have hreplays := (hagrees ref record hfind).replays
    rw [RunTable.ref_of_find? hfind] at hreplays
    exact hreplays.undisputed hreadable
  · intro index serving ref expected version commit next world turn htask answered hplain
    have opening : Scene.Follows charter (fun _ _ _ => True)
        (.opening start : Scene (ServingOperation workflow) Unit) fun _ => .nothing :=
      .opening blank.supplied
    obtain ⟨know, follows⟩ := opening.reaches program_keeps charter_fits reaches
    obtain ⟨record, hfind, hdrained⟩ := drained_of_task hdeterministic hpanics follows hagrees turn
      htask answered hplain
    refine ⟨record, hfind, ?_⟩
    intro hreadable
    have hexhausted := Replay.exhausted_of_drained (hdrained hreadable) hreadable
    refine ⟨hexhausted, ?_⟩
    intro engine serves
    exact Engine.processTask_of_idle hfind (hexhausted.isIdle hreadable serves)

theorem bare_deterministic : Samples.bare.Deterministic := by
  intro state context stimulus reaction replaying hreact
  exact ⟨reaction, hreact, rfl, rfl⟩

theorem bare_neverPanics : Samples.bare.NeverPanics where
  react := by
    intro state context stimulus panic h
    cases h
  acceptsSignal := by
    intro state name panic h
    cases h
  conditionHolds := by
    intro state conditionId panic h
    cases h

theorem sampleEngine_serves : Operation.sampleEngine.Serves Samples.bare := by
  intro other hfind
  have hbare : Operation.sampleEngine.registry.find? Samples.bare.name = some Samples.bare := rfl
  rw [hbare] at hfind
  cases hfind
  rfl

def ofEngine (operation : Operation)
    (hengine : ∀ engine, operation.engine? = some engine → engine = Operation.sampleEngine) :
    ServingOperation Samples.bare :=
  ⟨operation, fun engine h => hengine engine h ▸ sampleEngine_serves⟩

def sampleStart : ServingOperation Samples.bare :=
  ofEngine (.start (.first Operation.sampleRun "bare" "default" .null .standard))
    fun _ h => nomatch h

def sampleCancellation : ServingOperation Samples.bare :=
  ofEngine (.requestCancellation Operation.sampleEngine Operation.sampleRun "late")
    fun _ h => (Option.some.inj h).symm

def sampleTask : ServingOperation Samples.bare :=
  ofEngine (.processTask Operation.sampleEngine Operation.sampleRun)
    fun _ h => (Option.some.inj h).symm

/-- A run is asked to cancel, and then does: its task is about to commit, and commits. -/
theorem cancelled_agrees :
    ∃ (scene : Scene (ServingOperation Samples.bare) Unit) (world : World) (record : RunRecord),
      Scene.Reaches program (.opening Operation.blankWorld) scene ∧
      (∀ ref record, scene.world.store.runs.find? ref = some record →
        Replay.Readable Samples.bare record.events →
        Replay.Undisputed Samples.bare ref record.events) ∧
      world.store.runs.find? Operation.sampleRun = some record ∧ record.isClosed = true ∧
      Replay.Readable Samples.bare record.events ∧
      Replay.Exhausted Samples.bare Operation.sampleRun record.events ∧
      ((Operation.sampleEngine.processTask Operation.sampleRun).run World.answer world).2 = world := by
  have blank : Operation.blankWorld.IsBlank := rfl
  have entered : Scene.Reaches program (.opening Operation.blankWorld)
      ⟨Operation.blankWorld,
        [⟨_, program sampleStart⟩, ⟨_, program sampleCancellation⟩, ⟨_, program sampleTask⟩], []⟩ :=
    ((ReflTransGen.single (.enter _)).tail (.enter _)).tail (.enter _)
  have started := (entered.act 0 rfl rfl).act 0 rfl rfl
  have requested := ((started.act 1 rfl rfl).act 1 rfl rfl).act 1 rfl rfl
  have decided := ((requested.act 2 rfl rfl).act 2 rfl rfl).act 2 rfl rfl
  obtain ⟨hundisputed, hsettled⟩ :=
    replay_agrees bare_deterministic bare_neverPanics blank decided
  obtain ⟨record, hfind, hexhausted⟩ := hsettled 2 _ _ _ _ _ _ _ rfl rfl rfl (by decide)
  have hclosed : record.isClosed = true ∧ Replay.Readable Samples.bare record.events := by
    cases hfind
    exact ⟨rfl, .null, "default", 1, none, .standard, (), rfl, rfl⟩
  obtain ⟨hnothing, hidle⟩ := hexhausted hclosed.2
  exact ⟨_, _, record, decided, hundisputed, hfind, hclosed.1, hclosed.2, hnothing,
    hidle Operation.sampleEngine sampleEngine_serves⟩

end ServingOperation

end Chronicle
