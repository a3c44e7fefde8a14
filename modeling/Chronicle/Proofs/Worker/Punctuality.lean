import Chronicle.Proofs.Engine.Firing
import Chronicle.Proofs.Worker.Roles

/-!
# Timers are always right

Engines, clients and workers share a store, and timer services fire what is due without being
interrupted.  However their work is interleaved, every run has just the timers that its history
calls for.
-/

namespace Chronicle

open Relation (ReflTransGen)

universe u

/-! ## Scenes that go on -/

namespace Scene

variable {ι : Type u} {ρ : Type} {charter : ι → Charter} {post : ι → ρ → Knowledge → Prop}

theorem Follows.continues {scene : Scene ι ρ} {know : Nat → Knowledge} {after : World}
    (follows : Follows charter post scene know) (continues : scene.world.Continues after) :
    Follows charter post { scene with world := after } know where
  supplied := by
    intro number hnumber huses
    rw [continues.supply] at hnumber
    exact follows.supplied number hnumber (continues.uses _ huses)
  keeps := follows.keeps
  knows := by
    intro index
    have change : Change Rules.recounting.Warrants Rules.announces .nothing .nothing scene.world
        after :=
      ⟨Leads.runs continues.moves, fun runId huses => .inl (continues.uses runId huses),
        Nat.le_of_eq continues.supply.symm, fun _ hmem => nomatch hmem⟩
    exact (follows.knows index).later change fun _ _ hmem => nomatch hmem
  disjoint := follows.disjoint
  accepted := follows.accepted
  unknown := follows.unknown

theorem Plays.continues {fires : Prop} {scene : Scene ι ρ} {after : World}
    (plays : scene.Plays .recounting fires) (continues : scene.world.Continues after) :
    Plays .recounting fires { scene with world := after } where
  sane := plays.sane.leads Rules.recounting_lawful continues.moves
  actors := fun actor hmem => (plays.actors actor hmem).later continues.moves

end Scene

/-! ## Quiet roles -/

/-- A role that fires no timers. -/
structure QuietRole : Type 1 where
  role : Role
  quiet : role.firesTimers = false

namespace QuietRole

def program (quiet : QuietRole) : Program Unit := quiet.role.program

/-- One thing that happens: one request of an actor is answered, or a timer service fires what is
due, as one operation. -/
inductive Turn : Scene QuietRole Unit → Scene QuietRole Unit → Prop where
  | step {before after : Scene QuietRole Unit} (step : Scene.Step program before after) :
      Turn before after
  | fire {scene : Scene QuietRole Unit} (service : TimerService) :
      Turn scene { scene with world := (service.fireDue.run World.answer scene.world).2 }

/-- Actors follow the rules without firing timers, and timers are right. -/
structure KeepsTime (scene : Scene QuietRole Unit) : Prop where
  follows : ∃ know, Scene.Follows.Permissive scene know
  plays : scene.Plays .recounting False
  timers : scene.world.store.KeepsTime []

namespace KeepsTime

theorem opening {start : World} (hempty : start.store = .empty) : KeepsTime (.opening start) where
  follows := by
    have blank : start.IsBlank := by rw [World.IsBlank, hempty]; rfl
    exact ⟨fun _ => .nothing, .opening blank.supplied⟩
  plays := .opening (hempty ▸ Sane.empty _)
  timers := by
    rw [Scene.opening, hempty]
    exact .empty

/-- Whatever happens next is a series of moves. -/
theorem step {before after : Scene QuietRole Unit} (keepsTime : KeepsTime before)
    (turn : Turn before after) :
    Leads .recounting before.world.store after.world.store ∧ KeepsTime after := by
  obtain ⟨know, follows⟩ := keepsTime.follows
  cases turn with
  | step step =>
      have hplays : ∀ quiet, (program quiet).PlaysAnywhere .recounting False := by
        intro quiet
        apply quiet.role.program_plays Rules.recounting_lawful fun _ _ => trivial
        simp [quiet.quiet]
      obtain ⟨moves, plays⟩ := keepsTime.plays.step Rules.recounting_lawful hplays follows step
      exact ⟨ReflTransGen.mono (fun _ _ move => move.mono False.elim) _ _ moves,
        follows.step (fun quiet => quiet.role.program_obeys .nothing)
          (fun _ => Charter.permissive_fits) step, plays, keepsTime.timers.moves moves⟩
  | fire service =>
      obtain ⟨continues, timers⟩ :=
        @TimerService.drain_run service before.world TimerService.batchLimit 0 keepsTime.timers
      exact ⟨continues.moves, ⟨know, follows.continues continues⟩,
        keepsTime.plays.continues continues, timers⟩

theorem advance {before after : Scene QuietRole Unit} (keepsTime : KeepsTime before)
    (turns : ReflTransGen Turn before after) :
    Leads .recounting before.world.store after.world.store ∧ KeepsTime after := by
  induction turns with
  | refl => exact ⟨.refl, keepsTime⟩
  | tail _ next ih =>
      obtain ⟨leads, kept⟩ := ih.2.step next
      exact ⟨ih.1.trans leads, kept⟩

theorem turns {before after : Scene QuietRole Unit} (keepsTime : KeepsTime before)
    (turns : ReflTransGen Turn before after) : KeepsTime after := (keepsTime.advance turns).2

end KeepsTime

/-- The live timers of a run whose history is orderly are, one each, those that its history calls
for while it is open, and a timer for the workflow fires when the workflow asked for it. -/
theorem timers_mirrorHistory {start : World} (hempty : start.store = .empty)
    {scene : Scene QuietRole Unit} (turns : ReflTransGen Turn (.opening start) scene) {ref : RunRef}
    (orderly : ∀ record, scene.world.store.runs.find? ref = some record → Orderly record.events) :
    ((scene.world.store.timers.timersOf ref).map Timer.purpose).Nodup ∧
    (∀ purpose, purpose ∈ (scene.world.store.timers.timersOf ref).map Timer.purpose ↔
      ∃ record, scene.world.store.runs.find? ref = some record ∧ record.isClosed = false ∧
        (Ledger.ofHistory record.events).Awaits record.run.options purpose) ∧
    ∀ timer ∈ scene.world.store.timers.timersOf ref, ∀ timerId,
      timer.purpose = .workflowTimer timerId → ∃ record duration,
        scene.world.store.runs.find? ref = some record ∧
        Event.timerStarted timerId timer.fireAt duration ∈ record.events.map HistoryEvent.event := by
  have keeps := ((KeepsTime.opening hempty).turns turns).timers
  have mirrors := keeps.mirrors ref
  have hopens : ∀ purpose, purpose ∈ (scene.world.store.timers.timersOf ref).map Timer.purpose →
      ∃ record, scene.world.store.runs.find? ref = some record ∧ record.isClosed = false := by
    intro purpose hmem
    by_contra hnone
    apply mirrors.idle _ purpose (TimerQueue.mem_purposes.1 hmem)
    intro record hrecord
    by_contra hopen
    exact hnone ⟨record, hrecord, by simpa using hopen⟩
  refine ⟨keeps.timers.purposes_nodup ref, ?_, ?_⟩
  · intro purpose
    constructor
    · intro hmem
      obtain ⟨record, hrecord, hopen⟩ := hopens purpose hmem
      refine ⟨record, hrecord, hopen, ?_⟩
      exact (mirrors.awaits record hrecord hopen (orderly record hrecord) purpose List.not_mem_nil).1
        (TimerQueue.mem_purposes.1 hmem)
    · rintro ⟨record, hrecord, hopen, hawaits⟩
      apply TimerQueue.mem_purposes.2
      exact (mirrors.awaits record hrecord hopen (orderly record hrecord) purpose List.not_mem_nil).2
        hawaits
  · intro timer hmem timerId hpurpose
    obtain ⟨record, hrecord, -⟩ := hopens timer.purpose (List.mem_map_of_mem hmem)
    obtain ⟨hlive, hrun⟩ := List.mem_filter.1 hmem
    have called := mirrors.called record hrecord timer hlive (by simpa using hrun)
    obtain ⟨duration, hrecorded⟩ := called.recorded timerId hpurpose
    exact ⟨record, duration, hrecord, hrecorded⟩

def errandStart : QuietRole := ⟨Role.errandStart, rfl⟩

def errandTask : QuietRole := ⟨Role.errandTask, rfl⟩

def errandClock : TimerService := ⟨Role.errandEngine, .standard⟩

/-- What becomes of an errand whose delivery nobody has picked up in time. -/
def missedDelivery : List Event :=
  [.workflowStarted "errand" .null "default" 1 none .standard,
    .timerStarted "reminder" (Instant.after ⟨0, 0⟩ (.ofSeconds 60)) (.ofSeconds 60),
    .activityScheduled "delivery" "deliver" .null "default" Samples.errandOptions,
    .activityTimedOut "delivery" 1 .scheduleToStart false false]

theorem missedDelivery_orderly {history : List HistoryEvent}
    (hevents : history.map HistoryEvent.event = missedDelivery) : Orderly history := by
  refine .of_uncancelled hevents (fun activityId => ?_) (by simp [missedDelivery])
    (by simp [missedDelivery])
  simp only [missedDelivery, List.countP_cons, List.countP_nil, Event.schedules]
  by_cases hactivity : "delivery" = activityId <;> simp [hactivity]

/-- Nobody has picked up the delivery in time, and only the reminder is left. -/
theorem errand_mirrorsHistory :
    ∃ (scene : Scene QuietRole Unit) (record : RunRecord),
      ReflTransGen Turn (.opening Operation.blankWorld) scene ∧
      scene.world.store.runs.find? Operation.sampleRun = some record ∧ record.isClosed = false ∧
      Orderly record.events ∧
      (scene.world.store.timers.timersOf Operation.sampleRun).map Timer.purpose =
        [.workflowTimer "reminder"] ∧
      ∀ purpose, (Ledger.ofHistory record.events).Awaits record.run.options purpose ↔
        purpose = .workflowTimer "reminder" := by
  obtain ⟨scene, record, turns, hfind, hopen, hevents, hpurposes⟩ :
      ∃ (scene : Scene QuietRole Unit) (record : RunRecord),
        ReflTransGen Turn (.opening Operation.blankWorld) scene ∧
        scene.world.store.runs.find? Operation.sampleRun = some record ∧ record.isClosed = false ∧
        record.events.map HistoryEvent.event = missedDelivery ∧
        (scene.world.store.timers.timersOf Operation.sampleRun).map Timer.purpose =
          [.workflowTimer "reminder"] := by
    have entered : Scene.Reaches program (.opening Operation.blankWorld)
        ⟨Operation.blankWorld, [⟨_, program errandStart⟩, ⟨_, program errandTask⟩], []⟩ :=
      (ReflTransGen.single (.enter _)).tail (.enter _)
    have started := (entered.act 0 rfl rfl).act 0 rfl rfl
    have decided := (((started.act 1 rfl rfl).act 1 rfl rfl).act 1 rfl rfl).act 1 rfl rfl
    have late := decided.tail (.tick (some ⟨45, 0⟩))
    exact ⟨_, _, (late.lift id fun _ _ step => Turn.step step).tail (.fire errandClock), rfl, rfl,
      rfl, rfl⟩
  have orderly := missedDelivery_orderly hevents
  obtain ⟨-, hall, -⟩ := @timers_mirrorHistory _ rfl _ turns Operation.sampleRun
    fun other hother => by
      rw [hfind, Option.some.injEq] at hother
      exact hother ▸ orderly
  refine ⟨scene, record, turns, hfind, hopen, orderly, hpurposes, ?_⟩
  intro purpose
  rw [← List.mem_singleton, ← hpurposes, hall]
  constructor
  · exact fun hawaits => ⟨record, hfind, hopen, hawaits⟩
  · rintro ⟨other, hother, -, hawaits⟩
    rw [hfind, Option.some.injEq] at hother
    exact hother ▸ hawaits

end QuietRole

end Chronicle
