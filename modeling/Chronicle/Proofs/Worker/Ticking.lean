import Chronicle.Proofs.Engine.Draining
import Chronicle.Proofs.Engine.HistoryLog
import Chronicle.Worker.Basic

/-!
# Timer services that make progress

Whatever programs have done to a store, a timer service with a period between its ticks and with
room for a timer in its batches fires what is due.  Environments and records can take away both.
-/

namespace Chronicle

universe u

/-! ## Timers in scenes -/

theorem World.timers_sound {request : Request} {world : World}
    (sound : world.store.timers.Sound) : (World.answer request world).2.store.timers.Sound :=
  sound.steps (World.keepsTimers_answer request world)

theorem Program.timers_sound {α : Type} (program : Program α) {world : World}
    (sound : world.store.timers.Sound) :
    (program.run World.answer world).2.store.timers.Sound := by
  induction program generalizing world with
  | done value => exact sound
  | crash cause => exact sound
  | ask request next ih =>
      have hanswered := @World.timers_sound request world sound
      rw [Program.run]
      split
      · rename_i answer after answered
        rw [answered] at hanswered
        exact ih answer hanswered
      · rename_i cause after answered
        rw [answered] at hanswered
        exact hanswered

theorem Scene.Step.timers_sound {ι : Type u} {ρ : Type} {begins : ι → Program ρ}
    {before after : Scene ι ρ} (step : Step begins before after)
    (sound : before.world.store.timers.Sound) : after.world.store.timers.Sound := by
  cases step with
  | enter label => exact sound
  | tick now => exact sound
  | @act index label request next answer world turn answered =>
      have hanswered := @World.timers_sound request before.world sound
      rwa [answered] at hanswered
  | @fall index label request next cause world turn answered =>
      have hanswered := @World.timers_sound request before.world sound
      rwa [answered] at hanswered

theorem Scene.Reaches.timers_sound {ι : Type u} {ρ : Type} {begins : ι → Program ρ}
    {before after : Scene ι ρ} (reaches : Reaches begins before after)
    (sound : before.world.store.timers.Sound) : after.world.store.timers.Sound := by
  induction reaches with
  | refl => exact sound
  | tail _ step ih => exact step.timers_sound ih

theorem Scene.Reaches.timers_sound_of_empty {ι : Type u} {ρ : Type} {begins : ι → Program ρ}
    {start : World} {scene : Scene ι ρ} (hempty : start.store = .empty)
    (reaches : Reaches begins (.opening start) scene) : scene.world.store.timers.Sound := by
  apply reaches.timers_sound
  rw [Scene.opening, hempty]
  exact .empty

/-! ## Configurations -/

namespace TimerConfig

/-- The configuration leaves a period between ticks and room in the batches. -/
def IsUsable (config : TimerConfig) : Prop :=
  config.tickInterval.isZero = false ∧ config.batchSize ≠ 0

/-- Only the number zero in one of two variables makes a configuration unusable. -/
theorem isUsable_ofEnvironment (environment : Environment) :
    (ofEnvironment environment).IsUsable ↔
      environment.word? "TIMER_TICK_INTERVAL_MS" ≠ some 0 ∧
        environment.word? "TIMER_BATCH_SIZE" ≠ some 0 := by
  have hticks : (ofEnvironment environment).tickInterval.isZero = false ↔
      environment.word? "TIMER_TICK_INTERVAL_MS" ≠ some 0 := by
    unfold ofEnvironment Span.isZero
    cases environment.word? "TIMER_TICK_INTERVAL_MS" with
    | none => simp [standard, Span.ofMillis]
    | some millis =>
        have hzero : millis * 1000000 = 0 ↔ millis = 0 := by omega
        simp [Span.ofMillis, hzero]
  have hroom : (ofEnvironment environment).batchSize ≠ 0 ↔
      environment.word? "TIMER_BATCH_SIZE" ≠ some 0 := by
    unfold ofEnvironment
    cases environment.word? "TIMER_BATCH_SIZE" with
    | none => simp [standard]
    | some size => simp
  exact and_congr hticks hroom

end TimerConfig

namespace Worker

/-- The timer service that the worker runs, if it runs one. -/
def timerService (worker : Worker) (catalogue : WorkflowRegistry) : TimerService :=
  ⟨worker.engine catalogue, worker.config.timer⟩

theorem ticker_mem_services (worker : Worker) : .ticker none ∈ worker.services ↔
    worker.config.runTimerService = true ∧ worker.config.timer.tickInterval.isZero = false := by
  unfold services tickerParts
  simp only [List.mem_append]
  constructor
  · rintro ((hloop | hloop) | hticker)
    all_goals split at *
    all_goals simp_all [taskLoop]
  · rintro ⟨hruns, hticks⟩
    exact .inr (by simp [hruns, hticks])

variable {ι : Type u} {ρ : Type} {begins : ι → Program ρ} {start : World} {scene : Scene ι ρ}
  {now : Instant}

/-- A worker with a usable configuration ticks and fires all that is due.  Without a period it does
not tick, and batches without room have no end. -/
theorem timers_progress (hempty : start.store = .empty)
    (reaches : Scene.Reaches begins (.opening start) scene) (hnow : scene.world.now = some now)
    (worker : Worker) (catalogue : WorkflowRegistry) :
    (.ticker none ∈ worker.services ↔
      worker.config.runTimerService = true ∧ worker.config.timer.tickInterval.isZero = false) ∧
    (worker.config.timer.batchSize ≠ 0 → ∀ limit, 2 * scene.world.store.timers.count < limit →
      (worker.timerService catalogue).Drains scene.world now limit) ∧
    (worker.config.timer.batchSize = 0 → ∀ limit,
      (((worker.timerService catalogue).drain limit 0).run World.answer scene.world).1 =
        .error .endless) ∧
    ∀ environment, worker.config.timer = .ofEnvironment environment →
      (worker.config.timer.IsUsable ↔
        environment.word? "TIMER_TICK_INTERVAL_MS" ≠ some 0 ∧
          environment.word? "TIMER_BATCH_SIZE" ≠ some 0) := by
  have sound := reaches.timers_sound_of_empty hempty
  refine ⟨worker.ticker_mem_services, fun hbatch limit hlimit => ?_, fun hbatch limit => ?_,
    fun environment henvironment => ?_⟩
  · have hweight := scene.world.store.timers.weight_le
    exact TimerService.drains hnow hbatch sound (by omega)
  · exact TimerService.drain_endless hnow hbatch limit 0
  · rw [henvironment]
    exact TimerConfig.isUsable_ofEnvironment environment

/-- A worker without workflows and activities, which only runs a timer service. -/
def keeper (timer : TimerConfig) : Worker :=
  { config := { WorkerConfig.standard "keeper" with timer := timer }
    limits := .standard
    workflows := []
    activities := ⟨[]⟩
    status := .stopped
    stopping := false
    ready := []
    idle := [] }

/-- A run that has one minute is a minute old, and its timer fires. -/
theorem overdue_drained :
    ∃ scene, Scene.Reaches Operation.program (.opening Operation.blankWorld) scene ∧
      (0, ⟨Operation.sampleRun, ⟨60, 0⟩, .runTimeout⟩) ∈ scene.world.store.timers.live ∧
      .ticker none ∈ (keeper .standard).services ∧
      ((keeper .standard).timerService .empty).Drains scene.world ⟨60, 0⟩ 3 := by
  have entered : Scene.Reaches Operation.program (.opening Operation.blankWorld)
      ⟨Operation.blankWorld, [⟨_, Operation.program (.start (.first Operation.sampleRun "bare"
        "default" .null { WorkflowOptions.standard with
          executionTimeout := some (.ofSeconds 60) }))⟩], []⟩ :=
    .single (.enter _)
  have started := (entered.act 0 rfl rfl).act 0 rfl rfl
  have waited := started.tick (some ⟨60, 0⟩)
  obtain ⟨hticks, hdrains, -, -⟩ := timers_progress rfl waited rfl (keeper .standard) .empty
  exact ⟨_, waited, by decide +kernel, hticks.2 ⟨rfl, rfl⟩, hdrains (by decide) 3 (by decide)⟩

/-- Zeros in the environment: one service never comes to an end, the other one never begins. -/
theorem zeros_idle :
    (keeper (.ofEnvironment [("TIMER_TICK_INTERVAL_MS", "0")])).config.runTimerService = true ∧
      .ticker none ∉ (keeper (.ofEnvironment [("TIMER_TICK_INTERVAL_MS", "0")])).services ∧
      ∀ limit, ((((keeper (.ofEnvironment [("TIMER_BATCH_SIZE", "0")])).timerService .empty).drain
        limit 0).run World.answer Operation.blankWorld).1 = .error .endless := by
  refine ⟨rfl, fun hmem => ?_, fun limit => ?_⟩
  · have hperiod := ((ticker_mem_services _).1 hmem).2
    exact absurd hperiod (by decide)
  · exact TimerService.drain_endless rfl (by decide) limit 0

end Worker

end Chronicle
