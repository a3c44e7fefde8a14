import Chronicle.Proofs.Engine.Sweeping
import Chronicle.Proofs.Worker.Punctuality
import Chronicle.Proofs.Worker.Ticking

/-!
# Batches of any size

Two timer services that fire what is due until nothing is leave the same behind, whatever the sizes of
their batches, if the timers are untangled.  They always are unless a timer service was interrupted
and has put a timer back that is not needed any more.
-/

namespace Chronicle

open Relation (ReflTransGen)

universe u

namespace QuietRole

theorem Turn.timers_sound {before after : Scene QuietRole Unit} (turn : Turn before after)
    (sound : before.world.store.timers.Sound) : after.world.store.timers.Sound := by
  cases turn with
  | step step => exact step.timers_sound sound
  | fire service => exact service.fireDue.timers_sound sound

theorem timers_sound {start : World} (hempty : start.store = .empty) {scene : Scene QuietRole Unit}
    (turns : ReflTransGen Turn (.opening start) scene) : scene.world.store.timers.Sound := by
  induction turns with
  | refl =>
      rw [Scene.opening, hempty]
      exact .empty
  | tail _ turn ih => exact turn.timers_sound ih

/-- While timer services are not interrupted, an activity has a deadline only for its current
attempt, and only while no worker is awaited. -/
theorem untangled {start : World} (hempty : start.store = .empty) {scene : Scene QuietRole Unit}
    (turns : ReflTransGen Turn (.opening start) scene)
    (orderly : ∀ ref record, scene.world.store.runs.find? ref = some record → ∀ activityId,
      SchedulesOnce activityId record.events ∧ CancelsAfterwards activityId record.events)
    (now : Instant) : scene.world.store.Untangled now := by
  have keeps := ((KeepsTime.opening hempty).turns turns).timers
  intro ref record hfind hopen activityId state hstate _ attempt purpose hpurpose hdue
  have hawaits : ∀ purpose, purpose.activityId? = some activityId →
      scene.world.store.timers.IsDue now ref purpose →
        (Ledger.ofHistory record.events).Awaits record.run.options purpose := by
    rintro purpose hactivity ⟨timer, hmem, hkey, -⟩
    have hlive : (ref, purpose) ∈ scene.world.store.timers.keys := hkey ▸ List.mem_map_of_mem hmem
    exact ((keeps.mirrors ref).live record hfind hopen purpose
      (.of_activities (orderly ref record hfind) hactivity) List.not_mem_nil).1 hlive
  have hcurrent : state.started = true ∧ attempt = state.attempt := by
    rcases AttemptOutcome.mem_attemptTimers.1 hpurpose with rfl | rfl
    · obtain ⟨known, hknown, -, hstarted, hattempt⟩ := hawaits _ rfl hdue
      rw [hstate, Option.some.injEq] at hknown
      exact hknown ▸ ⟨hstarted, hattempt.symm⟩
    · obtain ⟨known, hknown, -, hstarted, hattempt, -⟩ := hawaits _ rfl hdue
      rw [hstate, Option.some.injEq] at hknown
      exact hknown ▸ ⟨hstarted, hattempt.symm⟩
  refine ⟨Nat.le_of_eq hcurrent.2, fun hpickup => ?_⟩
  obtain ⟨known, hknown, -, hwaits, -⟩ := hawaits _ rfl hpickup
  rw [hstate, Option.some.injEq] at hknown
  rw [← hknown, hcurrent.1] at hwaits
  cases hwaits

end QuietRole

namespace TimerService

/-- Whatever any programs have done to a store, batches of any sizes come to the same end if the
timers are untangled, and so they are if engines, clients and workers have worked on the store while
timer services were not interrupted, and no run has scheduled an activity twice, or cancelled one
before. -/
theorem batches_alike {ι : Type u} {ρ : Type} {begins : ι → Program ρ} {start : World}
    (hempty : start.store = .empty) {first second : TimerService}
    (hfirst : first.config.batchSize ≠ 0) (hsecond : second.config.batchSize ≠ 0) (now : Instant) :
    (∀ scene : Scene ι ρ, Scene.Reaches begins (.opening start) scene →
      scene.world.now = some now → scene.world.store.Untangled now →
      ∀ limit, 2 * scene.world.store.timers.count < limit →
        SweepsAlike first second scene.world limit) ∧
    ∀ scene : Scene QuietRole Unit, ReflTransGen QuietRole.Turn (.opening start) scene →
      scene.world.now = some now →
      (∀ ref record, scene.world.store.runs.find? ref = some record → ∀ activityId,
        SchedulesOnce activityId record.events ∧ CancelsAfterwards activityId record.events) →
      ∀ limit, 2 * scene.world.store.timers.count < limit →
        SweepsAlike first second scene.world limit := by
  constructor
  · intro scene reaches hnow untangled limit hlimit
    have hweight := scene.world.store.timers.weight_le
    exact sweepsAlike hnow hfirst hsecond (reaches.timers_sound_of_empty hempty) untangled (by omega)
  · intro scene turns hnow orderly limit hlimit
    have hweight := scene.world.store.timers.weight_le
    exact sweepsAlike hnow hfirst hsecond (QuietRole.timers_sound hempty turns)
      (QuietRole.untangled hempty turns orderly now) (by omega)

/-- A timer service that nobody may come before.  A timer that it cannot fire it tries again after
ten minutes. -/
def tardyClock (size : Nat) : TimerService :=
  ⟨⟨Role.errandEngine.registry, { EngineLimits.standard with maxConflictRetries := 0 }⟩,
    { TimerConfig.standard with batchSize := size, retryDelay := .ofSeconds 600 }⟩

/-- An errand whose delivery a courier has begun. -/
def begunDelivery : List Event :=
  [.workflowStarted "errand" .null "default" 1 none .standard,
    .timerStarted "reminder" (Instant.after ⟨0, 0⟩ (.ofSeconds 60)) (.ofSeconds 60),
    .activityScheduled "delivery" "deliver" .null "default" Samples.errandOptions,
    .activityStarted "delivery" 1 "courier"]

/-- The reminder comes, and another courier is to try once the first one has taken too long. -/
def retriedDelivery : List Event :=
  begunDelivery ++ [.timerFired "reminder", .activityTimedOut "delivery" 1 .startToClose true false]

theorem begunDelivery_orderly {runs : RunTable}
    (hevents : runs.records.map (fun record => record.events.map HistoryEvent.event) =
      [begunDelivery]) (ref : RunRef) (record : RunRecord) (hfind : runs.find? ref = some record) :
    Orderly record.events := by
  have hmem := List.mem_map_of_mem (List.mem_of_find?_eq_some hfind)
    (f := fun record => record.events.map HistoryEvent.event)
  rw [hevents, List.mem_singleton] at hmem
  refine .of_uncancelled hmem (fun activityId => ?_) (by simp [begunDelivery])
    (by simp [begunDelivery])
  simp only [begunDelivery, List.countP_cons, List.countP_nil, Event.schedules]
  by_cases hactivity : "delivery" = activityId <;> simp [hactivity]

/-- A courier has taken over and is not heard of any more. -/
theorem begunDelivery_alike :
    ∃ scene : Scene QuietRole Unit,
      Scene.Reaches QuietRole.program (.opening Operation.blankWorld) scene ∧
      scene.world.now = some ⟨630, 0⟩ ∧
      scene.world.store.timers.timers.map Timer.purpose =
        [.workflowTimer "reminder", .activityAttempt "delivery" 1] ∧
      SweepsAlike (tardyClock 1) (tardyClock 3) scene.world 9 ∧
      SweepsAlike (tardyClock 1) (tardyClock 2) scene.world 9 := by
  have entered := Scene.reaches_entered QuietRole.program Operation.blankWorld
    [QuietRole.errandStart, QuietRole.errandTask, ⟨Role.delivery, rfl⟩]
  have started := (entered.act 0 rfl rfl).act 0 rfl rfl
  have decided := (((started.act 1 rfl rfl).act 1 rfl rfl).act 1 rfl rfl).act 1 rfl rfl
  have claimed := ((decided.tick (some ⟨30, 0⟩)).act 2 rfl rfl).act 2 rfl rfl
  have begun := (((claimed.act 2 rfl rfl).act 2 rfl rfl).act 2 rfl rfl).act 2 rfl rfl
  have overdue := begun.tick (some ⟨630, 0⟩)
  -- All that matters of the scene, so that nothing below looks into its world.
  obtain ⟨scene, reaches, hnow, hpurposes, hevents, hcount⟩ : ∃ scene : Scene QuietRole Unit,
      Scene.Reaches QuietRole.program (.opening Operation.blankWorld) scene ∧
      scene.world.now = some ⟨630, 0⟩ ∧
      scene.world.store.timers.timers.map Timer.purpose =
        [.workflowTimer "reminder", .activityAttempt "delivery" 1] ∧
      scene.world.store.runs.records.map (fun record => record.events.map HistoryEvent.event) =
        [begunDelivery] ∧
      2 * scene.world.store.timers.count < 9 :=
    ⟨_, overdue, rfl, by rfl, by rfl, by decide +kernel⟩
  have turns := reaches.lift id fun _ _ step => QuietRole.Turn.step step
  have orderly : ∀ ref record, scene.world.store.runs.find? ref = some record → ∀ activityId,
      SchedulesOnce activityId record.events ∧ CancelsAfterwards activityId record.events := by
    intro ref record hfind activityId
    have orderly := begunDelivery_orderly hevents ref record hfind
    exact ⟨orderly.once activityId, orderly.cancels activityId⟩
  have untangled := QuietRole.untangled rfl turns orderly ⟨630, 0⟩
  obtain ⟨alike, -⟩ := @batches_alike QuietRole Unit QuietRole.program Operation.blankWorld rfl
    (tardyClock 1) (tardyClock 3) (by decide) (by decide) ⟨630, 0⟩
  obtain ⟨-, alike'⟩ := @batches_alike QuietRole Unit QuietRole.program Operation.blankWorld rfl
    (tardyClock 1) (tardyClock 2) (by decide) (by decide) ⟨630, 0⟩
  exact ⟨scene, reaches, hnow, hpurposes, alike scene reaches hnow untangled 9 hcount,
    alike' scene turns hnow orderly 9 hcount⟩

/-- A timer service comes to a delivery that nobody seems to have begun, and is too late: a courier
has.  It puts the timer back, which ends the wait for another courier before it has begun, unless the
timer is lost before. -/
theorem lateReturn_differs :
    ∃ (scene : Scene Role Unit) (one other : Store),
      Scene.Reaches Role.program (.opening Operation.blankWorld) scene ∧
      scene.world.now = some ⟨630, 0⟩ ∧
      (∀ ref record, scene.world.store.runs.find? ref = some record → Orderly record.events) ∧
      ((tardyClock 1).sweep 9 9).run World.answer scene.world =
        (.ok (.ok ()), { scene.world with store := one }) ∧
      ((tardyClock 3).sweep 9 9).run World.answer scene.world =
        (.ok (.ok ()), { scene.world with store := other }) ∧
      one.runs.records.map (fun record => record.events.map HistoryEvent.event) =
        [retriedDelivery] ∧
      other.runs.records.map (fun record => record.events.map HistoryEvent.event) =
        [retriedDelivery ++ [.activityTimedOut "delivery" 2 .scheduleToStart false false]] := by
  have entered := Scene.reaches_entered Role.program Operation.blankWorld [Role.errandStart,
    Role.errandTask, Role.delivery, .operate (.fireDue (tardyClock 1)) rfl]
  have started := (entered.act 0 rfl rfl).act 0 rfl rfl
  have decided := (((started.act 1 rfl rfl).act 1 rfl rfl).act 1 rfl rfl).act 1 rfl rfl
  have late := decided.tick (some ⟨30, 0⟩)
  have looking := (((late.act 3 rfl rfl).act 3 rfl rfl).act 3 rfl rfl).act 3 rfl rfl
  have claimed := (looking.act 2 rfl rfl).act 2 rfl rfl
  have begun := (((claimed.act 2 rfl rfl).act 2 rfl rfl).act 2 rfl rfl).act 2 rfl rfl
  have back := ((begun.act 3 rfl rfl).act 3 rfl rfl).act 3 rfl rfl
  have overdue := back.tick (some ⟨630, 0⟩)
  obtain ⟨scene, reaches, hnow, hevents, hcount, hfirst, hsecond⟩ : ∃ scene : Scene Role Unit,
      Scene.Reaches Role.program (.opening Operation.blankWorld) scene ∧
      scene.world.now = some ⟨630, 0⟩ ∧
      scene.world.store.runs.records.map (fun record => record.events.map HistoryEvent.event) =
        [begunDelivery] ∧
      2 * scene.world.store.timers.count < 9 ∧
      (((tardyClock 1).sweep 9 9).run World.answer scene.world).2.store.runs.records.map
        (fun record => record.events.map HistoryEvent.event) = [retriedDelivery] ∧
      (((tardyClock 3).sweep 9 9).run World.answer scene.world).2.store.runs.records.map
        (fun record => record.events.map HistoryEvent.event) =
        [retriedDelivery ++ [.activityTimedOut "delivery" 2 .scheduleToStart false false]] :=
    ⟨_, overdue, rfl, by rfl, by decide +kernel, by decide +kernel, by decide +kernel⟩
  have sound := reaches.timers_sound_of_empty rfl
  have hweight := scene.world.store.timers.weight_le
  have hlimit : scene.world.store.timers.weight < 9 := by omega
  obtain ⟨one, hone, -⟩ := @sweep_run (tardyClock 1) _ _ 9 hnow (by decide) sound hlimit 9 hlimit
  obtain ⟨other, hother, -⟩ := @sweep_run (tardyClock 3) _ _ 9 hnow (by decide) sound hlimit 9 hlimit
  rw [hone] at hfirst
  rw [hother] at hsecond
  exact ⟨scene, one, other, reaches, hnow, begunDelivery_orderly hevents, hone, hother, hfirst,
    hsecond⟩

end TimerService

end Chronicle
