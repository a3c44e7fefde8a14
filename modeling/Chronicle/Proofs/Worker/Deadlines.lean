import Mathlib.Data.List.Infix
import Chronicle.Proofs.Engine.Deadlines
import Chronicle.Proofs.Worker.Punctuality
import Chronicle.Samples.Workflows

/-!
# Conditions time out

However engines, workers and timer services are interleaved, whoever waits for a condition with a
timeout has a live timer, and the timer goes only when it has fired.
-/

namespace Chronicle

open HandlerCall
open Relation (ReflTransGen)

namespace QuietRole

variable {start : World} {scene : Scene QuietRole Unit} {ref : RunRef} {record : RunRecord}
  {timerId : String}

theorem KeepsTime.live {scene : Scene QuietRole Unit} (keepsTime : KeepsTime scene)
    (hfind : scene.world.store.runs.find? ref = some record) (hopen : record.isClosed = false)
    (huncancelled : Event.timerCancelled timerId ∉ record.events.map HistoryEvent.event) :
    (ref, .workflowTimer timerId) ∈ scene.world.store.timers.keys ↔
      (Ledger.ofHistory record.events).isTimerPending timerId = true :=
  (keepsTime.timers.mirrors ref).live record hfind hopen (.workflowTimer timerId)
    (.of_uncancelled huncancelled) List.not_mem_nil

theorem wellFormed_of_turns (hempty : start.store = .empty)
    (turns : ReflTransGen Turn (.opening start) scene) : scene.world.store.runs.WellFormed := by
  have leads := ((KeepsTime.opening hempty).advance turns).1
  have hfirst : (Scene.opening start : Scene QuietRole Unit).world.store.runs.WellFormed := by
    rw [Scene.opening, hempty]
    exact .empty
  refine hfirst.steps ?_ (fun _ h => h) leads.runs
  rintro record commit ⟨run, -, writes⟩
  exact writes.tidy

/-- Whoever waits for a condition is told of it once.  As long as the wait has a deadline the store
has a timer for it, unless that has fired; and if it fires, the workflow is told at once. -/
theorem conditions_timeOut (hempty : start.store = .empty)
    (turns : ReflTransGen Turn (.opening start) scene)
    (hfind : scene.world.store.runs.find? ref = some record) {limit : Nat}
    {registry : WorkflowRegistry} {outcome : ReplayOutcome}
    (h : replay limit registry ref record.events = .ok outcome) (conditionId : String) :
    (∃ workflowType attempt turns,
      Replay.KeepsDeadlines ⟨ref, workflowType, attempt, Replay.horizon record.events⟩ record.events
        outcome turns conditionId) ∧
    (record.isClosed = false → outcome.HasDeadline record.events conditionId →
      (∃ timer ∈ scene.world.store.timers.timersOf ref,
        timer.purpose = .workflowTimer (Command.conditionTimer conditionId) ∧
        ∃ duration, Event.timerStarted (Command.conditionTimer conditionId) timer.fireAt duration ∈
          record.events.map HistoryEvent.event) ∧
      ∀ later, ReflTransGen Turn scene later → ∃ next more,
        later.world.store.runs.find? ref = some next ∧ next.events = record.events ++ more ∧
        (next.isClosed = false →
          Event.timerCancelled (Command.conditionTimer conditionId) ∉
            more.map HistoryEvent.event →
          (∀ timer ∈ later.world.store.timers.timersOf ref,
            timer.purpose ≠ .workflowTimer (Command.conditionTimer conditionId)) →
          Event.timerFired (Command.conditionTimer conditionId) ∈
            more.map HistoryEvent.event)) := by
  have keepsTime := (KeepsTime.opening hempty).turns turns
  obtain ⟨workflowType, attempt, calls, keeps⟩ := Replay.replay_keepsDeadlines h conditionId
  refine ⟨⟨workflowType, attempt, calls, keeps⟩, fun hopen deadline => ?_⟩
  have wellFormed := wellFormed_of_turns hempty turns
  have hpending := keeps.pending ((wellFormed ref record hfind).plain hopen) deadline
  constructor
  · have hlive := (keepsTime.live hfind hopen deadline.uncancelled).2 hpending
    obtain ⟨timer, hmem, hpurpose⟩ := List.mem_map.1 (TimerQueue.mem_purposes.2 hlive)
    obtain ⟨hthere, hrun⟩ := List.mem_filter.1 hmem
    have hown : timer.run = ref := by simpa using hrun
    have called := (keepsTime.timers.mirrors ref).called record hfind timer hthere hown
    exact ⟨timer, hmem, hpurpose, called.recorded _ hpurpose⟩
  · intro later hlater
    obtain ⟨leads, kept⟩ := keepsTime.advance hlater
    obtain ⟨next, hnext, continues⟩ := RunTable.continues_of_steps leads.runs hfind
    obtain ⟨more, hmore⟩ := continues.grows
    refine ⟨next, more, hnext, hmore.symm, fun hstill huncancelled hnone => ?_⟩
    have hall : Event.timerCancelled (Command.conditionTimer conditionId) ∉
        next.events.map HistoryEvent.event := by
      rw [← hmore, List.map_append, List.mem_append, not_or]
      exact ⟨deadline.uncancelled, huncancelled⟩
    apply Ledger.fired_of_gone hpending _ huncancelled
    rw [hmore, ← Bool.not_eq_true, ← kept.live hnext hstill hall, ← TimerQueue.mem_purposes,
      List.mem_map]
    rintro ⟨timer, hmem, hpurpose⟩
    exact hnone timer hmem hpurpose

/-! ## A vigil -/

def vigilEngine : Engine := ⟨⟨[Samples.vigil]⟩, .standard⟩

def vigilStart : QuietRole :=
  ⟨.operate (.start (.first Operation.sampleRun "vigil" "default" .null .standard)) rfl, rfl⟩

def vigilTask : QuietRole := ⟨.operate (.processTask vigilEngine Operation.sampleRun) rfl, rfl⟩

def vigilBell : QuietRole :=
  ⟨.operate (.signal vigilEngine Operation.sampleRun ⟨"bell", .null, ⟨0, 0⟩⟩) rfl, rfl⟩

def vigilRoles : List QuietRole := [vigilStart, vigilTask, vigilBell, vigilTask]

def vigilClock : TimerService := ⟨vigilEngine, .standard⟩

def rungTimer : String := Command.conditionTimer "rung"

def vigilReplay (record : RunRecord) : Except ReplayStop ReplayOutcome :=
  replay 10 vigilEngine.registry Operation.sampleRun record.events

/-- The vigil waits for the bell. -/
def vigilHistory : List HistoryEvent :=
  [.ofEvent 1 ⟨0, 0⟩ (.workflowStarted "vigil" .null "default" 1 none .standard),
    .ofEvent 2 ⟨0, 0⟩
      (.timerStarted rungTimer (Instant.after ⟨0, 0⟩ (.ofSeconds 60)) (.ofSeconds 60))]

/-- The bell has rung, and the vigil waits for it again. -/
def rungHistory : List HistoryEvent :=
  vigilHistory ++ [.ofEvent 3 ⟨0, 0⟩ (.signalReceived ⟨"bell", .null, ⟨0, 0⟩⟩),
    .ofEvent 4 ⟨0, 0⟩ (.timerCancelled rungTimer),
    .ofEvent 5 ⟨0, 0⟩
      (.timerStarted rungTimer (Instant.after ⟨0, 0⟩ (.ofSeconds 60)) (.ofSeconds 60))]

def vigilCall (eventId : Nat) (stimulus : Stimulus) (commands : List Command) : HandlerCall :=
  ⟨⟨Operation.sampleRun, "vigil", 1, eventId, ⟨0, 0⟩, true⟩, stimulus, .ok commands, 0⟩

def vigilCalls : List HandlerCall :=
  [vigilCall 1 .started [.awaitSignal "bell", Samples.rungWithinMinute]]

def rungCalls : List HandlerCall :=
  vigilCalls ++ [vigilCall 3 (.signalled ⟨"bell", .null, ⟨0, 0⟩⟩) [],
    vigilCall 3 (.conditionResolved "rung" .satisfied) [Samples.rungWithinMinute]]

def vigilOutcome (lastEventId : Nat) (calls : List HandlerCall) : ReplayOutcome :=
  ⟨Samples.vigil, false, [], false, lastEventId, calls⟩

theorem alone_of_inits {calls : List HandlerCall}
    (h : ∀ initial ∈ calls.inits, registrations "rung" initial ≤ resolutions "rung" initial + 1) :
    ∀ initial, initial <+: calls →
      registrations "rung" initial ≤ resolutions "rung" initial + 1 :=
  fun initial hinit => h initial ((List.mem_inits _ _).2 hinit)

theorem vigil_hasDeadline : (vigilOutcome 2 vigilCalls).HasDeadline vigilHistory "rung" where
  active := by decide
  ongoing := rfl
  recorded := fun _ hmem => nomatch hmem
  alone := alone_of_inits (by decide)
  uncancelled := by decide

def minuteLater (scene : Scene QuietRole Unit) : Scene QuietRole Unit :=
  { scene with world := { scene.world with now := some ⟨60, 0⟩ } }

theorem turns_minute (scene : Scene QuietRole Unit) :
    ReflTransGen Turn scene { minuteLater scene with
      world := (vigilClock.fireDue.run World.answer (minuteLater scene).world).2 } :=
  have ticked : Turn scene (minuteLater scene) := .step (.tick (some ⟨60, 0⟩))
  (ReflTransGen.single ticked).tail (.fire vigilClock)

/-- Nobody rings the bell for a minute. -/
theorem vigil_timesOut :
    ∃ (scene : Scene QuietRole Unit) (record : RunRecord) (outcome : ReplayOutcome),
      ReflTransGen Turn (.opening Operation.blankWorld) scene ∧
      scene.world.store.runs.find? Operation.sampleRun = some record ∧ record.isClosed = false ∧
      vigilReplay record = .ok outcome ∧ outcome.HasDeadline record.events "rung" ∧
      (∃ timer ∈ scene.world.store.timers.timersOf Operation.sampleRun,
        timer.purpose = .workflowTimer rungTimer) ∧
      ∃ (later : Scene QuietRole Unit) (next : RunRecord) (final : ReplayOutcome),
        ReflTransGen Turn scene later ∧
        later.world.store.runs.find? Operation.sampleRun = some next ∧
        Event.timerFired rungTimer ∈ next.events.map HistoryEvent.event ∧
        vigilReplay next = .ok final ∧ final.calls.map HandlerCall.stimulus =
          [.started, .conditionResolved "rung" .timedOut] := by
  obtain ⟨scene, record, turns, hfind, hopen, hevents, later, next, late, hnext, hstill, hlater,
      hgone⟩ : ∃ (scene : Scene QuietRole Unit) (record : RunRecord),
      ReflTransGen Turn (.opening Operation.blankWorld) scene ∧
      scene.world.store.runs.find? Operation.sampleRun = some record ∧ record.isClosed = false ∧
      record.events = vigilHistory ∧ ∃ (later : Scene QuietRole Unit) (next : RunRecord),
      ReflTransGen Turn scene later ∧
      later.world.store.runs.find? Operation.sampleRun = some next ∧ next.isClosed = false ∧
      next.events = vigilHistory ++ [.ofEvent 3 ⟨60, 0⟩ (.timerFired rungTimer)] ∧
      later.world.store.timers.timersOf Operation.sampleRun = [] := by
    have entered := Scene.reaches_entered program Operation.blankWorld vigilRoles
    have started := (entered.act 0 rfl rfl).act 0 rfl rfl
    have decided := (((started.act 1 rfl rfl).act 1 rfl rfl).act 1 rfl rfl).act 1 rfl rfl
    exact ⟨_, _, decided.lift id fun _ _ step => Turn.step step, rfl, rfl, rfl,
      _, _, turns_minute _, rfl, rfl, rfl, rfl⟩
  have hreplay : vigilReplay record = .ok (vigilOutcome 2 vigilCalls) := by
    rw [vigilReplay, hevents]
    rfl
  have deadline : (vigilOutcome 2 vigilCalls).HasDeadline record.events "rung" :=
    hevents ▸ vigil_hasDeadline
  obtain ⟨-, htimer⟩ := conditions_timeOut rfl turns hfind hreplay "rung"
  obtain ⟨⟨timer, hmem, hpurpose, -⟩, hfires⟩ := htimer hopen deadline
  obtain ⟨same, more, hsame, hmore, hfired⟩ := hfires later late
  rw [hnext, Option.some.injEq] at hsame
  subst hsame
  have hmore : more = [.ofEvent 3 ⟨60, 0⟩ (.timerFired rungTimer)] := by
    rw [hevents, hlater, List.append_cancel_left_eq] at hmore
    exact hmore.symm
  have hfinal : ∃ final, vigilReplay next = .ok final ∧ final.calls.map HandlerCall.stimulus =
      [.started, .conditionResolved "rung" .timedOut] := by
    rw [vigilReplay, hlater]
    exact ⟨_, rfl, rfl⟩
  obtain ⟨final, hreplayed, hcalls⟩ := hfinal
  refine ⟨scene, record, _, turns, hfind, hopen, hreplay, deadline, ⟨timer, hmem, hpurpose⟩,
    later, next, final, late, hnext, ?_, hreplayed, hcalls⟩
  have hnews := hfired hstill (by rw [hmore]; decide) (by simp [hgone])
  rw [hlater, ← hmore, List.map_append]
  exact List.mem_append_right _ hnews

/-- The vigil waits for the bell once more, and has no timer for that: the cancellation of the first
one comes after the start of the second. -/
theorem vigil_endless :
    ∃ (scene : Scene QuietRole Unit) (record : RunRecord) (outcome : ReplayOutcome),
      ReflTransGen Turn (.opening Operation.blankWorld) scene ∧
      scene.world.store.runs.find? Operation.sampleRun = some record ∧ record.isClosed = false ∧
      record.events = rungHistory ∧ vigilReplay record = .ok outcome ∧
      waits outcome.calls = [⟨"rung", true⟩] ∧ outcome.newCommands = [] ∧
      (∀ calls, calls <+: outcome.calls →
        registrations "rung" calls ≤ resolutions "rung" calls + 1) ∧
      scene.world.store.timers.timersOf Operation.sampleRun = [] := by
  obtain ⟨scene, record, turns, hfind, hopen, hevents, hnone⟩ :
      ∃ (scene : Scene QuietRole Unit) (record : RunRecord),
      ReflTransGen Turn (.opening Operation.blankWorld) scene ∧
      scene.world.store.runs.find? Operation.sampleRun = some record ∧ record.isClosed = false ∧
      record.events = rungHistory ∧
      scene.world.store.timers.timersOf Operation.sampleRun = [] := by
    have entered := Scene.reaches_entered program Operation.blankWorld vigilRoles
    have started := (entered.act 0 rfl rfl).act 0 rfl rfl
    have decided := (((started.act 1 rfl rfl).act 1 rfl rfl).act 1 rfl rfl).act 1 rfl rfl
    have rung := ((decided.act 2 rfl rfl).act 2 rfl rfl).act 2 rfl rfl
    have again := (((rung.act 3 rfl rfl).act 3 rfl rfl).act 3 rfl rfl).act 3 rfl rfl
    exact ⟨_, _, again.lift id fun _ _ step => Turn.step step, rfl, rfl, rfl, rfl⟩
  refine ⟨scene, record, vigilOutcome 5 rungCalls, turns, hfind, hopen, hevents, ?_, rfl, rfl,
    alone_of_inits (by decide), hnone⟩
  rw [vigilReplay, hevents]
  rfl

end QuietRole

end Chronicle
