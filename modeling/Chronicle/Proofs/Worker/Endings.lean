import Chronicle.Proofs.Engine.Cancellations
import Chronicle.Proofs.Worker.Roles
import Chronicle.Samples.Workflows

/-!
# Ends reach workflow code

Whoever works on a store, the history of a run records the end of a timer or an activity only while
the ledger of that history waits for it.  A replay tells workflow code of every such end, unless a
record before it takes the timer or the activity back; a cancellation that is not recorded yet does
not keep an end away.
-/

namespace Chronicle

open HandlerCall Replay

namespace Event

theorem isAwaited_of_ends {policy : RetryPolicy} {activityId : String} {attempt : Nat}
    {history : List HistoryEvent} {state : ActivityState} {delay : Option Span} {event : Event}
    (attempted : AtAttempt history activityId attempt state)
    (ends : EndsAttempt policy activityId attempt delay event) :
    event.isAwaited (.ofHistory history) = true := by
  have hopen : (Ledger.ofHistory history).isAttemptOpen activityId attempt = true :=
    Ledger.isAttemptOpen_iff.2 ⟨state, attempted.known, attempted.isOpen, attempted.current⟩
  cases ends <;> exact hopen

/-- Timers fire, and attempts end, only while the ledger waits for them. -/
theorem isAwaited_guarded :
    Guarded fun history event => event.isAwaited (Ledger.ofHistory history) = true where
  begun := fun _ _ => Throughout.nil.concat rfl
  updated := by
    intro fires run history commit update
    cases update with
    | @reported event report =>
        refine ⟨event, rfl, ?_⟩
        cases event <;> simp_all [Event.isReport, Event.isAwaited]
    | @forced event closing ends =>
        refine ⟨event, rfl, ?_⟩
        cases event <;> simp_all [Event.closing?, Event.isAwaited]
    | started => exact ⟨_, rfl, rfl⟩
    | beat => exact ⟨_, rfl, rfl⟩
    | ended attempted picked ends => exact ⟨_, rfl, isAwaited_of_ends attempted ends⟩
    | retried now attempted picked ends => exact ⟨_, rfl, isAwaited_of_ends attempted ends⟩
    | fired allowed pending => exact ⟨_, rfl, pending⟩
    | missed allowed attempted waits =>
        exact ⟨_, rfl, Ledger.isAttemptOpen_iff.2
          ⟨_, attempted.known, attempted.isOpen, attempted.current⟩⟩
  decided := by
    intro history event h
    cases event <;> simp_all [Event.key?, Decision.isRejection, Event.isAwaited]
  announced := by
    intro history event h
    cases event <;> simp_all [Event.isAnnouncement, Event.isAwaited]

end Event

namespace Role

variable {start : World} {scene : Scene Role Unit} {ref : RunRef} {record : RunRecord}

theorem leads_of_reaches (hempty : start.store = .empty)
    (reaches : Scene.Reaches program (.opening start) scene) :
    Leads .lax .empty scene.world.store :=
  (Scene.moves_of_empty Rules.lax_lawful program_obeys
    (fun role => role.program_plays Rules.lax_lawful (fun _ _ => trivial) fun _ => trivial)
    hempty reaches).1

theorem wellFormed_of_reaches (hempty : start.store = .empty)
    (reaches : Scene.Reaches program (.opening start) scene) :
    scene.world.store.runs.WellFormed := by
  refine RunTable.WellFormed.empty.steps ?_ (fun _ h => h) (leads_of_reaches hempty reaches).runs
  rintro record commit ⟨run, -, writes⟩
  exact writes.tidy

/-- The ends that a run of the store has recorded, and how a replay tells of them. -/
theorem exists_tellsOfEnds (hempty : start.store = .empty)
    (reaches : Scene.Reaches program (.opening start) scene)
    (hfind : scene.world.store.runs.find? ref = some record) {limit : Nat}
    {registry : WorkflowRegistry} {outcome : ReplayOutcome}
    (h : replay limit registry ref record.events = .ok outcome) :
    Expects record.events ∧ upToClose record.events = record.events ∧
      ∃ workflowType attempt turns,
        TellsOfEnds ⟨ref, workflowType, attempt, horizon record.events⟩ record.events outcome
          turns :=
  ⟨Event.isAwaited_guarded.leads (leads_of_reaches hempty reaches) hfind,
    upToClose_of_inner (wellFormed_of_reaches hempty reaches ref record hfind).inner,
    replay_tellsOfEnds h⟩

/-- The history records an end only if the ledger waited for it.  Each end that nobody took back in a
record before it reaches workflow code with one call, unless the run is about to end by then; an end
that was taken back does not. -/
theorem ends_areTold (hempty : start.store = .empty)
    (reaches : Scene.Reaches program (.opening start) scene)
    (hfind : scene.world.store.runs.find? ref = some record) {limit : Nat}
    {registry : WorkflowRegistry} {outcome : ReplayOutcome}
    (h : replay limit registry ref record.events = .ok outcome) :
    ∃ workflowType attempt turns,
      List.Forall₂ (Turn ⟨ref, workflowType, attempt, horizon record.events⟩) record.events turns ∧
      turns.flatten = outcome.calls ∧
      ∀ place event subject, record.events[place]? = some event →
        event.event.ended? = some subject →
        event.event.isAwaited (Ledger.ofHistory (record.events.take place)) = true ∧
        (subject.cancelled ∉ (record.events.take place).map HistoryEvent.event →
          ended (turns.take place).flatten = false →
          ∃ call rest, turns[place]? = some (call :: rest) ∧
            event.event.stimulus? = some call.stimulus ∧
            ∀ other ∈ rest, other.stimulus.isSettling = true) ∧
        (subject.cancelled ∈ (record.events.take place).map HistoryEvent.event →
          ∃ turn, turns[place]? = some turn ∧ ∀ call ∈ turn, call.stimulus.isSettling = true) := by
  obtain ⟨expects, hwhole, workflowType, attempt, turns, tells⟩ :=
    exists_tellsOfEnds hempty reaches hfind h
  have hcaused := tells.caused
  rw [hwhole] at hcaused
  refine ⟨workflowType, attempt, turns, hcaused, tells.calls, ?_⟩
  intro place event subject hplace hended
  have hawaited := expects.of_getElem? hplace
  have hthere : (upToClose record.events)[place]? = some event := hwhole.symm ▸ hplace
  refine ⟨hawaited, fun huncancelled hactive => ?_, tells.untold place event subject hthere hended⟩
  exact tells.told place event subject hthere hended
    (Undertaking.isLive_of_isAwaited hended hawaited) huncancelled hactive

/-! ## An alarm -/

def alarmEngine : Engine := ⟨⟨[Samples.alarm]⟩, .standard⟩

def alarmStart : Role :=
  .operate (.start (.first Operation.sampleRun "alarm" "default" .null .standard)) rfl

def alarmTask : Role := .operate (.processTask alarmEngine Operation.sampleRun) rfl

def alarmSignal (name : String) : Role :=
  .operate (.signal alarmEngine Operation.sampleRun ⟨name, .null, ⟨0, 0⟩⟩) rfl

def alarmClock : Role := .operate (.fireDue ⟨alarmEngine, .standard⟩) rfl

def alarmReplay (record : RunRecord) : Except ReplayStop ReplayOutcome :=
  replay 10 alarmEngine.registry Operation.sampleRun record.events

def alarmStarted (eventId : Nat) : HistoryEvent :=
  .ofEvent eventId ⟨0, 0⟩
    (.timerStarted "alarm" (Instant.after ⟨0, 0⟩ (.ofSeconds 60)) (.ofSeconds 60))

def alarmSignalled (eventId : Nat) (name : String) : HistoryEvent :=
  .ofEvent eventId ⟨0, 0⟩ (.signalReceived ⟨name, .null, ⟨0, 0⟩⟩)

def alarmFired (eventId : Nat) : HistoryEvent := .ofEvent eventId ⟨60, 0⟩ (.timerFired "alarm")

def alarmHistory : List HistoryEvent :=
  [.ofEvent 1 ⟨0, 0⟩ (.workflowStarted "alarm" .null "default" 1 none .standard), alarmStarted 2]

/-- The alarm was stopped and set again. -/
def alarmAgain : List HistoryEvent :=
  alarmHistory ++ [alarmSignalled 3 "stop", .ofEvent 4 ⟨0, 0⟩ (.timerCancelled "alarm"),
    alarmSignalled 5 "set", alarmStarted 6]

/-- The alarm rings after a minute. -/
theorem alarm_rings :
    ∃ (scene : Scene Role Unit) (record : RunRecord) (outcome : ReplayOutcome),
      Scene.Reaches program (.opening Operation.blankWorld) scene ∧
      scene.world.store.runs.find? Operation.sampleRun = some record ∧
      record.events = alarmHistory ++ [alarmFired 3] ∧ alarmReplay record = .ok outcome ∧
      ∃ call ∈ outcome.calls, call.stimulus = .timerFired "alarm" := by
  obtain ⟨scene, record, reaches, hfind, hevents⟩ :
      ∃ (scene : Scene Role Unit) (record : RunRecord),
        Scene.Reaches program (.opening Operation.blankWorld) scene ∧
        scene.world.store.runs.find? Operation.sampleRun = some record ∧
        record.events = alarmHistory ++ [alarmFired 3] := by
    have entered := Scene.reaches_entered program Operation.blankWorld
      [alarmStart, alarmTask, alarmClock]
    have started := (entered.act 0 rfl rfl).act 0 rfl rfl
    have decided := (((started.act 1 rfl rfl).act 1 rfl rfl).act 1 rfl rfl).act 1 rfl rfl
    obtain ⟨_, fired⟩ := (decided.tick (some ⟨60, 0⟩)).run 2 rfl rfl
    exact ⟨_, _, fired, rfl, rfl⟩
  have hreplay : ∃ outcome, alarmReplay record = .ok outcome ∧ ended outcome.calls = false := by
    rw [alarmReplay, hevents]
    exact ⟨_, rfl, rfl⟩
  obtain ⟨outcome, hreplay, hactive⟩ := hreplay
  refine ⟨scene, record, outcome, reaches, hfind, hevents, hreplay, ?_⟩
  obtain ⟨_, _, turns, -, hcalls, htold⟩ := ends_areTold rfl reaches hfind hreplay
  obtain ⟨-, htold, -⟩ := htold 2 (alarmFired 3) (.timer "alarm") (by rw [hevents]; rfl) rfl
  have hbefore : (turns.take 2).flatten <+: outcome.calls :=
    hcalls ▸ List.IsPrefix.flatten (List.take_prefix 2 turns)
  obtain ⟨call, rest, hturn, hstimulus, -⟩ :=
    htold (by rw [hevents]; decide) (ended_of_initial hbefore hactive)
  refine ⟨call, ?_, (Option.some.inj hstimulus).symm⟩
  rw [← hcalls]
  exact List.mem_flatten.2 ⟨_, List.mem_of_getElem? hturn, List.mem_cons_self⟩

/-- The alarm is stopped, set again, and fires while the ledger waits for it; the workflow does not
hear of that. -/
theorem alarm_isSilent :
    ∃ (scene : Scene Role Unit) (record : RunRecord) (outcome : ReplayOutcome),
      Scene.Reaches program (.opening Operation.blankWorld) scene ∧
      scene.world.store.runs.find? Operation.sampleRun = some record ∧
      record.events = alarmAgain ++ [alarmFired 7] ∧
      (Ledger.ofHistory alarmAgain).isTimerPending "alarm" = true ∧
      alarmReplay record = .ok outcome ∧ ended outcome.calls = false ∧
      ∀ call ∈ outcome.calls, call.stimulus ≠ .timerFired "alarm" := by
  obtain ⟨scene, record, reaches, hfind, hevents⟩ :
      ∃ (scene : Scene Role Unit) (record : RunRecord),
        Scene.Reaches program (.opening Operation.blankWorld) scene ∧
        scene.world.store.runs.find? Operation.sampleRun = some record ∧
        record.events = alarmAgain ++ [alarmFired 7] := by
    have entered := Scene.reaches_entered program Operation.blankWorld
      [alarmStart, alarmTask, alarmSignal "stop", alarmTask, alarmSignal "set", alarmTask,
        alarmClock]
    have started := (entered.act 0 rfl rfl).act 0 rfl rfl
    have decided := (((started.act 1 rfl rfl).act 1 rfl rfl).act 1 rfl rfl).act 1 rfl rfl
    have stopping := ((decided.act 2 rfl rfl).act 2 rfl rfl).act 2 rfl rfl
    have stopped := (((stopping.act 3 rfl rfl).act 3 rfl rfl).act 3 rfl rfl).act 3 rfl rfl
    have setting := ((stopped.act 4 rfl rfl).act 4 rfl rfl).act 4 rfl rfl
    have again := (((setting.act 5 rfl rfl).act 5 rfl rfl).act 5 rfl rfl).act 5 rfl rfl
    obtain ⟨_, fired⟩ := (again.tick (some ⟨60, 0⟩)).run 6 rfl rfl
    exact ⟨_, _, fired, rfl, rfl⟩
  have hreplay : ∃ outcome, alarmReplay record = .ok outcome ∧ ended outcome.calls = false ∧
      ∀ call ∈ outcome.calls, call.stimulus ≠ .timerFired "alarm" := by
    rw [alarmReplay, hevents]
    exact ⟨_, rfl, rfl, by decide⟩
  obtain ⟨outcome, hreplay, hactive, hsilent⟩ := hreplay
  exact ⟨scene, record, outcome, reaches, hfind, hevents, by decide, hreplay, hactive, hsilent⟩

/-! ## Cancellations -/

/-- When a handler takes a timer or an activity back, workflow code is told of its end at most once
more as long as no handler begins it again, and that is of an end which stands before the record of the
cancellation. -/
theorem cancellation_isFinal (hempty : start.store = .empty)
    (reaches : Scene.Reaches program (.opening start) scene)
    (hfind : scene.world.store.runs.find? ref = some record) {limit : Nat}
    {registry : WorkflowRegistry} {outcome : ReplayOutcome}
    (h : replay limit registry ref record.events = .ok outcome)
    {earlier between later : List HandlerCall} {call telling : HandlerCall}
    (hsplit : outcome.calls = earlier ++ call :: (between ++ telling :: later))
    {subject : Undertaking} {early late : List Command}
    (hcancels : Step.commands call.step = early ++ subject.cancel :: late)
    (hunbegun : ∀ command ∈ late ++ between.flatMap (fun other => Step.commands other.step),
      command.begun? ≠ some subject)
    (htold : telling.stimulus.ended? = some subject) :
    (∀ other ∈ between, other.stimulus.ended? ≠ some subject) ∧
    ∃ place event, record.events[place]? = some event ∧ event.event.ended? = some subject ∧
      event.event.stimulus? = some telling.stimulus ∧
      recordedKeys (record.events.take place) <+:
        emittedKeys (earlier ++ [{ call with step := .ok early }]) := by
  obtain ⟨expects, hwhole, workflowType, attempt, turns, tells⟩ :=
    exists_tellsOfEnds hempty reaches hfind h
  obtain ⟨place, event, rest, hplace, hended, hstimulus, -, -, hcalls⟩ :=
    tells.source (earlier ++ call :: between) telling later subject (by simp [hsplit]) htold
  rw [hwhole] at hplace
  refine ⟨fun other hother =>
      tells.once hwhole expects hsplit hcancels hunbegun hplace hended hcalls hother,
    place, event, hplace, hended, hstimulus,
    tells.unrecorded hwhole expects hsplit hcancels hunbegun hplace hended hcalls⟩

def alarmCall (eventId : Nat) (seconds : Int) (isReplaying : Bool) (stimulus : Stimulus)
    (commands : List Command) : HandlerCall :=
  ⟨⟨Operation.sampleRun, "alarm", 1, eventId, ⟨seconds, 0⟩, isReplaying⟩, stimulus, .ok commands, 0⟩

def alarmSet : HandlerCall := alarmCall 1 0 true .started [Samples.setAlarm, .awaitSignal "stop"]

def alarmStopped : HandlerCall :=
  alarmCall 3 0 false (.signalled ⟨"stop", .null, ⟨0, 0⟩⟩) [.cancelTimer "alarm", .awaitSignal "set"]

def alarmRung : HandlerCall := alarmCall 4 60 false (.timerFired "alarm") []

/-- The alarm fires between the signal that stops it and the decision that says so. -/
theorem exists_lateStop :
    ∃ (scene : Scene Role Unit) (record : RunRecord) (outcome : ReplayOutcome),
      Scene.Reaches program (.opening Operation.blankWorld) scene ∧
      scene.world.store.runs.find? Operation.sampleRun = some record ∧
      record.events = alarmHistory ++ [alarmSignalled 3 "stop", alarmFired 4] ∧
      alarmReplay record = .ok outcome ∧
      outcome.calls = [alarmSet, alarmStopped, alarmRung] := by
  obtain ⟨scene, record, reaches, hfind, hevents⟩ :
      ∃ (scene : Scene Role Unit) (record : RunRecord),
        Scene.Reaches program (.opening Operation.blankWorld) scene ∧
        scene.world.store.runs.find? Operation.sampleRun = some record ∧
        record.events = alarmHistory ++ [alarmSignalled 3 "stop", alarmFired 4] := by
    have entered := Scene.reaches_entered program Operation.blankWorld
      [alarmStart, alarmTask, alarmSignal "stop", alarmClock]
    have started := (entered.act 0 rfl rfl).act 0 rfl rfl
    have decided := (((started.act 1 rfl rfl).act 1 rfl rfl).act 1 rfl rfl).act 1 rfl rfl
    have stopping := ((decided.act 2 rfl rfl).act 2 rfl rfl).act 2 rfl rfl
    obtain ⟨_, fired⟩ := (stopping.tick (some ⟨60, 0⟩)).run 3 rfl rfl
    exact ⟨_, _, fired, rfl, rfl⟩
  have hreplay : ∃ outcome, alarmReplay record = .ok outcome ∧
      outcome.calls = [alarmSet, alarmStopped, alarmRung] := by
    rw [alarmReplay, hevents]
    exact ⟨_, rfl, rfl⟩
  obtain ⟨outcome, hreplay, hcalls⟩ := hreplay
  exact ⟨scene, record, outcome, reaches, hfind, hevents, hreplay, hcalls⟩

/-- The alarm that rings after it was stopped rang before that was recorded. -/
theorem lateStop_isFinal :
    ∃ (scene : Scene Role Unit) (record : RunRecord) (outcome : ReplayOutcome),
      Scene.Reaches program (.opening Operation.blankWorld) scene ∧
      scene.world.store.runs.find? Operation.sampleRun = some record ∧
      alarmReplay record = .ok outcome ∧
      outcome.calls = [alarmSet] ++ alarmStopped :: ([] ++ alarmRung :: []) ∧
      Step.commands alarmStopped.step =
        [] ++ (Undertaking.timer "alarm").cancel :: [.awaitSignal "set"] ∧
      (∀ command ∈ [Command.awaitSignal "set"], command.begun? ≠ some (.timer "alarm")) ∧
      alarmRung.stimulus.ended? = some (.timer "alarm") ∧
      ∃ place event, record.events[place]? = some event ∧
        event.event.ended? = some (.timer "alarm") ∧
        event.event.stimulus? = some (.timerFired "alarm") ∧
        recordedKeys (record.events.take place) <+:
          emittedKeys [alarmSet, { alarmStopped with step := .ok [] }] := by
  obtain ⟨scene, record, outcome, reaches, hfind, -, hreplay, hcalls⟩ := exists_lateStop
  obtain ⟨-, hlate⟩ := @cancellation_isFinal _ _ _ _ rfl reaches hfind _ _ _ hreplay [alarmSet] [] []
    alarmStopped alarmRung hcalls (.timer "alarm") [] [.awaitSignal "set"] rfl (by decide) rfl
  exact ⟨scene, record, outcome, reaches, hfind, hreplay, hcalls, rfl, by decide, rfl, hlate⟩

/-- The alarm rings after it was stopped, although it was not set again. -/
theorem lateStop_isHeard :
    ∃ (scene : Scene Role Unit) (record : RunRecord) (outcome : ReplayOutcome)
      (earlier later : List HandlerCall) (call : HandlerCall),
      Scene.Reaches program (.opening Operation.blankWorld) scene ∧
      scene.world.store.runs.find? Operation.sampleRun = some record ∧
      alarmReplay record = .ok outcome ∧ outcome.calls = earlier ++ call :: later ∧
      Command.cancelTimer "alarm" ∈ Step.commands call.step ∧
      (∀ other ∈ call :: later, ∀ command ∈ Step.commands other.step,
        command.begun? ≠ some (.timer "alarm")) ∧
      ∃ telling ∈ later, telling.stimulus = .timerFired "alarm" := by
  obtain ⟨scene, record, outcome, reaches, hfind, -, hreplay, hcalls⟩ := exists_lateStop
  exact ⟨scene, record, outcome, [alarmSet], [alarmRung], alarmStopped, reaches, hfind, hreplay,
    hcalls, by decide, by decide, alarmRung, List.mem_cons_self, rfl⟩

end Role

end Chronicle
