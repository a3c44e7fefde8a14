import Chronicle.Proofs.Engine.Redelivery
import Chronicle.Proofs.Engine.Timeliness
import Chronicle.Proofs.Program.Dialogues
import Chronicle.Proofs.Replay.Calls
import Chronicle.Proofs.Replay.Stops
import Chronicle.Proofs.Store.Availability
import Chronicle.Worker.Basic

/-!
# Panics of handlers are contained

When a handler panics, the workflow task that called it ends with an error and leaves the store as it
was.  Its worker gives the task back, to be handed out again after a delay.  A panic of any other code
of a workflow takes the workflow task with it, and nobody gives the task back.
-/

namespace Chronicle

namespace Engine

variable {engine : Engine} {ref : RunRef} {history : List HistoryEvent} {stop : ReplayStop}

/-- What a workflow task comes to when its replay stops. -/
def ofStop : ReplayStop → Except Crash (Except EngineError TaskResult)
  | .error error => .ok (.error (.replay error))
  | .crash cause => .error cause

/-- The replay of the history stops, and not on account of the input. -/
structure Stops (engine : Engine) (ref : RunRef) (history : List HistoryEvent) (stop : ReplayStop) :
    Prop where
  replay : replay engine.limits.replayLimit engine.registry ref history = .error stop
  readable : ∀ reason, stop ≠ .error (.registry (.undecodableInput reason))

theorem Stops.decodes (stops : engine.Stops ref history stop) {other : List HistoryEvent}
    (hsame : other.head? = history.head?) (reason : String) :
    Chronicle.replay engine.limits.replayLimit engine.registry ref other ≠
      .error (.error (.registry (.undecodableInput reason))) := by
  intro hother
  have hhistory : Chronicle.replay engine.limits.replayLimit engine.registry ref history =
      .error (.error (.registry (.undecodableInput reason))) := by
    rw [Replay.undecodable_iff] at hother ⊢
    rwa [hsame] at hother
  rw [stops.replay] at hhistory
  exact stops.readable reason (Except.error.inj hhistory)

theorem Stops.decide (stops : engine.Stops ref history stop) (run : Run)
    (again : Program (Except EngineError TaskResult)) {asked : List Asked}
    {result : Except Crash (Except EngineError TaskResult)}
    (dialogue : (engine.decide run ref history again).Dialogue asked result) :
    asked = [] ∧ result = ofStop stop := by
  unfold Engine.decide at dialogue
  rw [stops.replay] at dialogue
  cases stop with
  | crash cause => exact dialogue.of_crash
  | error error =>
      cases error with
      | registry error =>
          cases error with
          | undecodableInput reason => exact absurd rfl (stops.readable reason)
          | unknownType name => exact dialogue.of_done
      | _ => exact dialogue.of_done

theorem commitDecision_again {run : Run} {other : List HistoryEvent} {commands : List Command}
    {again : Program (Except EngineError TaskResult)} {early late : List Asked} {talk : Asked}
    {result : Except Crash (Except EngineError TaskResult)}
    (dialogue : (commitDecision run other commands again).Dialogue (early ++ talk :: late) result)
    (hread : talk.request = .readEvents ref 0) :
    ∃ first front, early = first ++ front ∧ (∀ other ∈ first, other.LeavesStore) ∧
      again.Dialogue (front ++ talk :: late) result := by
  unfold commitDecision at dialogue
  obtain ⟨now, afterNow, rfl, asking⟩ := dialogue.of_other (by simp [hread])
  obtain ⟨inquiries, built, afterBuild, rfl, building, deciding⟩ :=
    asking.of_looksAway_bind (Decision.build_looksAway _ _ _ _) (by simp [hread, Request.looksAway])
  cases built with
  | error error => exact absurd deciding Program.Dialogue.not_done
  | ok commit =>
      obtain ⟨answer, front, rfl, trying⟩ := deciding.of_other (by simp [hread])
      cases answer with
      | ok version => exact absurd trying Program.Dialogue.not_done
      | error error =>
          refine ⟨⟨.now, now⟩ :: inquiries ++ [⟨.commit run.ref other.length commit, .error error⟩],
            front, by simp, ?_, ?_⟩
          · intro asked hmem
            simp only [List.cons_append, List.mem_cons, List.mem_append, List.mem_nil_iff,
              or_false] at hmem
            rcases hmem with rfl | hinquiry | rfl
            · exact rfl
            · exact .of_looksAway (building.of_looksAway (Decision.build_looksAway _ _ _ _) _ hinquiry)
            · trivial
          · cases error with
            | versionConflict expected found => exact trying
            | alreadyStarted workflowId runId => exact trying
            | _ => exact absurd trying Program.Dialogue.not_done

/-- A round that is followed by another one has left the store as it was. -/
theorem decide_again {run : Run} {other : List HistoryEvent}
    {again : Program (Except EngineError TaskResult)} {early late : List Asked} {talk : Asked}
    {result : Except Crash (Except EngineError TaskResult)}
    (hdecodes : ∀ reason, replay engine.limits.replayLimit engine.registry ref other ≠
      .error (.error (.registry (.undecodableInput reason))))
    (dialogue : (engine.decide run ref other again).Dialogue (early ++ talk :: late) result)
    (hread : talk.request = .readEvents ref 0) :
    ∃ first front, early = first ++ front ∧ (∀ other ∈ first, other.LeavesStore) ∧
      again.Dialogue (front ++ talk :: late) result := by
  unfold Engine.decide at dialogue
  split at dialogue
  · have hnone := dialogue.of_crash.1
    simp at hnone
  · rename_i reason hreplay
    exact absurd hreplay (hdecodes reason)
  · exact absurd dialogue Program.Dialogue.not_done
  · split at dialogue
    · exact absurd dialogue Program.Dialogue.not_done
    · split at dialogue
      · exact absurd dialogue Program.Dialogue.not_done
      · exact commitDecision_again dialogue hread

/-- A workflow task that is told such a history asks for nothing more.  Before that it has changed
nothing: its earlier rounds were lost to others. -/
theorem Stops.advance (stops : engine.Stops ref history stop)
    (hwithin : history.length ≤ engine.limits.maxEvents) (rounds : Nat) {early late : List Asked}
    {result : Except Crash (Except EngineError TaskResult)}
    (dialogue : (engine.advance ref rounds).Dialogue
      (early ++ ⟨.readEvents ref 0, .ok history⟩ :: late) result)
    (hsame : ∀ other, ⟨.readEvents ref 0, .ok other⟩ ∈ early → other.head? = history.head?) :
    (∀ talk ∈ early, talk.LeavesStore) ∧ late = [] ∧ result = ofStop stop := by
  -- the induction follows the rounds, so `early` holds what earlier ones have asked
  induction rounds generalizing early with
  | zero => exact absurd dialogue Program.Dialogue.not_done
  | succ rounds ih =>
      unfold Engine.advance at dialogue
      obtain ⟨got, front, rfl, afterRun⟩ := dialogue.of_other (by simp)
      cases got with
      | error error => exact absurd afterRun Program.Dialogue.not_done
      | ok run =>
          simp only at afterRun
          split at afterRun
          · exact absurd afterRun Program.Dialogue.not_done
          obtain ⟨read, ⟨rfl, htold, afterRead⟩ | ⟨rest, rfl, afterRead⟩⟩ := afterRun.of_request
          · -- the history is that of this round
            cases htold
            simp only [Nat.not_lt.2 hwithin, if_false] at afterRead
            obtain ⟨rfl, hresult⟩ := stops.decide run _ afterRead
            exact ⟨by simp [Asked.LeavesStore, Request.isInquiry], rfl, hresult⟩
          · cases read with
            | error error => exact absurd afterRead Program.Dialogue.not_done
            | ok earlier =>
                simp only at afterRead
                split at afterRead
                · exact absurd afterRead Program.Dialogue.not_done
                obtain ⟨round, front, rfl, hround, retrying⟩ :=
                  decide_again (stops.decodes (hsame earlier (by simp))) afterRead rfl
                obtain ⟨hearly, hlate, hresult⟩ :=
                  ih retrying fun other hother => hsame other (by simp [hother])
                refine ⟨?_, hlate, hresult⟩
                simp only [List.mem_cons, List.mem_append]
                rintro talk (rfl | rfl | hmem | hmem)
                · exact rfl
                · exact rfl
                · exact hround talk hmem
                · exact hearly talk hmem

/-- A workflow task that is alone with the store. -/
theorem Stops.processTask {world : World} {record : RunRecord}
    (stops : engine.Stops ref record.events stop)
    (hwithin : record.events.length ≤ engine.limits.maxEvents)
    (hfind : world.store.runs.find? ref = some record) (hopen : record.run.status.isClosed = false) :
    (engine.processTask ref).run World.answer world = (ofStop stop, world) := by
  unfold Engine.processTask rounds Engine.advance
  rw [Program.run_request (World.answer_getRun_of_find hfind)]
  simp only [hopen, Bool.false_eq_true, if_false]
  rw [Program.run_request (World.answer_readEvents_of_find hfind)]
  simp only [Nat.not_lt.2 hwithin, if_false, Engine.decide, stops.replay]
  cases stop with
  | crash cause => rfl
  | error error =>
      cases error with
      | registry error =>
          cases error with
          | undecodableInput reason => exact absurd rfl (stops.readable reason)
          | unknownType name => rfl
      | _ => rfl

end Engine

/-! ## Workers -/

namespace Worker

variable {worker : Worker} {catalogue : WorkflowRegistry} {task : LeasedTask}
  {history : List HistoryEvent} {error : ReplayError}

/-- The last request of a worker is that to give the task back, if it gets that far. -/
def GivesBack (worker : Worker) (task : LeasedTask) (error : EngineError) (late : List Asked)
    (result : Except Crash Unit) : Prop :=
  (∃ answer, late = [⟨.failTask task.taskId task.token error.message worker.config.taskRetryDelay,
      answer⟩] ∧ result = .ok ()) ∨
    (late = [] ∧ ∃ cause, result = .error cause)

theorem failTask_givesBack {reason : EngineError} {late : List Asked} {result : Except Crash Unit}
    (dialogue : (worker.failTask task reason).Dialogue late result) :
    worker.GivesBack task reason late result := by
  cases dialogue with
  | unanswered cause => exact .inr ⟨rfl, cause, rfl⟩
  | ask answer rest =>
      obtain ⟨rfl, rfl⟩ := rest.of_done
      exact .inl ⟨answer, rfl, rfl⟩

theorem runWorkflowTask_givesBack
    (stops : (worker.engine catalogue).Stops task.work.run history (.error error))
    (hwithin : history.length ≤ worker.limits.maxEvents) {early late : List Asked}
    {result : Except Crash Unit}
    (dialogue : (worker.runWorkflowTask catalogue task).Dialogue
      (early ++ ⟨.readEvents task.work.run 0, .ok history⟩ :: late) result)
    (hsame : ∀ other, ⟨.readEvents task.work.run 0, .ok other⟩ ∈ early →
      other.head? = history.head?) :
    (∀ talk ∈ early, talk.LeavesStore) ∧ worker.GivesBack task (.replay error) late result := by
  rcases dialogue.of_bind with ⟨first, value, second, processing, ending, hsplit⟩ |
    ⟨cause, processing, -⟩
  · rcases append_eq_split hsplit.symm with ⟨rest, rfl, rfl⟩ | ⟨front, rfl, rfl⟩
    · obtain ⟨hearly, rfl, hvalue⟩ := stops.advance hwithin _ processing hsame
      cases hvalue
      exact ⟨hearly, failTask_givesBack ending⟩
    · -- a worker that gives a task back or completes it reads nothing
      cases value with
      | ok processed =>
          obtain ⟨answer, rest, -, completed⟩ := ending.of_other (by simp)
          exact absurd completed Program.Dialogue.not_done
      | error reason =>
          obtain ⟨answer, rest, -, failed⟩ := ending.of_other (by simp)
          exact absurd failed Program.Dialogue.not_done
  · obtain ⟨-, -, hresult⟩ := stops.advance hwithin _ processing hsame
    cases hresult

/-- A replay of the history for the task stops with the error.  So does a workflow task, whoever else
acts in the meantime, and it changes nothing; a worker then gives the task back, and it waits for the
delay that the worker is configured with. -/
structure Contains (worker : Worker) (catalogue : WorkflowRegistry) (task : LeasedTask)
    (history : List HistoryEvent) (error : ReplayError) : Prop where
  replayed : replay worker.limits.replayLimit (worker.engine catalogue).registry task.work.run
    history = .error (.error error)
  /-- What a workflow task comes to that is alone with the store. -/
  processed : ∀ world record, world.store.runs.find? task.work.run = some record →
    record.events = history → record.run.status.isClosed = false →
    history.length ≤ worker.limits.maxEvents →
    ((worker.engine catalogue).processTask task.work.run).run World.answer world =
      (.ok (.error (.replay error)), world)
  /-- What it comes to among others: histories that it was told before are of the same run. -/
  returned : ∀ early late result, history.length ≤ worker.limits.maxEvents →
    ((worker.engine catalogue).processTask task.work.run).Dialogue
      (early ++ ⟨.readEvents task.work.run 0, .ok history⟩ :: late) result →
    (∀ other, ⟨.readEvents task.work.run 0, .ok other⟩ ∈ early → other.head? = history.head?) →
    (∀ talk ∈ early, talk.LeavesStore) ∧ late = [] ∧ result = .ok (.error (.replay error))
  released : ∀ early late result, history.length ≤ worker.limits.maxEvents →
    (worker.runWorkflowTask catalogue task).Dialogue
      (early ++ ⟨.readEvents task.work.run 0, .ok history⟩ :: late) result →
    (∀ other, ⟨.readEvents task.work.run 0, .ok other⟩ ∈ early → other.head? = history.head?) →
    (∀ talk ∈ early, talk.LeavesStore) ∧ worker.GivesBack task (.replay error) late result
  redelivered : ∀ deeds queue record now after, TaskQueue.Log deeds queue →
    queue.held task.taskId task.token = .ok record →
    record.work.isWorkflowOf task.work.run = true →
    queue.fail task.taskId task.token (EngineError.replay error).message
      worker.config.taskRetryDelay now = .ok after →
    (queue.isCovered record.work = false → ∀ acts, after.Spares task.work.run task.taskId acts →
      (after.performAll acts).Waits
        (record.released (EngineError.replay error).message (now.after worker.config.taskRetryDelay))
        (now.after worker.config.taskRetryDelay)) ∧
    (queue.isCovered record.work = true →
      ∃ other ∈ after.records, other.isPendingWorkflowOf task.work.run = true)

theorem contains_of_replay
    (hreplay : replay worker.limits.replayLimit (worker.engine catalogue).registry task.work.run
      history = .error (.error error))
    (hreadable : ∀ reason, error ≠ .registry (.undecodableInput reason)) :
    worker.Contains catalogue task history error := by
  have stops : (worker.engine catalogue).Stops task.work.run history (.error error) :=
    ⟨hreplay, fun reason hsame => hreadable reason (by simpa using hsame)⟩
  constructor
  case replayed => exact hreplay
  case processed =>
    rintro world record hfind rfl hopen hwithin
    exact stops.processTask hwithin hfind hopen
  case returned =>
    intro early late result hwithin dialogue hsame
    exact stops.advance hwithin _ dialogue hsame
  case released =>
    intro early late result hwithin dialogue hsame
    exact runWorkflowTask_givesBack stops hwithin dialogue hsame
  case redelivered =>
    intro deeds queue record now after log hheld hwork hfail
    exact ⟨fun halone acts spares => log.waits hheld hwork halone hfail spares,
      fun hcovered => TaskQueue.exists_of_fail log.accounts.wellKept hheld hwork hcovered hfail⟩

/-- Whatever workflow and history it is: a handler that panics in the replay stops the workflow task
and nothing else. -/
theorem contains_handlerPanic {workflow : WorkflowType} {state : workflow.State} {context : Context}
    {stimulus : Stimulus} {panic : Panic}
    (hcall : .react workflow state context stimulus ∈ Replay.calls worker.limits.replayLimit
      (worker.engine catalogue).registry task.work.run history)
    (hpanics : workflow.react state context stimulus = .error panic) :
    worker.Contains catalogue task history (.handlerPanicked context.eventId panic.message) :=
  contains_of_replay (Replay.stop_of_panics hcall hpanics) fun _ hsame => nomatch hsame

/-! ### Fireworks -/

/-- A panic is to keep a task away for a minute. -/
def igniter : Worker :=
  ⟨{ WorkerConfig.standard "igniter" with taskRetryDelay := .ofSeconds 60 }, ⟨10, 1, 10⟩,
    ["firework", "dud"], ⟨[]⟩, .running, false, [], []⟩

def fireworks : WorkflowRegistry := ⟨[Samples.firework, Samples.dud]⟩

def startOf (workflowType : String) : NewRun :=
  .first Operation.sampleRun workflowType "default" .null .standard

def started (workflowType : String) : World :=
  ((Engine.start (startOf workflowType)).run World.answer Operation.blankWorld).2

def ignition : Request := .claimTask (igniter.pollRequest .workflow)

/-- The first task of a run that was started. -/
def handedTask (workflowType : String) : LeasedTask :=
  ⟨.generated 1 0, .generated 2 0, "default", .workflow Operation.sampleRun workflowType, 1,
    Instant.after ⟨0, 0⟩ igniter.config.workflowLease⟩

def historyOf (workflowType : String) : List HistoryEvent :=
  (RunRecord.start (startOf workflowType) ⟨0, 0⟩).events

def firstContext (workflowType : String) : Context :=
  ⟨Operation.sampleRun, workflowType, 1, 1, ⟨0, 0⟩, false⟩

theorem firework_calls :
    Replay.calls igniter.limits.replayLimit (igniter.engine fireworks).registry Operation.sampleRun
        (historyOf "firework") =
      [.create Samples.firework .null,
        .react Samples.firework () (firstContext "firework") .started] := rfl

theorem dud_calls :
    Replay.calls igniter.limits.replayLimit (igniter.engine fireworks).registry Operation.sampleRun
        (historyOf "dud") =
      [.create Samples.dud .null, .react Samples.dud () (firstContext "dud") .started,
        .conditionHolds Samples.dud () "burning"] := rfl

theorem firework_isContained :
    .react Samples.firework () (firstContext "firework") .started ∈
      Replay.calls igniter.limits.replayLimit (igniter.engine fireworks).registry
        (handedTask "firework").work.run (historyOf "firework") ∧
    Samples.firework.react () (firstContext "firework") .started = .error ⟨some "bang"⟩ ∧
    igniter.Contains fireworks (handedTask "firework") (historyOf "firework")
      (.handlerPanicked 1 "bang") := by
  have hcall : .react Samples.firework () (firstContext "firework") .started ∈
      Replay.calls igniter.limits.replayLimit (igniter.engine fireworks).registry
        (handedTask "firework").work.run (historyOf "firework") := by
    show _ ∈ Replay.calls _ _ Operation.sampleRun _
    rw [firework_calls]
    exact List.mem_cons_of_mem _ List.mem_cons_self
  have hpanics : Samples.firework.react () (firstContext "firework") .started =
      .error ⟨some "bang"⟩ := rfl
  exact ⟨hcall, hpanics, contains_handlerPanic hcall hpanics⟩

/-- Nobody hears of a check that panics: the task stays with the worker, who has lost it.  A firework
that went off is handed out again a second later, once somebody has rung. -/
theorem panics_notContained :
    (∃ task world, World.answer ignition (started "dud") = (.ok (.claimed task), world) ∧
      .conditionHolds Samples.dud () "burning" ∈ Replay.calls igniter.limits.replayLimit
        (igniter.engine fireworks).registry Operation.sampleRun (historyOf "dud") ∧
      Samples.dud.conditionHolds () "burning" = .error ⟨some "late bang"⟩ ∧
      replay igniter.limits.replayLimit (igniter.engine fireworks).registry Operation.sampleRun
        (historyOf "dud") = .error (.crash (.panicked ⟨some "late bang"⟩)) ∧
      takeTurn World.answer fireworks 0 igniter (.claimed task) world = (igniter, world)) ∧
    ∃ task world failed rung tasks again, World.answer ignition (started "firework") =
        (.ok (.claimed task), world) ∧
      (igniter.runWorkflowTask fireworks task).run World.answer world = (.ok (), failed) ∧
      ((igniter.engine fireworks).signal Operation.sampleRun ⟨"bell", .null, ⟨1, 0⟩⟩).run
        World.answer { failed with now := some ⟨1, 0⟩ } = (.ok (.ok (.written 2)), rung) ∧
      rung.store.tasks.claim (igniter.pollRequest .workflow) ⟨1, 0⟩ = (tasks, .claimed again) ∧
      again.taskId = task.taskId ∧
      (⟨1, 0⟩ : Instant) < Instant.after ⟨0, 0⟩ igniter.config.taskRetryDelay := by
  constructor
  · have hcall : .conditionHolds Samples.dud () "burning" ∈ Replay.calls igniter.limits.replayLimit
        (igniter.engine fireworks).registry Operation.sampleRun (historyOf "dud") := by
      rw [dud_calls]
      simp
    exact ⟨_, _, rfl, hcall, rfl, rfl, rfl⟩
  · exact ⟨_, _, _, _, _, _, rfl, rfl, rfl, rfl, rfl, by decide⟩

end Worker

end Chronicle
