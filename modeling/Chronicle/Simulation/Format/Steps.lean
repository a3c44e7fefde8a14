import Chronicle.Samples.Catalogue
import Chronicle.Simulation.Format.Answers
import Chronicle.Simulation.Format.Fields

/-!
# Reading steps

The field `op` of a step says what it does; the other fields are its arguments.
-/

namespace Chronicle.Simulation.Format

structure Deployment where
  /-- Names of the sample types that the engine runs, all if there is no list. -/
  workflows : Option (List String)
  activities : Option (List String)
  limits : EngineLimits
  timer : TimerConfig
  client : ClientConfig
  clientHasTypes : Bool
  deriving DecidableEq, Repr

/-- A step in its place: what it can see of the scenario. -/
structure Scene where
  deployment : Deployment
  session : Session
  step : Json

abbrev StepAction := Action Json Json

def orUndecodable (action : Option StepAction) : StepAction :=
  action.getD (.answer ErrorRecord.undecodable)

def askStore (program : Program (Except StoreError α)) (write : α → Json) : StepAction :=
  .ask (do return result StoreError.toJson write (← program))

def observeStore (program : Program (Except StoreError α)) (write : α → Json) : StepAction :=
  .observe (do return result StoreError.toJson write (← program))

def askEngine (program : Program (Except EngineError α)) (write : α → Json) : StepAction :=
  .ask (do return result EngineError.toJson write (← program))

def askClient (program : Program (Except ClientError α)) (write : α → Json) : StepAction :=
  .ask (do return result ClientError.toJson write (← program))

/-- Makes a request at the version that a step expects, or else at the present one. -/
def atVersion (run : RunRef) (expected : Json) (use : Nat → Program (Except StoreError α)) :
    Program (Except StoreError α) := do
  match expected.word? 64 with
  | some version => use version
  | none =>
      match ← .request (.historyVersion run) with
      | .error error => return .error error
      | .ok version => use version

namespace Scene

def text (scene : Scene) (key : String) : String := scene.step.textAt key ""

def roster (scene : Scene) : Roster := scene.session.roster

def registry (scene : Scene) : WorkflowRegistry :=
  Samples.selectWorkflows scene.session.version scene.deployment.workflows

def activities (scene : Scene) : ActivityRegistry :=
  Samples.selectActivities scene.deployment.activities

def engine (scene : Scene) : Engine := ⟨scene.registry, scene.deployment.limits⟩

/-- A client has an engine of its own, which may lack the types. -/
def client (scene : Scene) : Client :=
  let registry := if scene.deployment.clientHasTypes then scene.registry else .empty
  ⟨⟨registry, .standard⟩, scene.deployment.client⟩

def onRun (scene : Scene) (use : RunRef → StepAction) : StepAction :=
  orUndecodable ((run? scene.roster (scene.step.get "run")).map use)

/-! ## The engine -/

def engineAction? (scene : Scene) : Option StepAction :=
  let engine := scene.engine
  let reason := scene.text "reason"
  match scene.text "op" with
  | "start" =>
      some (orUndecodable ((RunDraft.ofJson? scene.roster scene.step).map fun draft =>
        askEngine (do Engine.start (← draft.giveId)) RunRef.toJson))
  | "process" => some (scene.onRun fun run => askEngine (engine.processTask run) taskResult)
  | "signal" =>
      some (scene.onRun fun run => askEngine (do
        let now ← .request .now
        engine.signal run ⟨scene.text "name", scene.step.get "payload", now⟩) nothing)
  | "cancel" => some (scene.onRun fun run => askEngine (engine.requestCancellation run reason) nothing)
  | "terminate" => some (scene.onRun fun run => askEngine (engine.terminate run reason) nothing)
  | "query" =>
      some (scene.onRun fun run =>
        askEngine (engine.query run (scene.text "name") (scene.step.get "args")) id)
  | "set_version" =>
      some (.change (fun session => session.deploy (scene.step.natAt "v" 0)) (ok .null))
  | _ => none

/-! ## The store -/

def appendAction (scene : Scene) (run : RunRef) : StepAction :=
  orUndecodable ((scene.step.readAt "events" (Json.listOf? Event.ofJson?) []).map fun events =>
    askStore (atVersion run (scene.step.get "expected") fun version =>
      .request (.commit run version (.ofEvents events))) Json.ofNat)

def commitAction (scene : Scene) (run : RunRef) : StepAction :=
  orUndecodable ((CommitDraft.ofJson? scene.roster scene.step).map fun draft =>
    askStore (do
      let commit ← draft.complete
      atVersion run (scene.step.get "expected") fun expected => do
        match ← .request (.commit run expected commit) with
        | .ok version => return .ok (version, commit.isEmpty)
        | .error error => return .error error) committed)

def storeAction? (scene : Scene) : Option StepAction :=
  match scene.text "op" with
  | "create" =>
      some (orUndecodable ((RunDraft.ofJson? scene.roster scene.step).map fun draft =>
        askStore (do .request (.createRun (← draft.giveId))) nothing))
  | "get" => some (scene.onRun fun run => observeStore (.request (.getRun run)) Run.toJson)
  | "current" => some (observeStore (.request (.currentRun (scene.text "id"))) Run.toJson)
  | "history" =>
      some (scene.onRun fun run =>
        observeStore (.request (.readEvents run (scene.step.natAt "from" 0)))
          (history (scene.step.get "bare").isTrue))
  | "version" =>
      some (scene.onRun fun run => askStore (.request (.historyVersion run)) Json.ofNat)
  | "append" => some (scene.onRun scene.appendAction)
  | "commit" => some (scene.onRun scene.commitAction)
  | "clear" => some (.change Session.clearStore (ok .null))
  | "fault" =>
      some (.change (fun session =>
        (fault? scene.step).elim session fun fault => session.addFault fault) (ok .null))
  | _ => none

/-! ## Tasks and timers -/

def taskAction? (scene : Scene) : Option StepAction :=
  let lease := scene.session.lease (scene.text "lease")
  match scene.text "op" with
  | "enqueue" =>
      some (orUndecodable ((task? scene.roster scene.step).map fun task =>
        .ask (do return ok (.bool (← .request (.enqueueTask task)).isSome))))
  | "poll" =>
      some (orUndecodable ((pollRequest? scene.step).map fun request =>
        .poll (scene.text "as") request (result StoreError.toJson foundTask)))
  | "complete" => some (askStore (.request (.completeTask lease.taskId lease.token)) nothing)
  | "fail" =>
      some (askStore (.request (.failTask lease.taskId lease.token "failed"
        (spanAt "after_ms" 0 scene.step))) nothing)
  | "heartbeat" =>
      some (askStore (.request (.heartbeatTask lease.taskId lease.token
        (spanAt "ext_ms" 60000 scene.step))) heartbeatReply)
  | _ => none

def timerAction? (scene : Scene) : Option StepAction :=
  match scene.text "op" with
  | "schedule_timer" =>
      some (orUndecodable ((timer? scene.roster scene.step).map fun timer =>
        askStore (do .request (.scheduleTimer (← timer))) nothing))
  | "pop_timers" =>
      some (askStore (do
        let now ← instantAfter (scene.step.intAt "after_ms" 0)
        .request (.popDueTimers now (scene.step.natAt "limit" 100))) timers)
  | "next_timer" => some (.ask (do return ok (.ofOption Instant.toJson (← .request .nextTimerAt))))
  | "fire_due" =>
      some (askStore (TimerService.fireDue ⟨scene.engine, scene.deployment.timer⟩) Json.ofNat)
  | "advance" => some (.setForward (spanAt "ms" 0 scene.step) fun now => ok now.toJson)
  | _ => none

/-! ## Pollers -/

def onPoller (scene : Scene) (use : HeldPoller → StepAction) : StepAction :=
  match scene.session.pollers.lookup (scene.text "poller") with
  | some held => use held
  | none => .answer (ErrorRecord.write "no_poller" "" [])

/-- A poller whose configuration differs from the usual one in the listed fields. -/
def poller? (step : Json) : Option Poller := do
  let config ← PollerConfig.ofJson? (PollerConfig.standard.toJson.override (step.get "config"))
  let request ← pollRequest? step
  some (.create request config)

def pollerAction? (scene : Scene) : Option StepAction :=
  let name := scene.text "poller"
  match scene.text "op" with
  | "poller" =>
      some (orUndecodable ((poller? scene.step).map fun poller =>
        .change (fun session => session.keepPoller name ⟨poller, false⟩)
          (ok (.text (toString poller.interval.nanos)))))
  | "poller_poll" =>
      some (scene.onPoller fun held => .pollerPoll name (scene.text "as") held (pollerReport polled))
  | "poller_wait" => some (scene.onPoller fun held => .pollerPause held (pollerReport Json.bool))
  | "poller_shutdown" =>
      some (scene.onPoller fun held => .pollerStop name held (pollerReport Json.bool))
  | _ => none

/-! ## Clients -/

def startAction (scene : Scene) : StepAction :=
  orUndecodable ((scene.step.readAt "options" WorkflowOptions.ofJson? .standard).map fun options =>
    askClient (Client.start (scene.text "type") (scene.text "id")
      (scene.step.textAt "queue" "default") (scene.step.get "input") options) Uuid.toJson)

/-- The input of a counter is read before it is written again. -/
def startCounterAction (scene : Scene) : StepAction :=
  match scene.step.readAt "options" WorkflowOptions.ofJson? .standard,
      Samples.CounterInput.ofJson? (scene.step.get "input") with
  | some options, some input =>
      askClient (Client.start Samples.counter.name (scene.text "id")
        scene.client.config.defaultTaskQueue input.toJson options) Uuid.toJson
  | _, _ => .answer ErrorRecord.undecodable

def clientAction? (scene : Scene) : Option StepAction :=
  let client := scene.client
  let workflowId := scene.text "id"
  let name := scene.text "name"
  let reason := scene.text "reason"
  let wait := spanAt "wait_ms" 0 scene.step
  match scene.text "op" with
  | "client_start" => some scene.startAction
  | "client_start_counter" => some scene.startCounterAction
  | "client_signal" =>
      some (askClient (client.signal workflowId name (scene.step.get "payload")) nothing)
  | "client_query" => some (askClient (client.query workflowId name (scene.step.get "args")) id)
  | "client_describe" => some (askClient (Client.describe workflowId) RunSummary.toJson)
  | "client_terminate" => some (askClient (client.terminate workflowId reason) nothing)
  | "client_cancel" => some (askClient (client.cancel workflowId reason) nothing)
  | "client_history" => some (askClient (Client.history workflowId) (history false))
  | "client_result" =>
      some (.awaitResult client (Client.resultRun workflowId) wait timedResult)
  | "client_run_result" =>
      some (scene.onRun fun run => .awaitResult client (return .ok run) wait timedResult)
  | _ => none

/-! ## Workers -/

def executeAction (scene : Scene) : StepAction :=
  let service : ActivityService :=
    { engine := scene.engine
      activities := scene.activities
      workerId := scene.step.textAt "worker" "w"
      leaseDuration := spanAt "lease_ms" 60000 scene.step }
  .execute service (scene.session.lease (scene.text "lease")) (sequel scene.step) attemptReport

/-- Types that a worker runs unless its step lists others. -/
def workerWorkflows : List String := ["script", "counter"]

def workerActivities : List String := ["act", "increment"]

structure WorkerDraft where
  config : WorkerConfig
  workflows : List String
  activities : List String

/-- The configuration differs from the usual one in the listed fields. -/
def WorkerDraft.ofJson? (step : Json) : Option WorkerDraft := do
  let config ← WorkerConfig.ofJson?
    ((WorkerConfig.standard "w").toJson.override (step.get "config"))
  let workflows ← step.readAt "workflows" Json.texts? workerWorkflows
  let activities ← step.readAt "activities" Json.texts? workerActivities
  some ⟨config, workflows, activities⟩

/-- There need not be a worker as it is wanted. -/
def worker? (scene : Scene) (draft : WorkerDraft) : Option Worker :=
  let limits := { EngineLimits.standard with
    maxEvents := scene.step.natAt "max_events" EngineLimits.standard.maxEvents }
  let workflows := Samples.selectWorkflows scene.session.version (some draft.workflows)
  let activities := Samples.selectActivities (some draft.activities)
  Worker.create? draft.config limits workflows.names activities

def workAction (scene : Scene) : StepAction :=
  orUndecodable ((WorkerDraft.ofJson? scene.step).map fun draft =>
    match scene.worker? draft with
    | none => .answer ErrorRecord.crashed
    | some worker =>
        .work worker (spanAt "run_ms" 0 scene.step) (sequel scene.step)
          (workReport draft.config.workerId))

def workerAction? (scene : Scene) : Option StepAction :=
  match scene.text "op" with
  | "execute" => some scene.executeAction
  | "worker" => some scene.workAction
  | _ => none

/-- A step of no known kind has no answer. -/
def action (scene : Scene) : StepAction :=
  let kinds := [engineAction?, storeAction?, taskAction?, timerAction?, pollerAction?, clientAction?,
    workerAction?]
  (kinds.findSome? fun kind => kind scene).getD (.answer .null)

end Scene

end Chronicle.Simulation.Format
