import Chronicle.Engine.Basic

/-!
# The client

What an application does with workflows from outside: start, signal, query, cancel, and wait for
results.  A workflow id stands for its current run.
-/

namespace Chronicle

structure ClientConfig where
  defaultTaskQueue : String
  resultPollInterval : Span
  deriving DecidableEq, Repr

namespace ClientConfig

def standard : ClientConfig := ⟨"default", .ofMillis 25⟩

def toJson (config : ClientConfig) : Json :=
  .record [("default_task_queue", .text config.defaultTaskQueue),
    ("result_poll_interval", config.resultPollInterval.toJson)]

def ofJson? (value : Json) : Option ClientConfig := do
  let defaultTaskQueue ← value.required "default_task_queue" Json.text?
  let resultPollInterval ← value.required "result_poll_interval" Span.ofJson?
  some ⟨defaultTaskQueue, resultPollInterval⟩

end ClientConfig

inductive ClientError where
  | workflowNotFound (workflowId : String)
  | alreadyStarted (workflowId : String)
  | workflowClosed (workflowId : String)
  | workflowFailed (failure : Failure)
  | resultTimeout (workflowId : String)
  | invalidArgument (reason : String)
  | unknownWorkflowType (name : String)
  | store (error : StoreError)
  | engine (error : EngineError)
  deriving DecidableEq, Repr

namespace ClientError

def message : ClientError → String
  | .workflowNotFound workflowId => s!"workflow not found: {workflowId}"
  | .alreadyStarted workflowId => s!"workflow already started: {workflowId}"
  | .workflowClosed workflowId => s!"workflow is closed: {workflowId}"
  | .workflowFailed failure => s!"workflow failed: {failure.text}"
  | .resultTimeout workflowId => s!"timed out waiting for workflow {workflowId}"
  | .invalidArgument reason => s!"invalid argument: {reason}"
  | .unknownWorkflowType name => s!"workflow type not registered with this client: {name}"
  | .store error => s!"store error: {error.message}"
  | .engine error => s!"executor error: {error.message}"

def ofStore : StoreError → ClientError
  | .workflowNotFound workflowId => .workflowNotFound workflowId
  | .alreadyStarted workflowId _ => .alreadyStarted workflowId
  | .runClosed ref => .workflowClosed ref.workflowId
  | error => .store error

def ofEngine : EngineError → ClientError
  | .store error => ofStore error
  | .runClosed ref => .workflowClosed ref.workflowId
  | .query failure => .workflowFailed failure
  | .invalidCronSchedule expression cause =>
      .invalidArgument (EngineError.invalidCronSchedule expression cause).message
  | error => .engine error

end ClientError

structure Client where
  engine : Engine
  config : ClientConfig

namespace Client

def liftEngine {α : Type} (program : Program (Except EngineError α)) :
    Program (Except ClientError α) := do
  match ← program with
  | .ok value => return .ok value
  | .error error => return .error (.ofEngine error)

def start (workflowType workflowId taskQueue : String) (input : Json) (options : WorkflowOptions) :
    Program (Except ClientError Uuid) := do
  let runId ← .request .freshRunId
  let new := NewRun.first ⟨workflowId, runId⟩ workflowType taskQueue input options
  match ← liftEngine (Engine.start new) with
  | .ok ref => return .ok ref.runId
  | .error error => return .error error

def onCurrentRun {α : Type} (workflowId : String) (use : Run → Program (Except ClientError α)) :
    Program (Except ClientError α) := do
  match ← .request (.currentRun workflowId) with
  | .error error => return .error (.ofStore error)
  | .ok run => use run

def forget {α : Type} (program : Program (Except ClientError α)) :
    Program (Except ClientError Unit) := do
  match ← program with
  | .ok _ => return .ok ()
  | .error error => return .error error

def signal (client : Client) (workflowId name : String) (payload : Json) :
    Program (Except ClientError Unit) :=
  onCurrentRun workflowId fun run => do
    let now ← .request .now
    forget (liftEngine (client.engine.signal run.ref ⟨name, payload, now⟩))

def query (client : Client) (workflowId name : String) (args : Json) :
    Program (Except ClientError Json) :=
  onCurrentRun workflowId fun run =>
    if client.engine.registry.contains run.workflowType then
      liftEngine (client.engine.query run.ref name args)
    else return .error (.unknownWorkflowType run.workflowType)

def describe (workflowId : String) : Program (Except ClientError RunSummary) :=
  onCurrentRun workflowId fun run => return .ok (.ofRun run)

def terminate (client : Client) (workflowId reason : String) : Program (Except ClientError Unit) :=
  onCurrentRun workflowId fun run =>
    forget (liftEngine (client.engine.terminate run.ref reason))

def cancel (client : Client) (workflowId reason : String) : Program (Except ClientError Unit) :=
  onCurrentRun workflowId fun run =>
    forget (liftEngine (client.engine.requestCancellation run.ref reason))

def history (workflowId : String) : Program (Except ClientError (List HistoryEvent)) :=
  onCurrentRun workflowId fun run => do
    match ← .request (.readEvents run.ref 0) with
    | .ok events => return .ok events
    | .error error => return .error (.ofStore error)

/-! ## Results -/

inductive ResultLook where
  | finished (result : Except ClientError Json)
  /-- The run failed, and another one continues it. -/
  | follow (next : RunRef)
  | stillRunning
  deriving Repr

/-- A completed run has a result; any other closed run hands over to the next, if there is one. -/
def judge (run : Run) : ResultLook :=
  match run.status, run.nextRunId with
  | .running, _ => .stillRunning
  | .completed, _ => .finished (.ok (run.result.getD .null))
  | _, some next => .follow ⟨run.ref.workflowId, next⟩
  | status, none =>
      .finished (.error (.workflowFailed (run.failure.getD
        (.ofKind .infrastructure s!"workflow closed as {status.name}"))))

def lookForResult (ref : RunRef) : Program ResultLook := do
  match ← .request (.getRun ref) with
  | .error error => return .finished (.error (.ofStore error))
  | .ok run => return judge run

end Client

end Chronicle
