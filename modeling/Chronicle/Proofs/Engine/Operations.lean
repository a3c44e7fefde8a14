import Chronicle.Proofs.Worker.Obeying

/-!
# Operations

What engines, clients, timer services and workers do to a store, and what each of them may write.
-/

namespace Chronicle

def NewRun.withRunId (new : NewRun) (runId : Uuid) : NewRun :=
  { new with ref := ⟨new.ref.workflowId, runId⟩ }

inductive Operation : Type 1 where
  | ask (request : Request) (leavesRuns : request.leavesRuns = true)
  | start (new : NewRun)
  | signal (engine : Engine) (ref : RunRef) (received : Signal)
  | requestCancellation (engine : Engine) (ref : RunRef) (reason : String)
  | terminate (engine : Engine) (ref : RunRef) (reason : String)
  | timeOut (engine : Engine) (ref : RunRef)
  | processTask (engine : Engine) (ref : RunRef)
  | query (engine : Engine) (ref : RunRef) (name : String) (args : Json)
  | clientStart (workflowType workflowId taskQueue : String) (input : Json)
      (options : WorkflowOptions)
  | clientSignal (client : Client) (workflowId name : String) (payload : Json)
  | clientQuery (client : Client) (workflowId name : String) (args : Json)
  | clientDescribe (workflowId : String)
  | clientTerminate (client : Client) (workflowId reason : String)
  | clientCancel (client : Client) (workflowId reason : String)
  | clientHistory (workflowId : String)
  | clientResultRun (workflowId : String)
  | clientResultTurn (client : Client) (moment : Moment) (wait : ResultWait)
  | fireTimer (service : TimerService) (timer : Timer)
  | fireDue (service : TimerService)
  | recordStart (service : ActivityService) (work : ActivityTask)
  | recordHeartbeat (service : ActivityService) (attempt : Attempt) (details : Option Json)
  | recordOutcome (service : ActivityService) (task : LeasedTask) (work : ActivityTask)
      (outcome : AttemptOutcome)
  | beginAttempt (service : ActivityService) (moment : Moment) (task : LeasedTask)
  | continueAttempt (service : ActivityService) (moment : Moment) (attempt : Attempt)
  | workerTurn (worker : Worker) (catalogue : WorkflowRegistry) (moment : Moment)
      (part : WorkerPart)

namespace Operation

def program : Operation → Program Unit
  | .ask request _ => (Program.request request).discard
  | .start new => do
      let runId ← .request .freshRunId
      (Engine.start (new.withRunId runId)).discard
  | .signal engine ref received => (engine.signal ref received).discard
  | .requestCancellation engine ref reason => (engine.requestCancellation ref reason).discard
  | .terminate engine ref reason => (engine.terminate ref reason).discard
  | .timeOut engine ref => (engine.timeOut ref).discard
  | .processTask engine ref => (engine.processTask ref).discard
  | .query engine ref name args => (engine.query ref name args).discard
  | .clientStart workflowType workflowId taskQueue input options =>
      (Client.start workflowType workflowId taskQueue input options).discard
  | .clientSignal client workflowId name payload =>
      (client.signal workflowId name payload).discard
  | .clientQuery client workflowId name args => (client.query workflowId name args).discard
  | .clientDescribe workflowId => (Client.describe workflowId).discard
  | .clientTerminate client workflowId reason => (client.terminate workflowId reason).discard
  | .clientCancel client workflowId reason => (client.cancel workflowId reason).discard
  | .clientHistory workflowId => (Client.history workflowId).discard
  | .clientResultRun workflowId => (Client.resultRun workflowId).discard
  | .clientResultTurn client moment wait => (ResultWait.turn client moment wait).discard
  | .fireTimer service timer => (service.fire timer).discard
  | .fireDue service => service.fireDue.discard
  | .recordStart service work => (service.recordStart work).discard
  | .recordHeartbeat service attempt details => (service.recordHeartbeat attempt details).discard
  | .recordOutcome service task work outcome => (service.conclude task work outcome).discard
  | .beginAttempt service moment task => (service.begin moment task).discard
  | .continueAttempt service moment attempt => (service.turn moment attempt).discard
  | .workerTurn worker catalogue moment part => (worker.partTurn catalogue moment part).discard

def engine? : Operation → Option Engine
  | .signal engine .. | .requestCancellation engine .. | .terminate engine .. | .timeOut engine _
  | .processTask engine _ | .query engine .. => some engine
  | .clientSignal client .. | .clientQuery client .. | .clientTerminate client ..
  | .clientCancel client .. | .clientResultTurn client .. => some client.engine
  | .fireTimer service _ | .fireDue service => some service.engine
  | .recordStart service _ | .recordHeartbeat service .. | .recordOutcome service ..
  | .beginAttempt service .. | .continueAttempt service .. => some service.engine
  | .workerTurn worker catalogue .. => some (worker.engine catalogue)
  | _ => none

/-- The operation processes a workflow task, and writes nothing else. -/
def isTask : Operation → Bool
  | .processTask .. => true
  | .workerTurn _ _ _ part => part.isWorkflowTask
  | _ => false

/-- The runs that the operation may start, under ids that it has drawn. -/
def Begins : Operation → NewRun → Prop
  | .start new, begun => ∃ runId, begun = new.withRunId runId
  | .clientStart workflowType workflowId taskQueue input options, begun =>
      ∃ runId, begun = .first ⟨workflowId, runId⟩ workflowType taskQueue input options
  | _, _ => False

/-- What the operation may write to a run with the given history. -/
def Warrants (operation : Operation) (run : Run) (history : List HistoryEvent) (commit : Commit) :
    Prop :=
  (operation.isTask = false ∧ commit.Notice) ∨
    ∃ engine, operation.engine? = some engine ∧
      (engine.Decided run.ref run history commit ∨ engine.Refused run.ref run history commit)

def charter (operation : Operation) : Charter where
  admits := fun _ => True
  warrants := operation.Warrants
  undecided := fun _ => True

theorem Warrants.tidy {operation : Operation} {run : Run} {history : List HistoryEvent}
    {commit : Commit} (warranted : operation.Warrants run history commit) : commit.Tidy := by
  rcases warranted with ⟨-, notice⟩ | ⟨engine, -, decided | refused⟩
  · exact notice.tidy
  · exact decided.batch.1
  · obtain ⟨-, reason, -, hwrites⟩ := refused
    exact (Engine.tidy_of_forceClose rfl rfl hwrites).1

theorem allowsNotices {operation : Operation} (hother : operation.isTask = false) :
    operation.charter.AllowsNotices where
  admits := fun _ _ => trivial
  undecided := fun _ => trivial
  notices := fun _ _ _ dispatch => .inl ⟨hother, dispatch.toNotice⟩

theorem allowsTasks {operation : Operation} {engine : Engine}
    (hengine : operation.engine? = some engine) : operation.charter.AllowsTasks engine where
  admits := fun _ _ => trivial
  undecided := fun _ => trivial
  decided := fun _ _ _ _ decided => .inr ⟨engine, hengine, .inl (decided.1 ▸ decided)⟩
  refused := fun _ _ _ _ refused => .inr ⟨engine, hengine, .inr (refused.1 ▸ refused)⟩

/-- An operation obeys every charter that lets it start its runs, and lets it write notices or
process workflow tasks, whichever of the two it does. -/
theorem program_obeys_of {charter : Charter} (operation : Operation)
    (begins : ∀ new, operation.Begins new → charter.admits (.createRun new))
    (notices : operation.isTask = false → charter.AllowsNotices)
    (tasks : operation.isTask = true → ∀ engine, operation.engine? = some engine →
      charter.AllowsTasks engine) : operation.program.Obeys charter := by
  cases operation with
  | ask request leavesRuns =>
      exact (Program.Obeys.ask (notices rfl).toAllowsRequests leavesRuns).discard
  | start new =>
      intro knowledge
      have allows := notices rfl
      apply Program.Keeps.inquire allows.inquiries rfl (allows.undecided _)
      intro runId _
      apply Program.Keeps.bind
      exact (Engine.start_keeps allows (new.withRunId runId) (begins _ ⟨runId, rfl⟩)
        List.mem_cons_self).weaken fun _ _ _ => trivial
  | processTask engine ref => exact (Program.Obeys.processTask (tasks rfl engine rfl) ref).discard
  | signal engine ref received => exact (Engine.signal_obeys (notices rfl) ref received).discard
  | requestCancellation engine ref reason =>
      exact (Engine.requestCancellation_obeys (notices rfl) ref reason).discard
  | terminate engine ref reason =>
      exact (Engine.terminate_obeys (notices rfl) ref reason).discard
  | timeOut engine ref => exact (Engine.timeOut_obeys (notices rfl) ref).discard
  | query engine ref name args =>
      exact (Engine.query_obeys (notices rfl) ref name args).discard
  | clientStart workflowType workflowId taskQueue input options =>
      exact (Client.start_obeys (notices rfl) _ _ _ input options fun runId =>
        begins _ ⟨runId, rfl⟩).discard
  | clientSignal client workflowId name payload =>
      exact (Client.signal_obeys (notices rfl) workflowId name payload).discard
  | clientQuery client workflowId name args =>
      exact (Client.query_obeys (notices rfl) workflowId name args).discard
  | clientDescribe workflowId =>
      exact (Client.onCurrentRun_obeys (notices rfl) workflowId fun run => .pure _).discard
  | clientTerminate client workflowId reason =>
      exact (Client.terminate_obeys (notices rfl) workflowId reason).discard
  | clientCancel client workflowId reason =>
      exact (Client.cancel_obeys (notices rfl) workflowId reason).discard
  | clientHistory workflowId =>
      exact (Client.history_obeys (notices rfl) workflowId).discard
  | clientResultRun workflowId =>
      exact (Client.onCurrentRun_obeys (notices rfl) workflowId fun run => .pure _).discard
  | clientResultTurn client moment wait =>
      exact (ResultWait.follow_obeys (notices rfl) _ moment _ wait).discard
  | fireTimer service timer => exact (TimerService.fire_obeys (notices rfl) timer).discard
  | fireDue service => exact (TimerService.drain_obeys (notices rfl) _ _).discard
  | recordStart service work =>
      exact (ActivityService.recordStart_obeys (notices rfl) work).discard
  | recordHeartbeat service attempt details =>
      exact (ActivityService.recordHeartbeat_obeys (notices rfl) attempt details).discard
  | recordOutcome service task work outcome =>
      exact (ActivityService.conclude_obeys (notices rfl) task work outcome).discard
  | beginAttempt service moment task =>
      exact (ActivityService.begin_obeys (notices rfl) moment task).discard
  | continueAttempt service moment attempt =>
      exact (ActivityService.drive_obeys (notices rfl) moment _ attempt).discard
  | workerTurn worker catalogue moment part =>
      exact (Worker.partTurn_obeys notices (fun htask => tasks htask _ rfl) moment).discard

theorem program_obeys (operation : Operation) : operation.program.Obeys operation.charter :=
  operation.program_obeys_of (fun _ _ => trivial) allowsNotices fun _ _ => allowsTasks

end Operation

end Chronicle
