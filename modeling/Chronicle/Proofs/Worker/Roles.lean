import Chronicle.Proofs.Program.Company
import Chronicle.Proofs.Worker.Playing
import Chronicle.Samples.Activities

/-!
# Roles

Who works on a store: engines, clients and timer services with single operations, and workers that
poll for a task and work on it.  A worker may stop at any time, and its lease runs out then; when it
comes back, it goes on with a task that may have been handed to somebody else.
-/

namespace Chronicle

open Relation (ReflTransGen)

/-! ## Workers -/

namespace Worker

/-- Works on a task, turn by turn, until the task has ended or there are no more turns. -/
def follow (worker : Worker) (catalogue : WorkflowRegistry) : List Moment → WorkerPart → Program Unit
  | [], _ => return ()
  | moment :: rest, part => do
      match (← worker.partTurn catalogue moment part).rest with
      | some next => follow worker catalogue rest next
      | none => return ()

/-- Looks for a task once, and works on it if there is one. -/
def serve (worker : Worker) (catalogue : WorkflowRegistry) (poll : LongPoll) (moment : Moment)
    (moments : List Moment) : Program Unit := do
  match ← poll.look moment with
  | .finished (some task) => worker.follow catalogue moments (.claimed task)
  | _ => return ()

variable {rules : Rules} {fires : Prop} {worker : Worker} {catalogue : WorkflowRegistry}

theorem follow_plays (lawful : rules.Lawful) (decides : rules.decides (worker.engine catalogue))
    (moments : List Moment) {part : WorkerPart} {store : Store} (sane : Sane rules store)
    (sound : part.Sound store) :
    (worker.follow catalogue moments part).Plays rules fires (fun _ _ => True) store := by
  induction moments generalizing part store with
  | nil => trivial
  | cons moment rest ih =>
      apply Program.Plays.bind
      apply ((partTurn_plays lawful decides moment sane sound).sane lawful sane).weaken
      rintro turn later ⟨hsound, hsane⟩
      cases hnext : turn.rest with
      | none => trivial
      | some next => exact ih hsane (hsound next hnext)

theorem serve_plays (lawful : rules.Lawful) (decides : rules.decides (worker.engine catalogue))
    (poll : LongPoll) (moment : Moment) (moments : List Moment) :
    (worker.serve catalogue poll moment moments).PlaysAnywhere rules fires := by
  intro store
  unfold serve LongPoll.look
  apply Program.Plays.bind
  apply Program.Plays.ask rfl
  intro seen first early
  apply Program.Plays.request
  intro world leads sane
  refine ⟨trivial, ?_⟩
  intro claim after answered _
  cases claim with
  | nothing next =>
      simp only
      split
      · trivial
      · exact Program.Plays.ask rfl fun _ _ _ => trivial
  | claimed task =>
      obtain ⟨now, tasks, -, hclaim, rfl⟩ := World.answer_claimTask answered
      have moved : Move rules True world.store { world.store with tasks := tasks } :=
        .claimed hclaim
      exact follow_plays lawful decides moments (sane.move lawful moved)
        (Store.leased_of_claim sane hclaim)

theorem follow_obeys {charter : Charter} (notices : charter.AllowsNotices)
    (tasks : charter.AllowsTasks (worker.engine catalogue)) (moments : List Moment)
    (part : WorkerPart) : (worker.follow catalogue moments part).Obeys charter := by
  induction moments generalizing part with
  | nil => exact .pure ()
  | cons moment rest ih =>
      apply (partTurn_obeys (fun _ => notices) (fun _ => tasks) moment).bind
      intro turn
      cases hnext : turn.rest with
      | none => exact .pure ()
      | some next => exact ih next

theorem serve_obeys {charter : Charter} (notices : charter.AllowsNotices)
    (tasks : charter.AllowsTasks (worker.engine catalogue)) (poll : LongPoll) (moment : Moment)
    (moments : List Moment) : (worker.serve catalogue poll moment moments).Obeys charter := by
  apply (LongPoll.look_obeys notices poll moment).bind
  intro look
  split
  · exact follow_obeys notices tasks moments _
  · exact .pure ()

end Worker

/-! ## Roles -/

/-- An operation that needs no lease: all but those of workers, and requests that only workers and
timer services make. -/
def Operation.isPlain : Operation → Bool
  | .ask request _ => request.isFree
  | .recordStart .. | .recordHeartbeat .. | .recordOutcome .. | .beginAttempt ..
  | .continueAttempt .. | .workerTurn .. => false
  | _ => true

/-- The operation of a timer service. -/
def Operation.firesTimers : Operation → Bool
  | .fireTimer .. | .fireDue _ => true
  | _ => false

inductive Role : Type 1 where
  | operate (operation : Operation) (isPlain : operation.isPlain = true)
  | serve (worker : Worker) (catalogue : WorkflowRegistry) (poll : LongPoll) (moment : Moment)
      (moments : List Moment)

namespace Role

def program : Role → Program Unit
  | .operate operation _ => operation.program
  | .serve worker catalogue poll moment moments => worker.serve catalogue poll moment moments

def engine? : Role → Option Engine
  | .operate operation _ => operation.engine?
  | .serve worker catalogue .. => some (worker.engine catalogue)

def firesTimers : Role → Bool
  | .operate operation _ => operation.firesTimers
  | .serve .. => false

theorem program_obeys (role : Role) : role.program.Obeys .permissive := by
  cases role with
  | operate operation isPlain =>
      intro knowledge
      exact (operation.program_obeys knowledge).permissive
  | serve worker catalogue poll moment moments =>
      apply Worker.serve_obeys
      · exact { admits := fun _ _ => trivial, undecided := fun _ => trivial,
                notices := fun _ _ _ _ => trivial }
      · exact { admits := fun _ _ => trivial, undecided := fun _ => trivial,
                decided := fun _ _ _ _ _ => trivial, refused := fun _ _ _ _ _ => trivial }

variable {rules : Rules} {fires : Prop}

theorem program_plays (lawful : rules.Lawful) (role : Role)
    (decides : ∀ engine, role.engine? = some engine → rules.decides engine)
    (hfires : role.firesTimers = true → fires) : role.program.PlaysAnywhere rules fires := by
  cases role with
  | serve worker catalogue poll moment moments =>
      exact Worker.serve_plays lawful (decides _ rfl) poll moment moments
  | operate operation isPlain =>
      cases operation with
      | ask request leavesRuns => exact Program.PlaysAnywhere.discard (.ask isPlain)
      | start new =>
          apply Program.PlaysAnywhere.bind (.ask rfl)
          intro runId
          exact (Engine.start_plays _).discard
      | signal engine ref received => exact (Engine.signal_plays ref received).discard
      | requestCancellation engine ref reason =>
          exact (Engine.requestCancellation_plays ref reason).discard
      | terminate engine ref reason => exact (Engine.terminate_plays ref reason).discard
      | timeOut engine ref => exact (Engine.timeOut_plays ref).discard
      | processTask engine ref =>
          have processes : (engine.processTask ref).PlaysAnywhere rules fires := fun store =>
            (Engine.processTask_plays lawful (decides engine rfl) store).weaken fun _ _ _ => trivial
          exact processes.discard
      | query engine ref name args => exact (Engine.query_plays ref name args).discard
      | clientStart workflowType workflowId taskQueue input options =>
          exact (Client.start_plays _ _ _ input options).discard
      | clientSignal client workflowId name payload =>
          exact (Client.signal_plays workflowId name payload).discard
      | clientQuery client workflowId name args =>
          exact (Client.query_plays workflowId name args).discard
      | clientDescribe workflowId => exact (Client.describe_plays workflowId).discard
      | clientTerminate client workflowId reason =>
          exact (Client.terminate_plays workflowId reason).discard
      | clientCancel client workflowId reason =>
          exact (Client.cancel_plays workflowId reason).discard
      | clientHistory workflowId => exact (Client.history_plays workflowId).discard
      | clientResultRun workflowId => exact (Client.resultRun_plays workflowId).discard
      | clientResultTurn client moment wait =>
          exact (ResultWait.follow_plays _ moment _ wait).discard
      | fireTimer service timer =>
          obtain rfl : fires = True := eq_true (hfires rfl)
          exact (TimerService.fire_plays timer).discard
      | fireDue service =>
          obtain rfl : fires = True := eq_true (hfires rfl)
          exact (TimerService.drain_plays _ _).discard
      | recordStart service work => cases isPlain
      | recordHeartbeat service attempt details => cases isPlain
      | recordOutcome service task work outcome => cases isPlain
      | beginAttempt service moment task => cases isPlain
      | continueAttempt service moment attempt => cases isPlain
      | workerTurn worker catalogue moment part => cases isPlain

/-! ## An errand -/

def errandEngine : Engine := ⟨⟨[Samples.errand]⟩, .standard⟩

def errandStart : Role :=
  .operate (.start (.first Operation.sampleRun "errand" "default" .null .standard)) rfl

def errandTask : Role := .operate (.processTask errandEngine Operation.sampleRun) rfl

def courier : Worker :=
  ⟨.standard "courier", .standard, [], ⟨[Samples.deliver]⟩, .running, false, [], []⟩

/-- The courier looks for a delivery once, and works on it until the attempt has ended. -/
def delivery : Role := .serve courier ⟨[]⟩ ⟨courier.pollRequest .activity, 0, 0, 0⟩ 0 [0]

end Role

end Chronicle
