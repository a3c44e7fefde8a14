import Chronicle.Proofs.Engine.Obeying
import Chronicle.Worker.Basic

/-!
# Charters for workers

A worker polls for tasks, makes attempts, processes workflow tasks and fires timers.  All that it
writes are notices and what its engine decides.
-/

namespace Chronicle

/-! ## Attempts -/

namespace ActivityService

variable {charter : Charter} {service : ActivityService}

theorem release_obeys (allows : charter.AllowsNotices) (task : LeasedTask) (report : AttemptReport) :
    (release task report).Obeys charter := by
  apply Program.Obeys.bind (.ask allows.toAllowsRequests rfl)
  intro result
  split <;> exact .pure _

theorem recordStart_obeys (allows : charter.AllowsNotices) (work : ActivityTask) :
    (service.recordStart work).Obeys charter := by
  apply Program.Obeys.bind (.revise allows (startReviser_dispatches _ work) _)
  intro result
  split <;> exact .pure _

theorem recordHeartbeat_obeys (allows : charter.AllowsNotices) (attempt : Attempt)
    (details : Option Json) : (service.recordHeartbeat attempt details).Obeys charter := by
  apply Program.Obeys.bind (.revise allows (heartbeatReviser_dispatches _ details) _)
  intro result
  split <;> exact .pure _

theorem renewLease_obeys (allows : charter.AllowsNotices) (attempt : Attempt) :
    (service.renewLease attempt).Obeys charter := by
  apply Program.Obeys.bind (.ask allows.toAllowsRequests rfl)
  intro result
  split <;> exact .pure _

theorem conclude_obeys (allows : charter.AllowsNotices) (task : LeasedTask) (work : ActivityTask)
    (outcome : AttemptOutcome) : (service.conclude task work outcome).Obeys charter := by
  apply Program.Obeys.bind (.revise allows (AttemptOutcome.reviser_dispatches _ _ outcome) _)
  intro result
  split
  · exact release_obeys allows _ _
  · exact release_obeys allows _ _
  · exact .pure _

theorem drive_obeys (allows : charter.AllowsNotices) (moment : Moment) (limit : Nat)
    (attempt : Attempt) : (service.drive moment limit attempt).Obeys charter := by
  induction limit generalizing attempt with
  | zero => exact .crash allows.undecided _
  | succ limit ih =>
      unfold drive
      simp only
      split
      · exact conclude_obeys allows _ _ _
      · split
        · exact conclude_obeys allows _ _ _
        · split
          · exact conclude_obeys allows _ _ _
          · split
            · apply (recordHeartbeat_obeys allows _ _).bind
              intro attempt
              apply (renewLease_obeys allows attempt).bind
              intro renewed
              cases renewed with
              | none => exact .pure _
              | some attempt => exact ih attempt
            · split
              · apply (renewLease_obeys allows _).bind
                intro renewed
                cases renewed with
                | none => exact .pure _
                | some attempt => exact ih attempt
              · exact .pure _

theorem begin_obeys (allows : charter.AllowsNotices) (moment : Moment) (task : LeasedTask) :
    (service.begin moment task).Obeys charter := by
  unfold begin
  split
  · exact release_obeys allows _ _
  · apply (recordStart_obeys allows _).bind
    intro result
    split
    · exact .pure _
    · exact release_obeys allows _ _
    · split
      · exact drive_obeys allows _ _ _
      · exact conclude_obeys allows _ _ _

end ActivityService

/-! ## Polling -/

theorem LongPoll.start_obeys {charter : Charter} (allows : charter.AllowsNotices)
    (request : PollRequest) (moment : Moment) : (start request moment).Obeys charter := by
  apply Program.Obeys.bind (.ask allows.toAllowsRequests rfl)
  intro result
  cases result <;> exact .pure _

theorem LongPoll.look_obeys {charter : Charter} (allows : charter.AllowsNotices) (poll : LongPoll)
    (moment : Moment) : (poll.look moment).Obeys charter := by
  apply Program.Obeys.bind (.ask allows.toAllowsRequests rfl)
  intro seen
  apply Program.Obeys.bind (.ask allows.toAllowsRequests rfl)
  intro claim
  cases claim with
  | claimed task => exact .pure _
  | nothing next =>
      simp only
      split
      · exact .pure _
      · apply Program.Obeys.bind (.ask allows.toAllowsRequests rfl)
        intro now
        exact .pure _

namespace TaskLoop

variable {charter : Charter} {again : Poller → Nat → List LeasedTask → Program Turn}

theorem afterPoll_obeys (hagain : ∀ poller free claimed, (again poller free claimed).Obeys charter)
    (moment : Moment) (poller : Poller) (free : Nat) (claimed : List LeasedTask)
    (result : Except StoreError (Option LeasedTask)) :
    (afterPoll moment again poller free claimed result).Obeys charter := by
  unfold afterPoll
  split
  · exact .pure _
  · exact hagain _ _ _
  · split
    · exact hagain _ _ _
    · exact .pure _

theorem look_obeys (allows : charter.AllowsNotices)
    (hagain : ∀ poller free claimed, (again poller free claimed).Obeys charter) (moment : Moment)
    (poller : Poller) (free : Nat) (claimed : List LeasedTask) (poll : LongPoll) :
    (look moment again poller free claimed poll).Obeys charter := by
  apply (LongPoll.look_obeys allows poll moment).bind
  intro result
  cases result with
  | waiting poll => exact .pure _
  | finished task => exact afterPoll_obeys hagain moment poller free claimed (.ok task)

theorem seek_obeys (allows : charter.AllowsNotices) (moment : Moment) (stopping : Bool) (limit : Nat)
    (poller : Poller) (free : Nat) (claimed : List LeasedTask) :
    (seek moment stopping limit poller free claimed).Obeys charter := by
  induction limit generalizing poller free claimed with
  | zero => exact .crash allows.undecided _
  | succ limit ih =>
      unfold seek
      split
      · exact .pure _
      · split
        · exact .pure _
        · apply (LongPoll.start_obeys allows _ moment).bind
          intro result
          cases result with
          | error error => exact afterPoll_obeys ih moment poller free claimed (.error error)
          | ok poll => exact look_obeys allows ih moment poller free claimed poll

theorem turn_obeys (allows : charter.AllowsNotices) (moment : Moment) (stopping : Bool) (free : Nat)
    (loop : TaskLoop) : (loop.turn moment stopping free).Obeys charter := by
  unfold turn
  split
  · split
    · exact .pure _
    · exact look_obeys allows (seek_obeys allows moment stopping _) moment _ _ _ _
  · exact seek_obeys allows moment stopping _ _ _ _

end TaskLoop

/-! ## Turns -/

/-- A workflow task that was claimed and not begun yet. -/
def WorkerPart.isWorkflowTask : WorkerPart → Bool
  | .claimed task =>
      match task.work with
      | .workflow .. => true
      | .activity _ => false
  | _ => false

namespace Worker

variable {charter : Charter} {worker : Worker}

theorem failTask_obeys (allows : charter.AllowsRequests) (task : LeasedTask) (error : EngineError) :
    (worker.failTask task error).Obeys charter := by
  apply Program.Obeys.bind (.ask allows rfl)
  intro result
  exact .pure _

theorem runWorkflowTask_obeys {catalogue : WorkflowRegistry}
    (allows : charter.AllowsTasks (worker.engine catalogue)) (task : LeasedTask) :
    (worker.runWorkflowTask catalogue task).Obeys charter := by
  apply Program.Obeys.bind (.processTask allows _)
  intro result
  cases result with
  | error error => exact failTask_obeys allows.toAllowsRequests task error
  | ok result =>
      apply Program.Obeys.bind (.ask allows.toAllowsRequests rfl)
      intro result
      exact .pure _

theorem afterAttempt_obeys (allows : charter.AllowsNotices) (task : LeasedTask)
    (turn : Attempt.Turn) : (worker.afterAttempt task turn).Obeys charter := by
  unfold afterAttempt
  split
  · exact .pure _
  · exact .pure _
  · apply (failTask_obeys allows.toAllowsRequests task _).bind
    intro result
    exact .pure _

theorem tick_obeys {catalogue : WorkflowRegistry} (allows : charter.AllowsNotices) (moment : Moment)
    (ticksAt : Option Moment) : (worker.tick catalogue moment ticksAt).Obeys charter := by
  unfold tick
  simp only
  split
  · exact .pure _
  · split
    · exact .pure _
    · apply (TimerService.drain_obeys allows _ _).bind
      intro fired
      exact .pure _

theorem partTurn_obeys {catalogue : WorkflowRegistry} {part : WorkerPart}
    (notices : part.isWorkflowTask = false → charter.AllowsNotices)
    (tasks : part.isWorkflowTask = true → charter.AllowsTasks (worker.engine catalogue))
    (moment : Moment) : (worker.partTurn catalogue moment part).Obeys charter := by
  cases part with
  | taskLoop kind loop =>
      apply (TaskLoop.turn_obeys (notices rfl) moment _ _ loop).bind
      intro turn
      exact .pure _
  | ticker ticksAt => exact tick_obeys (notices rfl) moment ticksAt
  | running attempt =>
      apply (ActivityService.drive_obeys (notices rfl) moment _ attempt).bind
      intro turn
      exact afterAttempt_obeys (notices rfl) _ turn
  | claimed task =>
      cases hwork : task.work with
      | workflow ref workflowType =>
          have allows := tasks (by simp only [WorkerPart.isWorkflowTask, hwork])
          simp only [partTurn, hwork]
          apply (runWorkflowTask_obeys allows task).bind
          intro result
          exact .pure _
      | activity work =>
          have allows := notices (by simp only [WorkerPart.isWorkflowTask, hwork])
          simp only [partTurn, hwork]
          apply (ActivityService.begin_obeys allows moment task).bind
          intro turn
          exact afterAttempt_obeys allows _ turn

end Worker

end Chronicle
