import Chronicle.Proofs.Engine.Timeliness
import Chronicle.Proofs.Worker.Roles

/-!
# Workers keep to the time

A worker sets timers for the tasks that it was handed only.  It ends an attempt for lack of time when
its own clock has come as far from the turn in which the time began as the limit of the task says.
-/

namespace Chronicle

variable {works : List ActivityTask} {moments : List Moment} {moment : Moment}

/-! ## Attempts -/

/-- Between two of the moments there is time enough for the span. -/
def Outlast (moments : List Moment) (span : Span) : Prop :=
  ∃ begun ∈ moments, ∃ reached ∈ moments, Moment.after begun span ≤ reached

/-- What behaviours pause with at the moment: sleeps last beyond it, and no outcome is a timeout. -/
def Pause.IsFresh (moment : Moment) : Pause → Prop
  | .sleeping wakesAt _ => moment < wakesAt
  | .ended (.timedOut _) => False
  | _ => True

theorem Behaviour.advance_isFresh (moment : Moment) (behaviour : Behaviour)
    (context : ActivityContext) : (behaviour.advance moment context).1.IsFresh moment := by
  induction behaviour generalizing context with
  | finish result => cases result <;> trivial
  | panic cause => trivial
  | sleep span next ih =>
      unfold advance
      split
      · exact ih context
      · rename_i hlong
        simp only [Span.isZero, decide_eq_true_eq] at hlong
        exact Nat.lt_add_of_pos_right (Nat.pos_of_ne_zero hlong)
  | heartbeat details next ih =>
      unfold advance
      split
      · exact ih _ _
      · exact ih _ _
      · trivial
  | awaitCancellation next ih =>
      unfold advance
      split
      · exact ih context
      · trivial
  | askCancelled next ih => exact ih _ context

/-- A pause that is not the end goes on, or it is as if it had just begun. -/
theorem Pause.resume_cases (moment : Moment) (context : ActivityContext) (pause : Pause) :
    (pause.resume moment context).1.IsFresh moment ∨
      ∃ outcome, pause = .ended outcome ∧ (pause.resume moment context).1 = pause := by
  cases pause with
  | ended outcome => exact .inr ⟨outcome, rfl, rfl⟩
  | sleeping wakesAt next =>
      left
      rw [resume]
      split
      · exact next.advance_isFresh moment context
      · rename_i hasleep
        exact Nat.lt_of_not_le hasleep
  | sending details next =>
      left
      rw [resume]
      split
      · exact Behaviour.advance_isFresh moment _ _
      · exact Behaviour.advance_isFresh moment _ _
      · trivial
  | awaitingCancellation next =>
      left
      rw [resume]
      split
      · exact next.advance_isFresh moment context
      · trivial

theorem Pause.IsFresh.not_timedOut {pause : Pause} (fresh : pause.IsFresh moment)
    (timeout : TimeoutType) : pause ≠ .ended (.timedOut timeout) := by
  rintro rfl
  exact fresh

theorem Pause.resume_not_timedOut {pause : Pause} (moment : Moment) (context : ActivityContext)
    {timeout : TimeoutType} (h : pause ≠ .ended (.timedOut timeout)) :
    (pause.resume moment context).1 ≠ .ended (.timedOut timeout) := by
  obtain fresh | ⟨outcome, -, hsame⟩ := pause.resume_cases moment context
  · exact fresh.not_timedOut timeout
  · rwa [hsame]

/-- The deadlines of the attempt count from moments of its worker. -/
structure Attempt.KeepsTime (attempt : Attempt) (moments : List Moment) (works : List ActivityTask) :
    Prop where
  work : attempt.work ∈ works
  deadline : ∃ begun ∈ moments,
    attempt.deadline = Moment.after begun attempt.work.options.attemptTimeout
  silence : ∀ deadline, attempt.heartbeatDeadline = some deadline → ∃ begun ∈ moments, ∃ timeout,
    attempt.work.options.heartbeatTimeout = some timeout ∧ deadline = Moment.after begun timeout
  pause : ∀ timeout, attempt.pause ≠ .ended (.timedOut timeout)

namespace Attempt.KeepsTime

variable {attempt : Attempt}

theorem resume (keeps : attempt.KeepsTime moments works) (moment : Moment) :
    (attempt.resume moment).KeepsTime moments works where
  work := keeps.work
  deadline := keeps.deadline
  silence := keeps.silence
  pause := fun timeout => Pause.resume_not_timedOut moment _ (keeps.pause timeout)

theorem cancel (keeps : attempt.KeepsTime moments works) :
    attempt.cancel.KeepsTime moments works :=
  ⟨keeps.work, keeps.deadline, keeps.silence, keeps.pause⟩

theorem raises_late (keeps : attempt.KeepsTime moments works) (hmoment : moment ∈ moments)
    (hlate : attempt.deadline ≤ moment) :
    (Charge.ofWorks works).Raises (Outlast moments) attempt.work.run
      (.activityAttempt attempt.work.activityId attempt.work.attempt) := by
  obtain ⟨begun, hbegun, hdeadline⟩ := keeps.deadline
  refine .inr ⟨attempt.work, keeps.work, rfl, attempt.work.options.attemptTimeout, ?_, begun, hbegun,
    moment, hmoment, hdeadline ▸ hlate⟩
  simp [ActivityTask.limit?, AttemptOutcome.attemptTimers, ActivityOptions.limit?]

theorem raises_silent (keeps : attempt.KeepsTime moments works) (hmoment : moment ∈ moments)
    (hsilent : attempt.isSilent moment = true) :
    (Charge.ofWorks works).Raises (Outlast moments) attempt.work.run
      (.activityHeartbeat attempt.work.activityId attempt.work.attempt) := by
  unfold isSilent at hsilent
  split at hsilent
  · rename_i deadline hsome
    obtain ⟨begun, hbegun, timeout, htimeout, hdeadline⟩ := keeps.silence deadline hsome
    refine .inr ⟨attempt.work, keeps.work, rfl, timeout, ?_, begun, hbegun, moment, hmoment,
      hdeadline ▸ of_decide_eq_true hsilent⟩
    simp [ActivityTask.limit?, AttemptOutcome.attemptTimers, ActivityOptions.limit?, htimeout]
  · cases hsilent

end Attempt.KeepsTime

namespace ActivityService

variable {service : ActivityService} {work : ActivityTask} {outlasts : Span → Prop}

theorem startReviser_allowed (hwork : work ∈ works) (workerId : String) (run : Run)
    (history : List HistoryEvent) :
    (startReviser workerId work run (.ofHistory history)).Allowed outlasts (.ofWorks works) work.run
      history := by
  unfold startReviser
  split
  · trivial
  · split
    · trivial
    · intro now
      constructor
      case alarms =>
        intro purpose hmem
        simp [Commit.alarms, Commit.ofEvents, Event.alarm?] at hmem
      case timers =>
        intro timer hmem
        simp only [startTimers, List.mem_cons] at hmem
        rcases hmem with rfl | hsilence
        · refine ⟨rfl, ⟨now, _, _⟩, rfl, ⟨Instant.min_century_le _, rfl⟩, .inr ⟨work, hwork, rfl, ?_⟩⟩
          simp [ActivityTask.limit?, AttemptOutcome.attemptTimers, ActivityOptions.limit?]
        · cases htimeout : work.options.heartbeatTimeout <;> simp [htimeout] at hsilence
          subst hsilence
          refine ⟨rfl, ⟨now, _, _⟩, rfl, ⟨Instant.min_century_le _, rfl⟩, .inr ⟨work, hwork, rfl, ?_⟩⟩
          simp [ActivityTask.limit?, AttemptOutcome.attemptTimers, ActivityOptions.limit?, htimeout]

theorem heartbeatReviser_allowed (hwork : work ∈ works) (details : Option Json) (run : Run)
    (history : List HistoryEvent) :
    (heartbeatReviser work details run (.ofHistory history)).Allowed outlasts (.ofWorks works) work.run
      history := by
  unfold heartbeatReviser
  split
  · trivial
  · simp only
    split
    · exact .of_plain rfl rfl
    · rename_i timeout htimeout
      intro now
      constructor
      case alarms =>
        intro purpose hmem
        simp [Commit.alarms, Commit.ofEvents, Event.alarm?] at hmem
      case timers =>
        intro timer hmem
        rw [List.mem_singleton.1 hmem]
        refine ⟨rfl, ⟨now, _, _⟩, rfl, ⟨Instant.min_century_le _, rfl⟩, .inr ⟨work, hwork, rfl, ?_⟩⟩
        simp [ActivityTask.limit?, AttemptOutcome.attemptTimers, ActivityOptions.limit?, htimeout]

/-- An attempt that goes on keeps to the time. -/
def TurnKeepsTime (moments : List Moment) (works : List ActivityTask) : Attempt.Turn → Prop
  | .waiting attempt => attempt.KeepsTime moments works
  | .finished _ => True

theorem release_onTime (task : LeasedTask) (report : AttemptReport) :
    (release task report).OnTime outlasts works (TurnKeepsTime moments works) := by
  apply (Program.OnTime.ask rfl).bind
  intro result _
  split <;> exact .pure trivial

theorem recordStart_onTime (hwork : work ∈ works) :
    (service.recordStart work).OnTime outlasts works fun _ => True := by
  apply (Program.OnTime.revise service.engine fun run history _ =>
    startReviser_allowed hwork service.workerId run history).bind
  intro result _
  split <;> exact .pure trivial

theorem recordHeartbeat_onTime {attempt : Attempt} (keeps : attempt.KeepsTime moments works)
    (details : Option Json) :
    (service.recordHeartbeat attempt details).OnTime outlasts works
      fun later => later.KeepsTime moments works := by
  apply (Program.OnTime.revise service.engine fun run history _ =>
    heartbeatReviser_allowed keeps.work details run history).bind
  intro result _
  split
  · exact .pure keeps
  · exact .pure keeps.cancel
  · exact .pure keeps.cancel
  · exact .pure keeps

theorem renewLease_onTime {attempt : Attempt} (keeps : attempt.KeepsTime moments works) :
    (service.renewLease attempt).OnTime outlasts works fun renewed =>
      ∀ later ∈ renewed, later.KeepsTime moments works := by
  apply (Program.OnTime.ask rfl).bind
  intro result _
  split
  · apply Program.OnTime.pure
    rintro later ⟨⟩
    split
    · exact keeps.cancel
    · exact keeps
  · exact .pure fun later hnone => nomatch hnone
  · exact .pure fun later hnone => nomatch hnone
  · apply Program.OnTime.pure
    rintro later ⟨⟩
    exact keeps

theorem conclude_onTime {outcome : AttemptOutcome}
    (raises : ∀ purpose, outcome.alarm? work.activityId work.attempt = some purpose →
      (Charge.ofWorks works).Raises outlasts work.run purpose) (task : LeasedTask) :
    (service.conclude task work outcome).OnTime outlasts works (TurnKeepsTime moments works) := by
  apply (Program.OnTime.revise service.engine fun run history href =>
    AttemptOutcome.reviser_allowed href raises).bind
  intro result _
  split
  · exact release_onTime _ _
  · exact release_onTime _ _
  · exact .pure trivial

/-- An attempt ends for lack of time when its worker has reached a deadline of its own. -/
theorem drive_onTime (hmoment : moment ∈ moments) (limit : Nat) {attempt : Attempt}
    (keeps : attempt.KeepsTime moments works) :
    (service.drive moment limit attempt).OnTime (Outlast moments) works
      (TurnKeepsTime moments works) := by
  induction limit generalizing attempt with
  | zero => exact .crash _ _
  | succ limit ih =>
      have resumed := keeps.resume moment
      unfold drive
      simp only
      split
      · -- the handler has come to its end
        rename_i outcome hended
        apply conclude_onTime
        intro purpose halarm
        cases outcome with
        | timedOut timeout => exact absurd hended (resumed.pause timeout)
        | _ => cases halarm
      · split
        · -- the time of the attempt is up
          rename_i hlate
          apply conclude_onTime
          rintro _ ⟨⟩
          exact resumed.raises_late hmoment hlate
        · split
          · -- nothing has been heard of the handler for too long
            rename_i hsilent
            apply conclude_onTime
            rintro _ ⟨⟩
            exact resumed.raises_silent hmoment hsilent
          · split
            · -- a heartbeat sets the deadline for the next one
              rename_i details context hreceived
              have beating : { attempt.resume moment with
                  context := context
                  heartbeatDeadline := (attempt.resume moment).work.options.heartbeatTimeout.map
                    (Moment.after moment) }.KeepsTime moments works := by
                refine ⟨resumed.work, resumed.deadline, ?_, resumed.pause⟩
                intro deadline hdeadline
                obtain ⟨timeout, htimeout, rfl⟩ := Option.map_eq_some_iff.1 hdeadline
                exact ⟨moment, hmoment, timeout, htimeout, rfl⟩
              apply (recordHeartbeat_onTime beating _).bind
              intro beaten hbeaten
              apply (renewLease_onTime hbeaten).bind
              intro renewed hrenewed
              cases renewed with
              | none => exact .pure trivial
              | some later => exact ih (hrenewed later rfl)
            · split
              · -- the lease is renewed, which moves no deadline
                have postponed : { attempt.resume moment with
                    renewAt := (attempt.resume moment).renewAt + service.renewalPeriod }.KeepsTime
                      moments works :=
                  ⟨resumed.work, resumed.deadline, resumed.silence, resumed.pause⟩
                apply (renewLease_onTime postponed).bind
                intro renewed hrenewed
                cases renewed with
                | none => exact .pure trivial
                | some later => exact ih (hrenewed later rfl)
              · exact .pure resumed

theorem begin_onTime (hmoment : moment ∈ moments) {task : LeasedTask}
    (hwork : ∀ work, task.work = .activity work → work ∈ works) :
    (service.begin moment task).OnTime (Outlast moments) works
      (TurnKeepsTime moments works) := by
  unfold begin
  split
  · exact release_onTime _ _
  · rename_i work htask
    have hgiven := hwork work htask
    apply (recordStart_onTime hgiven).bind
    intro result _
    split
    · exact .pure trivial
    · exact release_onTime _ _
    · split
      · rename_i type hfind
        apply drive_onTime hmoment
        refine ⟨hgiven, ⟨moment, hmoment, rfl⟩, ?_, ?_⟩
        · intro deadline hdeadline
          obtain ⟨timeout, htimeout, rfl⟩ := Option.map_eq_some_iff.1 hdeadline
          exact ⟨moment, hmoment, timeout, htimeout, rfl⟩
        · exact (Behaviour.advance_isFresh moment _ _).not_timedOut
      · apply conclude_onTime
        rintro purpose ⟨⟩

end ActivityService

/-! ## Turns -/

/-- The worker was handed the task of the part. -/
def WorkerPart.KeepsTime (moments : List Moment) (works : List ActivityTask) : WorkerPart → Prop
  | .claimed task => ∀ work, task.work = .activity work → work ∈ works
  | .running attempt => attempt.KeepsTime moments works
  | _ => False

namespace Worker

variable {worker : Worker} {catalogue : WorkflowRegistry} {outlasts : Span → Prop}

theorem failTask_onTime (task : LeasedTask) (error : EngineError) :
    (worker.failTask task error).OnTime outlasts works fun _ => True :=
  (Program.OnTime.ask rfl).bind fun _ _ => .pure trivial

theorem afterAttempt_onTime (task : LeasedTask) {turn : Attempt.Turn}
    (keeps : ActivityService.TurnKeepsTime moments works turn) :
    (worker.afterAttempt task turn).OnTime outlasts works fun later =>
      ∀ part ∈ later.rest, part.KeepsTime moments works := by
  unfold afterAttempt
  split
  · apply Program.OnTime.pure
    rintro part ⟨⟩
    exact keeps
  · exact .pure fun part hnone => nomatch hnone
  · exact (failTask_onTime task _).bind fun _ _ => .pure fun part hnone => nomatch hnone

theorem runWorkflowTask_onTime (task : LeasedTask) :
    (worker.runWorkflowTask catalogue task).OnTime outlasts works fun _ => True := by
  apply (Engine.processTask_onTime _).bind
  intro result _
  cases result with
  | ok result => exact (Program.OnTime.ask rfl).bind fun _ _ => .pure trivial
  | error error => exact failTask_onTime task error

theorem partTurn_onTime (hmoment : moment ∈ moments) {part : WorkerPart}
    (keeps : part.KeepsTime moments works) :
    (worker.partTurn catalogue moment part).OnTime (Outlast moments) works fun turn =>
      ∀ next ∈ turn.rest, next.KeepsTime moments works := by
  cases part with
  | taskLoop kind loop => exact keeps.elim
  | ticker ticksAt => exact keeps.elim
  | running attempt =>
      apply (ActivityService.drive_onTime hmoment _ keeps).bind
      exact fun turn hturn => afterAttempt_onTime _ hturn
  | claimed task =>
      cases htask : task.work with
      | workflow target workflowType =>
          simp only [partTurn, htask]
          exact (runWorkflowTask_onTime task).bind fun _ _ =>
            .pure fun next hnone => absurd hnone (Option.not_mem_none next)
      | activity work =>
          simp only [partTurn, htask]
          apply (ActivityService.begin_onTime hmoment keeps).bind
          exact fun turn hturn => afterAttempt_onTime task hturn

theorem follow_onTime {left : List Moment} (hleft : left ⊆ moments) {part : WorkerPart}
    (keeps : part.KeepsTime moments works) :
    (worker.follow catalogue left part).OnTime (Outlast moments) works fun _ => True := by
  induction left generalizing part with
  | nil => exact .pure trivial
  | cons moment rest ih =>
      apply (partTurn_onTime (hleft List.mem_cons_self) keeps).bind
      intro turn hturn
      cases hnext : turn.rest with
      | none => exact .pure trivial
      | some next => exact ih (fun _ hmem => hleft (List.mem_cons_of_mem _ hmem)) (hturn next hnext)

theorem serve_onTime (poll : LongPoll) (moment : Moment) (moments : List Moment) :
    (worker.serve catalogue poll moment moments).OnTime (Outlast moments) works fun _ => True := by
  have hlook : ∀ sight, (poll.look moment).Timely (Outlast moments) (fun look later => ∀ task,
      look = .finished (some task) → ∀ work, task.work = .activity work →
        work ∈ later.charge.works) sight := by
    intro sight
    apply Program.Timely.inquire rfl
    intro seen
    apply Program.Timely.inquire rfl
    intro claim
    cases claim with
    | claimed task =>
        rintro _ ⟨⟩ work hwork
        simp [Sight.learn, hwork]
    | nothing next =>
        simp only
        split
        · exact fun task hnone => nomatch hnone
        · apply Program.Timely.inquire rfl
          exact fun now task hnone => nomatch hnone
  intro sight _
  apply Program.Timely.bind
  apply (hlook sight).weaken
  intro look later _ hlooked
  split
  · rename_i task
    have claimed : (WorkerPart.claimed task).KeepsTime moments later.charge.works :=
      hlooked task rfl
    exact follow_onTime (List.Subset.refl _) claimed later (List.Subset.refl _)
  · trivial

end Worker

/-! ## Roles -/

namespace Role

/-- Everything but operations that say a time is up without having looked at the clock. -/
def isPrompt : Role → Bool
  | .operate (.timeOut ..) _ | .operate (.fireTimer ..) _ => false
  | _ => true

/-- The moments in which a worker has its turns. -/
def turns : Role → List Moment
  | .operate .. => []
  | .serve _ _ _ _ moments => moments

theorem program_timely {role : Role} (prompt : role.isPrompt = true) :
    role.program.Timely (Outlast role.turns) (fun _ _ => True) .nothing := by
  suffices onTime : role.program.OnTime (Outlast role.turns) [] fun _ => True from
    onTime .nothing (List.nil_subset _)
  cases role with
  | serve worker catalogue poll moment moments => exact Worker.serve_onTime poll moment moments
  | operate operation isPlain =>
      cases operation with
      | ask request leavesRuns =>
          apply Program.OnTime.discard (.ask _)
          cases request <;> first | rfl | cases isPlain
      | start new =>
          exact (Program.OnTime.ask rfl).bind fun _ _ => (Engine.start_onTime _).discard
      | signal engine ref received => exact (Engine.signal_onTime ref received).discard
      | requestCancellation engine ref reason =>
          exact (Engine.requestCancellation_onTime ref reason).discard
      | terminate engine ref reason => exact (Engine.terminate_onTime ref reason).discard
      | processTask engine ref => exact (Engine.processTask_onTime ref).discard
      | query engine ref name args => exact (Engine.query_onTime ref name args).discard
      | clientStart workflowType workflowId taskQueue input options =>
          exact (Client.start_onTime _ _ _ input options).discard
      | clientSignal client workflowId name payload =>
          exact (Client.signal_onTime workflowId name payload).discard
      | clientQuery client workflowId name args =>
          exact (Client.query_onTime workflowId name args).discard
      | clientDescribe workflowId =>
          exact (Client.onCurrentRun_onTime workflowId fun _ => .pure trivial).discard
      | clientTerminate client workflowId reason =>
          exact (Client.onCurrentRun_onTime workflowId fun run => Client.forget_onTime
            (Client.liftEngine_onTime (Engine.terminate_onTime run.ref reason))).discard
      | clientCancel client workflowId reason =>
          exact (Client.onCurrentRun_onTime workflowId fun run => Client.forget_onTime
            (Client.liftEngine_onTime (Engine.requestCancellation_onTime run.ref reason))).discard
      | clientHistory workflowId => exact (Client.history_onTime workflowId).discard
      | clientResultRun workflowId =>
          exact (Client.onCurrentRun_onTime workflowId fun _ => .pure trivial).discard
      | clientResultTurn client moment wait =>
          exact (ResultWait.follow_onTime _ moment _ wait).discard
      | fireDue service => exact (TimerService.drain_onTime _ _).discard
      | timeOut engine ref => cases prompt
      | fireTimer service timer => cases prompt
      | recordStart service work => cases isPlain
      | recordHeartbeat service attempt details => cases isPlain
      | recordOutcome service task work outcome => cases isPlain
      | beginAttempt service moment task => cases isPlain
      | continueAttempt service moment attempt => cases isPlain
      | workerTurn worker catalogue moment part => cases isPlain

end Role

end Chronicle
