import Chronicle.Proofs.Engine.Avoiding
import Chronicle.Proofs.Worker.Roles

/-!
# Workers write to the runs that they have tasks of

A worker that has been handed a task writes to the run of that task only, in whatever number of turns
it works on it.
-/

namespace Chronicle

variable {ref : RunRef}

/-! ## Attempts -/

/-- The attempt that goes on is for another run. -/
def Attempt.Turn.Apart (ref : RunRef) : Attempt.Turn → Prop
  | .waiting attempt => attempt.work.run ≠ ref
  | .finished _ => True

namespace ActivityService

variable {service : ActivityService}

theorem release_avoids (task : LeasedTask) (report : AttemptReport) :
    (release task report).Avoids ref (Attempt.Turn.Apart ref) := by
  apply (Program.Avoids.ask rfl).bind
  intro result _
  split <;> exact .pure trivial

theorem recordStart_avoids {work : ActivityTask} (hother : work.run ≠ ref) :
    (service.recordStart work).Avoids ref fun _ => True := by
  apply (Revision.attempt_avoids hother _ service.engine.rounds).bind
  intro result _
  split <;> exact .pure trivial

theorem recordHeartbeat_avoids {attempt : Attempt} (hother : attempt.work.run ≠ ref)
    (details : Option Json) :
    (service.recordHeartbeat attempt details).Avoids ref fun later => later.work.run ≠ ref := by
  apply (Revision.attempt_avoids hother _ service.engine.rounds).bind
  intro result _
  split <;> exact .pure hother

theorem renewLease_avoids {attempt : Attempt} (hother : attempt.work.run ≠ ref) :
    (service.renewLease attempt).Avoids ref fun renewed =>
      ∀ later ∈ renewed, later.work.run ≠ ref := by
  apply (Program.Avoids.ask rfl).bind
  intro result _
  split
  · apply Program.Avoids.pure
    rintro later ⟨⟩
    split <;> exact hother
  · exact .pure fun later hnone => nomatch hnone
  · exact .pure fun later hnone => nomatch hnone
  · apply Program.Avoids.pure
    rintro later ⟨⟩
    exact hother

theorem conclude_avoids {work : ActivityTask} (hother : work.run ≠ ref) (task : LeasedTask)
    (outcome : AttemptOutcome) :
    (service.conclude task work outcome).Avoids ref (Attempt.Turn.Apart ref) := by
  apply (Revision.attempt_avoids hother _ service.engine.rounds).bind
  intro result _
  split
  · exact release_avoids _ _
  · exact release_avoids _ _
  · exact .pure trivial

theorem drive_avoids (moment : Moment) (limit : Nat) {attempt : Attempt}
    (hother : attempt.work.run ≠ ref) :
    (service.drive moment limit attempt).Avoids ref (Attempt.Turn.Apart ref) := by
  induction limit generalizing attempt with
  | zero => exact .crash _ _
  | succ limit ih =>
      have hresumed : (attempt.resume moment).work.run ≠ ref := hother
      unfold drive
      simp only
      split
      · exact conclude_avoids hresumed _ _
      · split
        · exact conclude_avoids hresumed _ _
        · split
          · exact conclude_avoids hresumed _ _
          · split
            · apply Program.Avoids.bind (recordHeartbeat_avoids (by exact hresumed) _)
              intro beaten hbeaten
              apply (renewLease_avoids hbeaten).bind
              intro renewed hrenewed
              cases renewed with
              | none => exact .pure trivial
              | some later => exact ih (hrenewed later rfl)
            · split
              · apply Program.Avoids.bind (renewLease_avoids (by exact hresumed))
                intro renewed hrenewed
                cases renewed with
                | none => exact .pure trivial
                | some later => exact ih (hrenewed later rfl)
              · exact .pure hresumed

theorem begin_avoids (moment : Moment) {task : LeasedTask} (hother : task.work.run ≠ ref) :
    (service.begin moment task).Avoids ref (Attempt.Turn.Apart ref) := by
  unfold begin
  split
  · exact release_avoids _ _
  · rename_i work hwork
    have hrun : work.run ≠ ref := by rwa [hwork] at hother
    apply (recordStart_avoids hrun).bind
    intro result _
    split
    · exact .pure trivial
    · exact release_avoids _ _
    · split
      · exact drive_avoids _ _ hrun
      · exact conclude_avoids hrun _ _

end ActivityService

/-! ## Turns -/

/-- The part is a task, or an attempt, for another run. -/
def WorkerPart.Apart (ref : RunRef) : WorkerPart → Prop
  | .claimed task => task.work.run ≠ ref
  | .running attempt => attempt.work.run ≠ ref
  | _ => False

namespace Worker

variable {worker : Worker} {catalogue : WorkflowRegistry}

theorem failTask_avoids (task : LeasedTask) (error : EngineError) :
    (worker.failTask task error).Avoids ref fun _ => True :=
  (Program.Avoids.ask rfl).bind fun _ _ => .pure trivial

theorem runWorkflowTask_avoids {task : LeasedTask} (hother : task.work.run ≠ ref) :
    (worker.runWorkflowTask catalogue task).Avoids ref fun _ => True := by
  apply (Engine.processTask_avoids hother).bind
  intro result _
  cases result with
  | ok result => exact (Program.Avoids.ask rfl).bind fun _ _ => .pure trivial
  | error error => exact failTask_avoids task error

theorem afterAttempt_avoids (task : LeasedTask) {turn : Attempt.Turn} (apart : turn.Apart ref) :
    (worker.afterAttempt task turn).Avoids ref fun later =>
      ∀ part ∈ later.rest, part.Apart ref := by
  unfold afterAttempt
  split
  · apply Program.Avoids.pure
    rintro part ⟨⟩
    exact apart
  · exact .pure fun part hnone => nomatch hnone
  · exact (failTask_avoids task _).bind fun _ _ => .pure fun part hnone => nomatch hnone

theorem partTurn_avoids (moment : Moment) {part : WorkerPart} (apart : part.Apart ref) :
    (worker.partTurn catalogue moment part).Avoids ref fun turn =>
      ∀ next ∈ turn.rest, next.Apart ref := by
  cases part with
  | taskLoop kind loop => exact apart.elim
  | ticker ticksAt => exact apart.elim
  | running attempt =>
      apply (ActivityService.drive_avoids moment _ apart).bind
      exact fun turn hturn => afterAttempt_avoids _ hturn
  | claimed task =>
      cases hwork : task.work with
      | workflow target workflowType =>
          simp only [partTurn, hwork]
          exact (runWorkflowTask_avoids apart).bind fun _ _ =>
            .pure fun next hnone => absurd hnone (Option.not_mem_none next)
      | activity work =>
          simp only [partTurn, hwork]
          apply (ActivityService.begin_avoids moment apart).bind
          exact fun turn hturn => afterAttempt_avoids task hturn

theorem follow_avoids (moments : List Moment) {part : WorkerPart} (apart : part.Apart ref) :
    (worker.follow catalogue moments part).Avoids ref fun _ => True := by
  induction moments generalizing part with
  | nil => exact .pure trivial
  | cons moment rest ih =>
      apply (partTurn_avoids moment apart).bind
      intro turn hturn
      cases hnext : turn.rest with
      | none => exact .pure trivial
      | some next => exact ih (hturn next hnext)

/-- A worker writes nothing to a run of which it is handed no task. -/
theorem serve_avoids (poll : LongPoll) (moment : Moment) (moments : List Moment) :
    (worker.serve catalogue poll moment moments).Avoids ref fun _ => True := by
  have hlook : (poll.look moment).Avoids ref fun look =>
      ∀ task, look = .finished (some task) → task.work.run ≠ ref := by
    apply (Program.Avoids.ask rfl).bind
    intro seen _
    apply Program.Avoids.request rfl
    intro claim apart
    cases claim with
    | claimed task =>
        apply Program.Avoids.pure
        rintro other ⟨⟩
        exact apart
    | nothing next =>
        simp only
        split
        · exact .pure fun task hnone => nomatch hnone
        · exact (Program.Avoids.ask rfl).bind fun now _ => .pure fun task hnone => nomatch hnone
  apply hlook.bind
  intro look hlooked
  split
  · exact follow_avoids moments (hlooked _ rfl)
  · exact .pure trivial

end Worker

end Chronicle
