import Chronicle.Proofs.Engine.Playing

/-!
# Clients and timer services play by the rules

What a client does is to look, to begin runs and to revise them through its engine.  A timer service
takes timers out of the store, which is a move only where timers may fire.
-/

namespace Chronicle

/-! ## Clients -/

namespace Client

variable {rules : Rules} {fires : Prop} {α : Type}

theorem liftEngine_plays {program : Program (Except EngineError α)}
    (plays : program.PlaysAnywhere rules fires) : (liftEngine program).PlaysAnywhere rules fires := by
  apply plays.bind
  intro result
  cases result <;> exact .pure _

theorem forget_plays {program : Program (Except ClientError α)}
    (plays : program.PlaysAnywhere rules fires) : (forget program).PlaysAnywhere rules fires := by
  apply plays.bind
  intro result
  cases result <;> exact .pure _

theorem onCurrentRun_plays (workflowId : String) {use : Run → Program (Except ClientError α)}
    (plays : ∀ run, (use run).PlaysAnywhere rules fires) :
    (onCurrentRun workflowId use).PlaysAnywhere rules fires := by
  apply Program.PlaysAnywhere.bind (.ask rfl)
  intro result
  cases result with
  | error error => exact .pure _
  | ok run => exact plays run

theorem start_plays (workflowType workflowId taskQueue : String) (input : Json)
    (options : WorkflowOptions) :
    (start workflowType workflowId taskQueue input options).PlaysAnywhere rules fires := by
  apply Program.PlaysAnywhere.bind (.ask rfl)
  intro runId
  apply (liftEngine_plays (Engine.start_plays _)).bind
  intro result
  cases result <;> exact .pure _

variable {client : Client}

theorem signal_plays (workflowId name : String) (payload : Json) :
    (client.signal workflowId name payload).PlaysAnywhere rules fires := by
  apply onCurrentRun_plays
  intro run
  apply Program.PlaysAnywhere.bind (.ask rfl)
  intro now
  exact forget_plays (liftEngine_plays (Engine.signal_plays _ _))

theorem query_plays (workflowId name : String) (args : Json) :
    (client.query workflowId name args).PlaysAnywhere rules fires := by
  apply onCurrentRun_plays
  intro run
  split
  · exact liftEngine_plays (Engine.query_plays _ _ _)
  · exact .pure _

theorem describe_plays (workflowId : String) : (describe workflowId).PlaysAnywhere rules fires :=
  onCurrentRun_plays workflowId fun _ => .pure _

theorem terminate_plays (workflowId reason : String) :
    (client.terminate workflowId reason).PlaysAnywhere rules fires :=
  onCurrentRun_plays workflowId fun _ =>
    forget_plays (liftEngine_plays (Engine.terminate_plays _ _))

theorem cancel_plays (workflowId reason : String) :
    (client.cancel workflowId reason).PlaysAnywhere rules fires :=
  onCurrentRun_plays workflowId fun _ =>
    forget_plays (liftEngine_plays (Engine.requestCancellation_plays _ _))

theorem history_plays (workflowId : String) : (history workflowId).PlaysAnywhere rules fires := by
  apply onCurrentRun_plays
  intro run
  apply Program.PlaysAnywhere.bind (.ask rfl)
  intro result
  cases result <;> exact .pure _

theorem resultRun_plays (workflowId : String) : (resultRun workflowId).PlaysAnywhere rules fires :=
  onCurrentRun_plays workflowId fun _ => .pure _

theorem lookForResult_plays (ref : RunRef) : (lookForResult ref).PlaysAnywhere rules fires := by
  apply Program.PlaysAnywhere.bind (.ask rfl)
  intro result
  cases result <;> exact .pure _

end Client

theorem ResultWait.follow_plays {rules : Rules} {fires : Prop} (interval : Span) (moment : Moment)
    (limit : Nat) (wait : ResultWait) :
    (follow interval moment limit wait).PlaysAnywhere rules fires := by
  induction limit generalizing wait with
  | zero => exact .crash _
  | succ limit ih =>
      unfold follow
      apply (Client.lookForResult_plays wait.run).bind
      intro look
      cases look with
      | finished result => exact .pure _
      | follow next => exact ih _
      | stillRunning =>
          simp only
          split <;> exact .pure _

/-! ## Timer services -/

namespace TimerService

variable {rules : Rules} {service : TimerService}

theorem fire_plays (timer : Timer) : (service.fire timer).PlaysAnywhere rules True := by
  unfold fire
  split
  · exact .revise _ _ fun _ _ _ => workflowTimer_writes
  · exact .revise _ _ fun _ _ _ => pickupTimeout_writes
  · exact .revise _ _ fun _ _ _ => AttemptOutcome.reviser_writes (.inl trivial)
  · exact .revise _ _ fun _ _ _ => AttemptOutcome.reviser_writes (.inl trivial)
  · exact Engine.timeOut_plays _

theorem fireOrReschedule_plays (timer : Timer) :
    (service.fireOrReschedule timer).PlaysAnywhere rules True := by
  apply (fire_plays timer).bind
  intro result
  split
  · exact .pure _
  · exact .pure _
  · exact .pure _
  · apply Program.PlaysAnywhere.bind (.ask rfl)
    intro now
    apply Program.PlaysAnywhere.admitted
    exact fun _ => trivial

theorem fireAll_plays (timers : List Timer) : (service.fireAll timers).PlaysAnywhere rules True := by
  induction timers with
  | nil => exact .pure _
  | cons timer rest ih =>
      apply (fireOrReschedule_plays timer).bind
      intro result
      cases result with
      | error error => exact .pure _
      | ok fired => exact ih

theorem drain_plays (limit fired : Nat) : (service.drain limit fired).PlaysAnywhere rules True := by
  induction limit generalizing fired with
  | zero => exact .crash _
  | succ limit ih =>
      apply Program.PlaysAnywhere.bind (.ask rfl)
      intro now
      have hpop : (Program.request (.popDueTimers now service.config.batchSize)).PlaysAnywhere rules
          True := .admitted fun _ => trivial
      apply hpop.bind
      intro popped
      cases popped with
      | error error => exact .pure _
      | ok due =>
          apply (fireAll_plays due).bind
          intro result
          cases result with
          | error error => exact .pure _
          | ok done =>
              simp only
              split
              · exact .pure _
              · exact ih _

end TimerService

end Chronicle
