import Chronicle.Engine.ResultWait
import Chronicle.Proofs.Engine.Advancing

/-!
# Charters for engines, clients and timer services

Whatever they do, they write to a run only what they have built from its history: a notice, the
decision of a workflow task, or the failure of a run whose input its workflow cannot read.
-/

namespace Chronicle

def Program.discard {α : Type} (program : Program α) : Program Unit := do
  let _ ← program

/-- Everything may be asked that neither begins nor revises a run, at any time. -/
structure Charter.AllowsRequests (charter : Charter) : Prop where
  admits : ∀ request, request.leavesRuns = true → charter.admits request
  undecided : ∀ accepted, charter.undecided accepted

structure Charter.AllowsNotices (charter : Charter) : Prop extends AllowsRequests charter where
  notices : ∀ run history commit, commit.Dispatch run (.ofHistory history) →
    charter.warrants run history commit

structure Charter.AllowsTasks (charter : Charter) (engine : Engine) : Prop extends
    AllowsRequests charter where
  decided : ∀ ref run history commit, engine.Decided ref run history commit →
    charter.warrants run history commit
  refused : ∀ ref run history commit, engine.Refused ref run history commit →
    charter.warrants run history commit

theorem Charter.AllowsRequests.inquiries {charter : Charter} (allows : charter.AllowsRequests) :
    charter.AdmitsInquiries := by
  intro request hinquiry
  apply allows.admits
  cases request <;> first | rfl | cases hinquiry

namespace Program

variable {α : Type} {charter : Charter} {engine : Engine}

theorem Obeys.ask (allows : charter.AllowsRequests) {request : Request}
    (hleaves : request.leavesRuns = true) : Obeys charter (Program.request request) := by
  apply Obeys.request allows.undecided
  intro knowledge
  cases request with
  | createRun new => cases hleaves
  | commit ref expected commit => cases hleaves
  | _ => exact allows.admits _ rfl

theorem Obeys.discard {program : Program α} (obeys : Obeys charter program) :
    Obeys charter program.discard :=
  obeys.bind fun _ => .pure ()

theorem Obeys.revise {reviser : Reviser α} (allows : charter.AllowsNotices)
    (dispatches : reviser.Dispatches) (ref : RunRef) :
    Obeys charter (engine.revise ref reviser) := by
  intro knowledge
  have hinquiries := allows.inquiries
  unfold Engine.revise
  apply (Revision.attempt_keeps hinquiries (allows.undecided _) engine.rounds knowledge rfl ?_).weaken
  · exact fun _ _ _ => trivial
  · intro run history commit _ _ hwrites
    have hdispatch := dispatches run _ commit hwrites
    exact ⟨allows.notices run history commit hdispatch, hdispatch.newRuns⟩

theorem Obeys.processTask (allows : charter.AllowsTasks engine) (ref : RunRef) :
    Obeys charter (engine.processTask ref) := by
  intro knowledge
  have hinquiries := allows.inquiries
  apply (Engine.processTask_keeps hinquiries (allows.undecided _) (allows.decided ref)
    (allows.refused ref) rfl).weaken
  exact fun _ _ _ => trivial

end Program

/-! ## Engines and clients -/

namespace Engine

variable {charter : Charter} {engine : Engine}

theorem signal_obeys (allows : charter.AllowsNotices) (ref : RunRef) (received : Signal) :
    (engine.signal ref received).Obeys charter :=
  .revise allows (noticeCommit_dispatches rfl rfl rfl rfl) ref

theorem requestCancellation_obeys (allows : charter.AllowsNotices) (ref : RunRef)
    (reason : String) : (engine.requestCancellation ref reason).Obeys charter :=
  .revise allows (noticeCommit_dispatches rfl rfl rfl rfl) ref

theorem terminate_obeys (allows : charter.AllowsNotices) (ref : RunRef) (reason : String) :
    (engine.terminate ref reason).Obeys charter :=
  .revise allows (forceClose_dispatches rfl rfl rfl) ref

theorem timeOut_obeys (allows : charter.AllowsNotices) (ref : RunRef) :
    (engine.timeOut ref).Obeys charter :=
  .revise allows (forceClose_dispatches rfl rfl rfl) ref

theorem query_obeys (allows : charter.AllowsNotices) (ref : RunRef) (name : String) (args : Json) :
    (engine.query ref name args).Obeys charter := by
  unfold query
  apply Program.Obeys.bind (.ask allows.toAllowsRequests rfl)
  intro result
  cases result with
  | error error => exact .pure _
  | ok history =>
      simp only
      split
      · exact .crash allows.undecided _
      · exact .pure _
      · split
        · exact .pure _
        · exact .pure _

theorem start_keeps (allows : charter.AllowsNotices) (new : NewRun)
    (hadmits : charter.admits (.createRun new)) {knowledge : Knowledge}
    (hdrawn : new.ref.runId ∈ knowledge.drawn) :
    (start new).Keeps charter (fun _ _ => True) knowledge := by
  unfold start
  split
  · exact trivial
  · have hpermits : charter.permits knowledge (.createRun new) := ⟨hadmits, hdrawn⟩
    apply Program.Keeps.request (allows.undecided _) hpermits
    intro answer _
    cases answer <;> exact trivial

end Engine

namespace Client

variable {charter : Charter} {α : Type}

theorem liftEngine_obeys {program : Program (Except EngineError α)} (obeys : program.Obeys charter) :
    (liftEngine program).Obeys charter := by
  apply obeys.bind
  intro result
  cases result <;> exact .pure _

theorem forget_obeys {program : Program (Except ClientError α)} (obeys : program.Obeys charter) :
    (forget program).Obeys charter := by
  apply obeys.bind
  intro result
  cases result <;> exact .pure _

theorem onCurrentRun_obeys (allows : charter.AllowsNotices) (workflowId : String)
    {use : Run → Program (Except ClientError α)} (obeys : ∀ run, (use run).Obeys charter) :
    (onCurrentRun workflowId use).Obeys charter := by
  apply Program.Obeys.bind (.ask allows.toAllowsRequests rfl)
  intro result
  cases result with
  | error error => exact .pure _
  | ok run => exact obeys run

theorem start_obeys (allows : charter.AllowsNotices) (workflowType workflowId taskQueue : String)
    (input : Json) (options : WorkflowOptions)
    (hadmits : ∀ runId, charter.admits
      (.createRun (.first ⟨workflowId, runId⟩ workflowType taskQueue input options))) :
    (start workflowType workflowId taskQueue input options).Obeys charter := by
  intro knowledge
  apply Program.Keeps.inquire allows.inquiries rfl (allows.undecided _)
  intro runId _
  apply Program.Keeps.bind
  apply Program.Keeps.bind
  apply (Engine.start_keeps allows _ (hadmits runId) List.mem_cons_self).weaken
  intro result later _
  cases result <;> exact trivial

variable {client : Client}

theorem signal_obeys (allows : charter.AllowsNotices) (workflowId name : String) (payload : Json) :
    (client.signal workflowId name payload).Obeys charter := by
  apply onCurrentRun_obeys allows
  intro run
  apply Program.Obeys.bind (.ask allows.toAllowsRequests rfl)
  intro now
  exact forget_obeys (liftEngine_obeys (Engine.signal_obeys allows _ _))

theorem query_obeys (allows : charter.AllowsNotices) (workflowId name : String) (args : Json) :
    (client.query workflowId name args).Obeys charter := by
  apply onCurrentRun_obeys allows
  intro run
  split
  · exact liftEngine_obeys (Engine.query_obeys allows _ _ _)
  · exact .pure _

theorem terminate_obeys (allows : charter.AllowsNotices) (workflowId reason : String) :
    (client.terminate workflowId reason).Obeys charter :=
  onCurrentRun_obeys allows workflowId fun _ =>
    forget_obeys (liftEngine_obeys (Engine.terminate_obeys allows _ _))

theorem cancel_obeys (allows : charter.AllowsNotices) (workflowId reason : String) :
    (client.cancel workflowId reason).Obeys charter :=
  onCurrentRun_obeys allows workflowId fun _ =>
    forget_obeys (liftEngine_obeys (Engine.requestCancellation_obeys allows _ _))

theorem history_obeys (allows : charter.AllowsNotices) (workflowId : String) :
    (history workflowId).Obeys charter := by
  apply onCurrentRun_obeys allows
  intro run
  apply Program.Obeys.bind (.ask allows.toAllowsRequests rfl)
  intro result
  cases result <;> exact .pure _

theorem lookForResult_obeys (allows : charter.AllowsNotices) (ref : RunRef) :
    (lookForResult ref).Obeys charter := by
  apply Program.Obeys.bind (.ask allows.toAllowsRequests rfl)
  intro result
  cases result <;> exact .pure _

end Client

theorem ResultWait.follow_obeys {charter : Charter} (allows : charter.AllowsNotices)
    (interval : Span) (moment : Moment) (limit : Nat) (wait : ResultWait) :
    (follow interval moment limit wait).Obeys charter := by
  induction limit generalizing wait with
  | zero => exact .crash allows.undecided _
  | succ limit ih =>
      unfold follow
      apply Program.Obeys.bind (Client.lookForResult_obeys allows _)
      intro look
      cases look with
      | finished result => exact .pure _
      | follow next => exact ih _
      | stillRunning =>
          simp only
          split <;> exact .pure _

/-! ## Timer services -/

namespace TimerService

variable {charter : Charter} {service : TimerService}

theorem fire_obeys (allows : charter.AllowsNotices) (timer : Timer) :
    (service.fire timer).Obeys charter := by
  unfold fire
  cases timer.purpose with
  | workflowTimer timerId => exact .revise allows (workflowTimer_dispatches timerId) _
  | activityPickup activityId => exact .revise allows (pickupTimeout_dispatches activityId) _
  | activityAttempt activityId attempt =>
      exact .revise allows (AttemptOutcome.reviser_dispatches _ _ _) _
  | activityHeartbeat activityId attempt =>
      exact .revise allows (AttemptOutcome.reviser_dispatches _ _ _) _
  | runTimeout => exact Engine.timeOut_obeys allows _

theorem fireOrReschedule_obeys (allows : charter.AllowsNotices) (timer : Timer) :
    (service.fireOrReschedule timer).Obeys charter := by
  apply (fire_obeys allows timer).bind
  intro result
  split
  · exact .pure _
  · exact .pure _
  · exact .pure _
  · apply Program.Obeys.bind (.ask allows.toAllowsRequests rfl)
    intro now
    exact .ask allows.toAllowsRequests rfl

theorem fireAll_obeys (allows : charter.AllowsNotices) (timers : List Timer) :
    (service.fireAll timers).Obeys charter := by
  induction timers with
  | nil => exact .pure _
  | cons timer rest ih =>
      apply (fireOrReschedule_obeys allows timer).bind
      intro result
      cases result with
      | error error => exact .pure _
      | ok _ => exact ih

theorem drain_obeys (allows : charter.AllowsNotices) (limit fired : Nat) :
    (service.drain limit fired).Obeys charter := by
  induction limit generalizing fired with
  | zero => exact .crash allows.undecided _
  | succ limit ih =>
      unfold drain
      apply Program.Obeys.bind (.ask allows.toAllowsRequests rfl)
      intro now
      apply Program.Obeys.bind (.ask allows.toAllowsRequests rfl)
      intro result
      cases result with
      | error error => exact .pure _
      | ok due =>
          apply (fireAll_obeys allows due).bind
          intro fired
          cases fired with
          | error error => exact .pure _
          | ok _ =>
              simp only
              split
              · exact .pure _
              · exact ih _

end TimerService

end Chronicle
