import Chronicle.Engine.Program

/-!
# What programs remember of a run

A program that has read a run may take it for open until an answer shows that it is not: the current
run of its workflow id is another one, or a closed one.  A program is heedful if, as long as it
takes the run that it has read for open, it starts no child under the workflow id of that run.
-/

namespace Chronicle

/-- No child that the events start has the workflow id of the run. -/
def SparesOwn (own : Option RunRef) (events : List Event) : Prop :=
  ∀ workflowId runId workflowType, Event.childStarted workflowId runId workflowType ∈ events →
    runId ≠ .nil → ∀ ref ∈ own, workflowId ≠ ref.workflowId

/-- The answer names a run that is open. -/
def Program.namesOpenRun : Except StoreError Run → Bool
  | .ok run => !run.status.isClosed
  | .error _ => false

namespace Request

/-- The run that a program takes for open after the answer, if it took `own` for open before. -/
def remember (own : Option RunRef) : (request : Request) → request.Answer → Option RunRef
  | .getRun _, .ok run => some run.ref
  | .currentRun workflowId, answer =>
      if Program.namesOpenRun answer then own
      else own.filter fun ref => ref.workflowId != workflowId
  | _, _ => own

/-- Run ids that are handed out are not nil. -/
def Genuine : (request : Request) → request.Answer → Prop
  | .freshRunId, runId => runId ≠ .nil
  | _, _ => True

/-- A commit starts no child under the workflow id of the run that is taken for open. -/
def Spares (own : Option RunRef) : Request → Prop
  | .commit _ _ written => SparesOwn own written.events
  | _ => True

/-- Requests after which a program remembers what it did before. -/
def isForgettable : Request → Bool
  | .getRun _ | .currentRun _ | .commit .. => false
  | _ => true

end Request

namespace Program

variable {α β : Type}

def Heeds (post : α → Option RunRef → Prop) : Program α → Option RunRef → Prop
  | .done value, own => post value own
  | .ask request next, own => request.Spares own ∧ ∀ answer, request.Genuine answer →
      Heeds post (next answer) (request.remember own answer)
  | .crash _, _ => True

theorem Heeds.weaken {first second : α → Option RunRef → Prop} {program : Program α}
    {own : Option RunRef} (heeds : program.Heeds first own)
    (himplies : ∀ value later, first value later → second value later) :
    program.Heeds second own := by
  induction program generalizing own with
  | done value => exact himplies value own heeds
  | ask request next ih =>
      exact ⟨heeds.1, fun answer genuine => ih answer (heeds.2 answer genuine)⟩
  | crash cause => trivial

theorem Heeds.bind {post : β → Option RunRef → Prop} {program : Program α} {next : α → Program β}
    {own : Option RunRef}
    (heeds : program.Heeds (fun value later => (next value).Heeds post later) own) :
    (program >>= next).Heeds post own := by
  induction program generalizing own with
  | done value => exact heeds
  | ask request rest ih =>
      exact ⟨heeds.1, fun answer genuine => ih answer (heeds.2 answer genuine)⟩
  | crash cause => trivial

theorem Heeds.request {post : β → Option RunRef → Prop} {request : Request}
    {next : request.Answer → Program β} {own : Option RunRef} (spares : request.Spares own)
    (hnext : ∀ answer, request.Genuine answer →
      (next answer).Heeds post (request.remember own answer)) :
    (Program.request request >>= next).Heeds post own :=
  ⟨spares, hnext⟩

/-- Most requests neither need nor change what is remembered. -/
theorem Heeds.ask {post : β → Option RunRef → Prop} {request : Request}
    {next : request.Answer → Program β} {own : Option RunRef}
    (hforgettable : request.isForgettable = true)
    (hnext : ∀ answer, request.Genuine answer → (next answer).Heeds post own) :
    (Program.request request >>= next).Heeds post own := by
  have hsame : ∀ answer, request.remember own answer = own := by
    intro answer
    cases request <;> first | rfl | cases hforgettable
  refine .request ?_ fun answer genuine => (hsame answer).symm ▸ hnext answer genuine
  cases request <;> trivial

end Program

end Chronicle
