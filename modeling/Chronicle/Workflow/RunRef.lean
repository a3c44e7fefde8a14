import Chronicle.Json.Record
import Chronicle.Uuid

/-!
# References to runs

One workflow id names a chain of runs; the run id tells them apart.
-/

namespace Chronicle

structure RunRef where
  workflowId : String
  runId : Uuid
  deriving DecidableEq, Repr, Inhabited

namespace RunRef

def text (ref : RunRef) : String := s!"{ref.workflowId}/{ref.runId.text}"

/-- References are ordered by workflow id, then by run id. -/
def notAfter (left right : RunRef) : Bool :=
  left.workflowId < right.workflowId ||
    (left.workflowId = right.workflowId && left.runId.value ≤ right.runId.value)

def toJson (ref : RunRef) : Json :=
  .record [("workflow_id", .text ref.workflowId), ("run_id", ref.runId.toJson)]

def ofJson? (value : Json) : Option RunRef := do
  let workflowId ← value.required "workflow_id" Json.text?
  let runId ← value.required "run_id" Uuid.ofJson?
  some ⟨workflowId, runId⟩

end RunRef

end Chronicle
