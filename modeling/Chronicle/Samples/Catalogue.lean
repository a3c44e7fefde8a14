import Chronicle.Activity.Registry
import Chronicle.Samples.Activities
import Chronicle.Samples.Workflows
import Chronicle.Workflow.Registry

/-!
# The catalogue of samples
-/

namespace Chronicle.Samples

def workflows (version : Nat) : List WorkflowType := [bare, counter, script version]

def activities : List ActivityType := [echo, increment, act]

def selectWorkflows (version : Nat) (names : Option (List String)) : WorkflowRegistry :=
  match names with
  | none => .ofList (workflows version)
  | some names =>
      .ofList (names.filterMap fun name => (workflows version).find? fun type => type.name = name)

def selectActivities (names : Option (List String)) : ActivityRegistry :=
  match names with
  | none => .ofList activities
  | some names =>
      .ofList (names.filterMap fun name => activities.find? fun type => type.name = name)

end Chronicle.Samples
