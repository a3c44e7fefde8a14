import Chronicle.Text.Quoted
import Chronicle.Workflow.Definition

/-!
# Workflow registries

The workflow types that an engine can run, by name.
-/

namespace Chronicle

inductive RegistryError where
  | unknownType (name : String)
  | undecodableInput (reason : String)
  deriving DecidableEq, Repr

def RegistryError.message : RegistryError → String
  | .unknownType name => s!"unknown workflow type: {name}"
  | .undecodableInput reason => s!"failed to deserialize workflow input: {reason}"

/-- Ascending order of names, each once. -/
def sortNames (names : List String) : List String :=
  (names.foldl (fun sorted name => Json.insertField name .null sorted) []).map Prod.fst

def quotedNames (names : List String) : String :=
  "[" ++ ", ".intercalate (names.map Text.quoted) ++ "]"

structure WorkflowRegistry where
  types : List WorkflowType

namespace WorkflowRegistry

def empty : WorkflowRegistry := ⟨[]⟩

/-- Adds a type in place of an earlier one of its name. -/
def register (registry : WorkflowRegistry) (type : WorkflowType) : WorkflowRegistry :=
  ⟨registry.types.filter (fun other => other.name != type.name) ++ [type]⟩

def ofList (types : List WorkflowType) : WorkflowRegistry := types.foldl register empty

def find? (registry : WorkflowRegistry) (name : String) : Option WorkflowType :=
  registry.types.find? fun type => type.name = name

def contains (registry : WorkflowRegistry) (name : String) : Bool := (registry.find? name).isSome

def size (registry : WorkflowRegistry) : Nat := registry.types.length

def names (registry : WorkflowRegistry) : List String :=
  sortNames (registry.types.map WorkflowType.name)

def restrict (registry : WorkflowRegistry) (names : List String) : WorkflowRegistry :=
  ⟨registry.types.filter fun type => names.contains type.name⟩

def text (registry : WorkflowRegistry) : String :=
  "WorkflowRegistry \x7b workflow_types: " ++ quotedNames registry.names ++ " \x7d"

end WorkflowRegistry

end Chronicle
