import Chronicle.Activity.Behaviour
import Chronicle.Workflow.Registry

/-!
# Activity registries

The activity types that a worker can execute, by name.
-/

namespace Chronicle

structure ActivityRegistry where
  types : List ActivityType

namespace ActivityRegistry

def empty : ActivityRegistry := ⟨[]⟩

/-- Adds a type in place of an earlier one of its name. -/
def register (registry : ActivityRegistry) (type : ActivityType) : ActivityRegistry :=
  ⟨registry.types.filter (fun other => other.name != type.name) ++ [type]⟩

def ofList (types : List ActivityType) : ActivityRegistry := types.foldl register empty

def find? (registry : ActivityRegistry) (name : String) : Option ActivityType :=
  registry.types.find? fun type => type.name = name

def contains (registry : ActivityRegistry) (name : String) : Bool := (registry.find? name).isSome

def size (registry : ActivityRegistry) : Nat := registry.types.length

def names (registry : ActivityRegistry) : List String :=
  sortNames (registry.types.map ActivityType.name)

def text (registry : ActivityRegistry) : String :=
  "ActivityRegistry \x7b activity_types: " ++ quotedNames registry.names ++ " \x7d"

end ActivityRegistry

end Chronicle
