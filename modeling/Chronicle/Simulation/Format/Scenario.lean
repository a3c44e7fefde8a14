import Chronicle.Simulation.Format.Steps
import Chronicle.Simulation.Scenario

/-!
# Scenarios as records

A scenario is a record with the settings of its engine, timer service and client, and a list of
steps.  It is answered by the list of the answers of its steps, in which identifiers have the short
names that they bear at the end of the step.
-/

namespace Chronicle.Simulation.Format

def Deployment.ofJson? (scenario : Json) : Option Deployment := do
  let timer ← scenario.readAt "timer" TimerConfig.ofJson? .standard
  let client ← scenario.readAt "client" ClientConfig.ofJson? .standard
  let workflows ← scenario.optional "workflows" Json.texts?
  let activities ← scenario.optional "activities" Json.texts?
  some
    { workflows := workflows
      activities := activities
      limits :=
        { EngineLimits.standard with
          maxEvents := scenario.natAt "max_events" EngineLimits.standard.maxEvents
          maxConflictRetries :=
            scenario.shortAt "max_conflict_retries" EngineLimits.standard.maxConflictRetries }
      timer := timer
      client := client
      clientHasTypes := scenario.get "client_registry" != .bool false }

/-- New Year 2024, when clocks start unless told otherwise. -/
def usualStart : Instant := ⟨1704067200, 0⟩

def readStep (deployment : Deployment) (session : Session) (step : Json) : StepAction :=
  Scene.action ⟨deployment, session, session.roster.expand step⟩

def setting (deployment : Deployment) : Setting Json Json :=
  { catalogue := fun version => Samples.selectWorkflows version none
    read := readStep deployment
    crashed := ErrorRecord.crashed }

def runScenario? (scenario : Json) : Option Json := do
  let start ← scenario.readAt "clock" Instant.ofJson? usualStart
  let deployment ← Deployment.ofJson? scenario
  let answers := (setting deployment).run (.start start.withoutLeap) (scenario.itemsAt "steps")
  some (.list (answers.map fun (answer, session) =>
    session.roster.abbreviate (withCounts answer session.store)))

end Chronicle.Simulation.Format
