import Chronicle.Engine.Program
import Chronicle.Simulation.Roster

/-!
# A store that can fail

A shell around a store fails chosen requests, and notes which runs are created.
-/

namespace Chronicle

/-! ## Faults -/

inductive Method where
  | createRun
  | getRun
  | currentRun
  | readEvents
  | commit
  | poll
  | completeTask
  | heartbeatTask
  | popDueTimers
  deriving DecidableEq, Repr

inductive FaultKind where
  | conflict
  | alreadyStarted
  | runClosed
  | runNotFound
  | serialization
  | unavailable
  /-- The request succeeds, but another writer comes first. -/
  | race
  deriving DecidableEq, Repr

structure Fault where
  method : Method
  kind : FaultKind
  times : Nat
  skip : Nat
  deriving DecidableEq, Repr

namespace FaultKind

def reason : String := "injected"

/-- The error of a failing request; a race has none of its own. -/
def error? (target : RunRef) : FaultKind → Option StoreError
  | .conflict => some (.versionConflict 1 2)
  | .alreadyStarted => some (.alreadyStarted "other" .nil)
  | .runClosed => some (.runClosed target)
  | .runNotFound => some (.runNotFound target)
  | .serialization => some (.serialization reason)
  | .unavailable => some (.unavailable reason)
  | .race => none

end FaultKind

namespace Fault

/-- Counts a request against the first fault for its method that is not used up. -/
def strike (method : Method) : List Fault → Option FaultKind × List Fault
  | [] => (none, [])
  | fault :: rest =>
      if fault.method = method && fault.times != 0 then
        if fault.skip = 0 then (some fault.kind, { fault with times := fault.times - 1 } :: rest)
        else (none, { fault with skip := fault.skip - 1 } :: rest)
      else
        let (kind, rest) := strike method rest
        (kind, fault :: rest)

end Fault

/-! ## Requests -/

namespace Request

def method? : Request → Option Method
  | .createRun _ => some .createRun
  | .getRun _ => some .getRun
  | .currentRun _ => some .currentRun
  | .readEvents _ _ => some .readEvents
  | .commit _ _ _ => some .commit
  | .openPoll => some .poll
  | .completeTask _ _ => some .completeTask
  | .heartbeatTask _ _ _ => some .heartbeatTask
  | .popDueTimers _ _ => some .popDueTimers
  | _ => none

/-- The run that a request is about; requests without one have an empty reference. -/
def target : Request → RunRef
  | .createRun new => new.ref
  | .getRun ref => ref
  | .readEvents ref _ => ref
  | .commit ref _ _ => ref
  | _ => ⟨"", .nil⟩

def refusal? (error : StoreError) : (request : Request) → Option request.Answer
  | .createRun _ => some (.error error)
  | .getRun _ => some (.error error)
  | .currentRun _ => some (.error error)
  | .readEvents _ _ => some (.error error)
  | .commit _ _ _ => some (.error error)
  | .openPoll => some (.error error)
  | .completeTask _ _ => some (.error error)
  | .heartbeatTask _ _ _ => some (.error error)
  | .popDueTimers _ _ => some (.error error)
  | _ => none

end Request

namespace Roster

/-- Notes new runs that a request has brought about. -/
def note (roster : Roster) : (request : Request) → request.Answer → Roster
  | .createRun new, .ok _ => roster.addRun new.ref
  | .commit _ _ commit, .ok _ => commit.newRuns.foldl (fun roster new => roster.addRun new.ref) roster
  | _, _ => roster

end Roster

/-! ## The shell -/

structure Shell where
  world : World
  faults : List Fault
  roster : Roster
  deriving DecidableEq, Repr

namespace Shell

def raceName : String := "race"

/-- Lets a signal overtake the request. -/
def race (target : RunRef) : Program (Except StoreError Nat) := do
  match ← .request (.historyVersion target) with
  | .error error => return .error error
  | .ok version =>
      let signal : Signal := ⟨raceName, .null, ← .request .now⟩
      .request (.commit target version (.ofEvents [.signalReceived signal]))

def forward (shell : Shell) (request : Request) : Except Crash request.Answer × Shell :=
  match World.answer request shell.world with
  | (.ok answer, world) =>
      (.ok answer, { shell with world := world, roster := shell.roster.note request answer })
  | (.error cause, world) => (.error cause, { shell with world := world })

def refuse (shell : Shell) (request : Request) (error : StoreError) :
    Except Crash request.Answer × Shell :=
  match request.refusal? error with
  | some answer => (.ok answer, shell)
  | none => shell.forward request

def fail (shell : Shell) (request : Request) (kind : FaultKind) :
    Except Crash request.Answer × Shell :=
  match kind.error? request.target with
  | some error => shell.refuse request error
  | none =>
      match (race request.target).run World.answer shell.world with
      | (.ok (.ok _), world) => { shell with world := world }.forward request
      | (.ok (.error error), world) => { shell with world := world }.refuse request error
      | (.error cause, world) => (.error cause, { shell with world := world })

def answer : Program.Handler Shell := fun request shell =>
  match request.method? with
  | none => shell.forward request
  | some method =>
      match Fault.strike method shell.faults with
      | (none, faults) => { shell with faults := faults }.forward request
      | (some kind, faults) => { shell with faults := faults }.fail request kind

end Shell

end Chronicle
