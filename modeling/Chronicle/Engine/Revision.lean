import Chronicle.Engine.Decision

/-!
# Revising a run

A revision reads a run and its history, derives a commit from them, and starts again if the
history has grown in the meantime.
-/

namespace Chronicle

/-- What a revision does with the run it has read: write, or leave it as it is and say why. -/
inductive Revision (α : Type) where
  | keep (reason : α)
  | write (commit : Commit)
  | writeAt (commit : Instant → Commit)

inductive Revised (α : Type) where
  | kept (reason : α)
  | written (version : Nat)

/-- Derives a commit from a run and its ledger. -/
abbrev Reviser (α : Type) := Run → Ledger → Revision α

namespace Revision

def outcome {α : Type} : Revision α → Program (Except α Commit)
  | .keep reason => return .error reason
  | .write commit => return .ok commit
  | .writeAt commit => return .ok (commit (← .request .now))

/-- Revises an open run; the number bounds the rounds. -/
def attempt {α : Type} (ref : RunRef) (reviser : Reviser α) :
    Nat → Program (Except EngineError (Revised α))
  | 0 => return .error (.conflictRetriesExhausted ref)
  | rounds + 1 => do
      match ← .request (.getRun ref) with
      | .error error => return .error (.store error)
      | .ok run =>
          if run.status.isClosed then return .error (.runClosed ref)
          else
            match ← .request (.readEvents ref 0) with
            | .error error => return .error (.store error)
            | .ok history =>
                match ← (reviser run (.ofHistory history)).outcome with
                | .error reason => return .ok (.kept reason)
                | .ok commit =>
                    match ← .request (.commit ref history.length commit) with
                    | .ok version => return .ok (.written version)
                    | .error (.versionConflict _ _) => attempt ref reviser rounds
                    | .error (.runClosed _) => return .error (.runClosed ref)
                    | .error error => return .error (.store error)

end Revision

end Chronicle
