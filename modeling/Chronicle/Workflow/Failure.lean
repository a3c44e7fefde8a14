import Chronicle.Json.Record

/-!
# Failures

How an activity attempt failed, and how a workflow run failed.
-/

namespace Chronicle

structure ActivityFailure where
  message : String
  code : Option String
  retryable : Bool
  details : Option Json
  deriving DecidableEq, Repr

namespace ActivityFailure

def timeoutCode : String := "timeout"

def panicCode : String := "panic"

def cancelledCode : String := "cancelled"

def serializationCode : String := "serialization"

def transient (message : String) : ActivityFailure := ⟨message, none, true, none⟩

def permanent (message : String) : ActivityFailure := ⟨message, none, false, none⟩

def withCode (failure : ActivityFailure) (code : String) : ActivityFailure :=
  { failure with code := some code }

def timedOut (timeout : String) : ActivityFailure :=
  (transient s!"activity timed out ({timeout})").withCode timeoutCode

def cancelled : ActivityFailure := (permanent "activity cancelled").withCode cancelledCode

def undecodable (message : String) : ActivityFailure :=
  (permanent message).withCode serializationCode

def toJson (failure : ActivityFailure) : Json :=
  .record [("message", .text failure.message), ("code", .ofOption .text failure.code),
    ("retryable", .bool failure.retryable), ("details", .orNull failure.details)]

def ofJson? (value : Json) : Option ActivityFailure := do
  let message ← value.required "message" Json.text?
  let code ← value.optional "code" Json.text?
  let retryable ← value.required "retryable" Json.bool?
  let details ← value.optional "details" Json.any?
  some ⟨message, code, retryable, details⟩

end ActivityFailure

inductive FailureKind where
  | activity
  | timeout
  | application
  | nonDeterminism
  | cancelled
  | terminated
  | infrastructure
  deriving DecidableEq, Repr

namespace FailureKind

def all : List FailureKind :=
  [.activity, .timeout, .application, .nonDeterminism, .cancelled, .terminated, .infrastructure]

def name : FailureKind → String
  | .activity => "activity"
  | .timeout => "timeout"
  | .application => "application"
  | .nonDeterminism => "non_determinism"
  | .cancelled => "cancelled"
  | .terminated => "terminated"
  | .infrastructure => "infrastructure"

def toJson (kind : FailureKind) : Json := .text kind.name

def ofJson? : Json → Option FailureKind := Json.oneOf? all name

def ofTaggedJson? : Json → Option FailureKind := Json.taggedOneOf? all name

end FailureKind

structure Failure where
  kind : FailureKind
  message : String
  code : Option String
  retryable : Bool
  details : Option Json
  deriving DecidableEq, Repr

namespace Failure

def ofKind (kind : FailureKind) (message : String) : Failure := ⟨kind, message, none, false, none⟩

def application (message : String) : Failure := ofKind .application message

def withCode (failure : Failure) (code : String) : Failure := { failure with code := some code }

/-- Failure of a run whose activity failed: it keeps code and retryability. -/
def ofActivity (activityId : String) (failure : ActivityFailure) : Failure :=
  { kind := if failure.code = some ActivityFailure.timeoutCode then .timeout else .activity
    message := s!"activity {activityId} failed: {failure.message}"
    code := failure.code
    retryable := failure.retryable
    details := some failure.toJson }

def text (failure : Failure) : String := s!"{failure.kind.name} error: {failure.message}"

def toJson (failure : Failure) : Json :=
  .record [("kind", failure.kind.toJson), ("message", .text failure.message),
    ("code", .ofOption .text failure.code), ("retryable", .bool failure.retryable),
    ("details", .orNull failure.details)]

def readWith (kind? : Json → Option FailureKind) (value : Json) : Option Failure := do
  let kind ← value.required "kind" kind?
  let message ← value.required "message" Json.text?
  let code ← value.optional "code" Json.text?
  let retryable ← value.defaulted "retryable" false Json.bool?
  let details ← value.optional "details" Json.any?
  some ⟨kind, message, code, retryable, details⟩

def ofJson? : Json → Option Failure := readWith FailureKind.ofJson?

/-- The failure in a record that is tagged with its type. -/
def ofTaggedJson? : Json → Option Failure := readWith FailureKind.ofTaggedJson?

end Failure

end Chronicle
