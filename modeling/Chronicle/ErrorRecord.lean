import Chronicle.Engine.Client
import Chronicle.Worker.Basic

/-!
# Errors as records

An error is written with its kind and its message.  The kind of an error that wraps another one
names both.
-/

namespace Chronicle

namespace ErrorRecord

def write (kind message : String) (more : List (String × Json)) : Json :=
  .record ([("error", .text kind), ("message", .text message)] ++ more)

def undecodable : Json := .record [("error", .text "decode")]

def crashed : Json := .record [("error", .text "panic")]

end ErrorRecord

open ErrorRecord

def CronError.kind : CronError → String
  | .fieldCount _ => "FieldCount"
  | .invalidField .. => "InvalidField"
  | .invalidInterval _ => "InvalidInterval"

def CronError.toJson (error : CronError) : Json := write error.kind error.message []

def RegistryError.kind : RegistryError → String
  | .unknownType _ => "UnknownWorkflowType"
  | .undecodableInput _ => "Deserialization"

def RegistryError.toJson (error : RegistryError) : Json := write error.kind error.message []

def ReplayError.kind : ReplayError → String
  | .nonDeterminism .. => "NonDeterminism"
  | .handlerPanicked .. => "HandlerPanicked"
  | .missingStart _ => "MissingStart"
  | .registry error => "Registry/" ++ error.kind

def ReplayError.toJson (error : ReplayError) : Json := write error.kind error.message []

def Failure.toErrorJson (failure : Failure) : Json :=
  write "WorkflowError" failure.text [("detail", failure.toJson)]

def HeartbeatError.kind : HeartbeatError → String
  | .channelClosed => "ChannelClosed"
  | .cancelled => "Cancelled"

def HeartbeatError.toJson (error : HeartbeatError) : Json := write error.kind error.message []

def StoreError.kind : StoreError → String
  | .runNotFound _ => "InstanceNotFound"
  | .workflowNotFound _ => "WorkflowNotFound"
  | .alreadyStarted .. => "AlreadyStarted"
  | .versionConflict .. => "ConcurrencyConflict"
  | .runClosed _ => "InstanceClosed"
  | .taskNotFound _ => "TaskNotFound"
  | .leaseLost _ => "LeaseLost"
  | .unavailable _ => "Unavailable"
  | .serialization _ => "Serialization"

def StoreError.toJson (error : StoreError) : Json := write error.kind error.message []

def EngineError.kind : EngineError → String
  | .store error => "Store/" ++ error.kind
  | .replay error => "Replay/" ++ error.kind
  | .runClosed _ => "WorkflowClosed"
  | .tooManyEvents .. => "TooManyEvents"
  | .conflictRetriesExhausted _ => "ConflictRetriesExhausted"
  | .query _ => "Query"
  | .invalidCronSchedule _ cause => "InvalidCronSchedule/" ++ cause.kind

def EngineError.toJson (error : EngineError) : Json :=
  let detail := match error with
    | .query failure => [("detail", failure.toJson)]
    | _ => []
  write error.kind error.message (("non_determinism", .bool error.isNonDeterminism) :: detail)

def ClientError.kind : ClientError → String
  | .workflowNotFound _ => "WorkflowNotFound"
  | .alreadyStarted _ => "AlreadyStarted"
  | .workflowClosed _ => "WorkflowClosed"
  | .workflowFailed _ => "WorkflowFailed"
  | .resultTimeout _ => "ResultTimeout"
  | .invalidArgument _ => "InvalidArgument"
  | .unknownWorkflowType _ => "UnknownWorkflowType"
  | .store error => "Store/" ++ error.kind
  | .engine error => "Executor/" ++ error.kind

def ClientError.toJson (error : ClientError) : Json :=
  let detail := match error with
    | .workflowFailed failure => [("detail", failure.toJson)]
    | _ => []
  write error.kind error.message detail

def WorkerError.kind : WorkerError → String
  | .store error => "Store/" ++ error.kind
  | .alreadyRunning => "AlreadyRunning"
  | .nothingRegistered => "NothingRegistered"
  | .shutdownTimeout => "ShutdownTimeout"

def WorkerError.toJson (error : WorkerError) : Json := write error.kind error.message []

end Chronicle
