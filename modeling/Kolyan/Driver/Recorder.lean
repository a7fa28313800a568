/-
# The recorder and the boundary control of an attempt

`LedgerRecorder` (`driver/recorder.rs`), `LedgerBoundaryControl` and
`persist_error` (`driver.rs`).  One attempt of an execution records what its Turn
does under its own name and a counter, each fact by a plain append, and admits
the boundaries of the Turn by appends that a cancellation refuses, the
terminal boundary of a cancelled Turn apart.  An error of the Turn that left no
terminal fact is recorded by the driver.
-/

import Kolyan.Driver.Admission

namespace Kolyan
namespace Driver

open Checks Threads Ledger Policy Turn

/-- One attempt at an execution; `resumeCursor` is the last cursor at which a
resumed one began. -/
structure Attempt where
  key : ExecutionRef
  name : String
  resumeCursor : Option ℕ

section Encoding

variable (codec : DriverCodec)

/-- `encode_turn_event`. -/
def encodeTurnEvent : TurnEvent → LedgerEventKind × Value
  | .started turnId => (.turnStarted, .object [("turn_id", .string turnId)])
  | .stepStarted _ stepId => (.stepStarted, .object [("step_id", .string stepId)])
  | .stepCompleted _ step => (.stepCompleted, stepPayload codec step)
  | .toolCallRequested _ call => (.toolCallRequested, .object [("call_id", .string call.id),
      ("name", .string call.name), ("arguments", call.arguments)])
  | .approvalRequested _ callId name => (.approvalRequested, .object [("call_id", .string callId),
      ("name", .string name)])
  | .toolExecutionStarted _ callId name => (.toolExecutionStarted, .object [("call_id", .string callId),
      ("name", .string name)])
  | .toolResult _ result => (.toolExecutionCompleted, .object [("call_id", .string result.callId),
      ("is_error", .bool result.isError), ("result", result.toValue)])
  | .toolAwaitingExternal _ callId wait => (.toolAwaitingExternal, .object [("call_id", .string callId),
      ("wait", waitValue wait)])
  | .toolExecutionFailed _ callId name error => (.toolExecutionFailed, .object [
      ("call_id", .string callId), ("name", .string name), ("error", .string error.toString)])
  | .failed _ error => (.turnFailed, .object [("error", .string error)])
  | .cancelled _ => (.turnCancelled, .null)
  | .timedOut _ => (.turnTimedOut, .null)
  | .completed _ outcome => (.turnCompleted, .object [("outcome", .string (codec.outcome outcome))])

/-- A streamed event under its type. -/
def streamPayload (type stepId : String) (fields : List (String × Value)) : Value :=
  .object ([("type", .string type), ("step_id", .string stepId)] ++ fields)

/-- `encode_step_event`. -/
def encodeStepEvent : StepEvent → Option Value
  | .textDelta stepId text => some (streamPayload "text_delta" stepId [("text", .string text)])
  | .reasoningDelta stepId text => some (streamPayload "reasoning_delta" stepId [("text", .string text)])
  | .toolCallStarted stepId id name => some (streamPayload "tool_call_started" stepId
      [("id", .string id), ("name", .string name)])
  | .toolCallArgumentsDelta stepId id delta => some (streamPayload "tool_call_arguments_delta" stepId
      [("id", .string id), ("delta", .string delta)])
  | .toolCallCompleted stepId call => some (streamPayload "tool_call_completed" stepId
      [("call", call.toValue)])
  | .usage stepId usage => some (streamPayload "usage" stepId [("usage", usage)])
  | .unrecorded => none

end Encoding

section Recorder

variable (codec : DriverCodec)

/-- The fact of the attempt's next event. -/
def Attempt.turnEvent (attempt : Attempt) (next : ℕ) (kind : LedgerEventKind) (payload : Value) :
    LedgerEvent :=
  identified attempt.key
    (attempt.key.executionId ++ "/turn-event/" ++ attempt.name ++ "/" ++ toString next) kind payload

/-- `LedgerRecorder::append`, with the counter after it. -/
def Attempt.append (attempt : Attempt) (next : ℕ) (kind : LedgerEventKind) (payload : Value) :
    RawProg (Except TurnError Unit × ℕ) :=
  .ask (.ledger (.append (attempt.turnEvent next kind payload))) fun saved : Except LedgerError LedgerEvent =>
    .done (match saved with
      | .ok _ => (.ok (), next + 1)
      | .error error => (.error (.boundaryControl (ledgerText error)), next))

/-- `LedgerRecorder::record` of a Turn event. -/
def Attempt.record (attempt : Attempt) (next : ℕ) (event : TurnEvent) : RawProg (Except TurnError Unit × ℕ) :=
  attempt.append next (encodeTurnEvent codec event).1 (encodeTurnEvent codec event).2

/-- `LedgerRecorder::record_request`. -/
def Attempt.recordRequest (attempt : Attempt) (next : ℕ) (request : ModelRequest) :
    RawProg (Except TurnError Unit × ℕ) :=
  attempt.append next .modelRequested (.object [("request", codec.request request)])

/-- `LedgerRecorder::record` of a Step event. -/
def Attempt.recordStep (attempt : Attempt) (next : ℕ) (event : StepEvent) :
    RawProg (Except TurnError Unit × ℕ) :=
  match encodeStepEvent event with
  | none => .done (.ok (), next)
  | some payload => attempt.append next .modelStreamEvent payload

/-- What a failed step of the driver is to the Turn that asked for it. -/
def RuntimeError.toTurn : RuntimeError → TurnError
  | .ledger (.cancelled _) => .cancelled
  | error => .boundaryControl error.toString

variable (fuel : ℕ)

/-- The body of `LedgerRecorder::record_checkpoint`. -/
def commitCheckpoint (key : ExecutionRef) (checkpoint : TurnCheckpoint) : DriverProg Unit := do
  let admission ← InputAdmission.load codec key
  let _ ← Fallible.lift (admission.validateCheckpoint codec checkpoint)
  validateCheckpointHistory codec fuel key checkpoint
  let source ← publicationCursor fuel key.executionId
  let payload := publication source "checkpoint" (codec.checkpoint checkpoint)
  let id := publicationId codec key.executionId "prepared" payload
  let _ ← ledgerCall (appendUnlessCancelled (identified key id .turnCheckpointPrepared payload))

/-- `LedgerRecorder::record_checkpoint`. -/
def Attempt.recordCheckpoint (attempt : Attempt) (checkpoint : TurnCheckpoint) : HostProg TurnError Unit :=
  Fallible.mapError RuntimeError.toTurn (commitCheckpoint codec fuel attempt.key checkpoint)

end Recorder

section Boundaries

/-- `format!("{:?}", reason)`. -/
def reasonText : TurnEndReason → String
  | .finalAnswer => "FinalAnswer"
  | .refused => "Refused"
  | .incomplete => "Incomplete"
  | .maxSteps => "MaxSteps"
  | .failed => "Failed"
  | .cancelled => "Cancelled"
  | .timedOut => "TimedOut"
  | .approvalRejected => "ApprovalRejected"
  | .approvalExpired => "ApprovalExpired"
  | .noProgress => "NoProgress"

/-- The fact of a terminal boundary. -/
def terminalKind : TurnEndReason → LedgerEventKind
  | .cancelled => .turnCancelled
  | .timedOut => .turnTimedOut
  | .failed | .approvalRejected | .approvalExpired => .turnFailed
  | _ => .turnCompleted

/-- `boundary_event`: the suffix, the kind and the payload of a boundary. -/
def boundaryEvent : TurnBoundaryKind → String × LedgerEventKind × Value
  | .step stepId => ("step/" ++ stepId, .stepStarted, .object [("step_id", .string stepId)])
  | .tool stepId callId => ("tool/" ++ stepId ++ "/" ++ callId, .toolExecutionStarted,
      .object [("step_id", .string stepId), ("call_id", .string callId)])
  | .awaitingApproval approvalId => ("approval/" ++ approvalId ++ "/boundary", .executionBoundaryAdmitted,
      .object [("approval_id", .string approvalId)])
  | .resumeApproval approvalId => ("approval/" ++ approvalId ++ "/resume-boundary",
      .executionBoundaryAdmitted, .object [("approval_id", .string approvalId)])
  | .awaitingExternal checkpointId waitIds => ("checkpoint/" ++ checkpointId ++ "/wait-boundary",
      .executionBoundaryAdmitted,
      .object [("checkpoint_id", .string checkpointId), ("wait_ids", .strings waitIds)])
  | .resumeCheckpoint checkpointId => ("checkpoint/" ++ checkpointId ++ "/resume-boundary",
      .executionBoundaryAdmitted, .object [("checkpoint_id", .string checkpointId)])
  | .terminal reason => ("terminal/" ++ reasonText reason, terminalKind reason,
      .object [("reason", .string (reasonText reason))])

/-- The fact of a boundary.  Only the admissions of the life cycle differ between
the attempts; Steps and tools keep their identities. -/
def Attempt.boundaryFact (attempt : Attempt) (kind : TurnBoundaryKind) : LedgerEvent :=
  let (suffix, eventKind, payload) := boundaryEvent kind
  let suffix := match eventKind, attempt.resumeCursor with
    | .executionBoundaryAdmitted, some cursor => suffix ++ "/attempt/" ++ toString cursor
    | _, _ => suffix
  identified attempt.key (attempt.key.executionId ++ "/" ++ suffix) eventKind payload

/-- `map_err` of a boundary's append. -/
def boundaryError : LedgerError → TurnError
  | .cancelled _ => .cancelled
  | error => .boundaryControl (ledgerText error)

/-- `LedgerBoundaryControl::admit`. -/
def Attempt.admitBoundary (attempt : Attempt) (boundary : TurnBoundary) : HostProg TurnError Unit := do
  Fallible.lift (reject (boundary.turnId ≠ attempt.key.turnId)
    (.boundaryControl "boundary belongs to a different turn"))
  let event := attempt.boundaryFact boundary.kind
  let _ ← Fallible.mapError boundaryError (if boundary.kind = .terminal .cancelled then Ledger.append event
    else appendUnlessCancelled event)

end Boundaries

section Errors

/-- `TurnError::end_reason`. -/
def endReason : TurnError → TurnEndReason
  | .noProgress _ => .noProgress
  | .cancelled | .tool .cancelled => .cancelled
  | .timedOut | .tool .timedOut => .timedOut
  | .maxSteps => .maxSteps
  | _ => .failed

/-- A fact that ends a Turn. -/
def endsTurn : LedgerEventKind → Bool
  | .turnCompleted | .turnCancelled | .turnFailed | .turnTimedOut => true
  | _ => false

/-- The fact of a Turn that ended with an error. -/
def errorKind (error : TurnError) : LedgerEventKind :=
  match endReason error with
  | .cancelled => .turnCancelled
  | .timedOut => .turnTimedOut
  | _ => .turnFailed

/-- `DurableTurnDriver::persist_error`. -/
def persistError (fuel : ℕ) (key : ExecutionRef) (error : TurnError) : DriverProg Unit := do
  let events ← executionEvents fuel key.executionId
  if events.any (endsTurn ·.kind) then return ()
  else do
    let _ ← appendOnce key "turn-error" (errorKind error) (.object [("error", .string error.toString)])

end Errors

end Driver
end Kolyan
