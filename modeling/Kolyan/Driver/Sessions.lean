/-
# The Turns of a Session

The parts of `SessionExecutionService` (`kolyan-server/src/session_execution.rs`)
that end a Turn or commit its end: the cancellation of a suspended Turn, the
denial of an approval, and the Session commit.  `terminalStatus` is what the
Session reads from an execution's facts, beside the state that the coordinator
reads.
-/

import Kolyan.Driver.Resume

namespace Kolyan
namespace Driver

open Checks Threads Ledger Policy Turn

/-- `ServerError`. -/
inductive ServerError where
  | coordinator (error : Execution.CoordinatorError)
  | runtime (error : RuntimeError)
  | session (error : StorageError)

/-- Programs of the Server. -/
abbrev ServerProg := HostProg ServerError

/-- The Session status that a fact closes a Turn with. -/
def closingStatus : LedgerEventKind → Option SessionTurnStatus
  | .turnCompleted => some .completed
  | .turnCancelled => some .cancelled
  | .turnFailed | .turnTimedOut => some .failed
  | _ => none

/-- `terminal_status`. -/
def terminalStatus (events : List LedgerEvent) : Option SessionTurnStatus :=
  events.findSome? fun event => closingStatus event.kind

section Calls

variable {α : Type}

/-- A call of the coordinator; its error converts. -/
def coordinated (p : Execution.CoordinatorProg α) : ServerProg α :=
  Fallible.mapError .coordinator (coordinatorCall p)

/-- A call of the driver; its error converts. -/
def driven (p : DriverProg α) : ServerProg α := Fallible.mapError .runtime p

/-- A ledger call of the Server. -/
def serverLedger (p : LedgerProg HostOp.Answer α) : ServerProg α :=
  Fallible.mapError (fun error => .coordinator (.ledger error)) p

/-- A storage conflict. -/
def conflictIf (c : Prop) [Decidable c] (message : String) : ServerProg Unit :=
  Fallible.lift (reject c (.session (.conflict message)))

/-- `sessions.load`. -/
def loadSession (sessionId : String) : ServerProg SessionRecord := do
  let loaded ← host (.loadSession sessionId)
  Fallible.lift (mapError .session loaded)

end Calls

section Commits

variable (codec : DriverCodec) (fuel : ℕ)

/-- `format!("{status:?}")`. -/
def statusText : SessionTurnStatus → String
  | .running => "Running"
  | .suspended => "Suspended"
  | .completed => "Completed"
  | .cancelled => "Cancelled"
  | .failed => "Failed"

/-- `json!(status)`. -/
def statusValue : SessionTurnStatus → Value
  | .running => .string "running"
  | .suspended => .string "suspended"
  | .completed => .string "completed"
  | .cancelled => .string "cancelled"
  | .failed => .string "failed"

/-- The message that a recorded fact adds to the context of a Session. -/
def contextMessage (event : LedgerEvent) : Except ServerError (List Message) :=
  match event.kind with
  | .stepCompleted => do
      let step ← mapError (fun text => .session (.failed text)) (codec.readStep (field "step" event.payload))
      return [assistantMessage step.response.content]
  | .toolExecutionCompleted => do
      let result ← mapError (fun text => .session (.failed text))
        (codec.evidence.result (field "result" event.payload))
      return [result.message]
  | _ => return []

/-- The messages that recorded facts add to the context of a Session. -/
def contextMessages : List LedgerEvent → Except ServerError (List Message)
  | [] => .ok []
  | event :: events => do
      let message ← contextMessage codec event
      let messages ← contextMessages events
      return message ++ messages

/-- The context that a completed Turn commits. -/
def completedContext (session : SessionRecord) (execution : ExecutionRef) : ServerProg (List Message) := do
  let input ← Fallible.lift (expect (session.inputs.lookup execution.turnId)
    (.session (.conflict "missing immutable Turn input")))
  let events ← serverLedger (executionEventsAfter fuel execution.executionId 0)
  let messages ← Fallible.lift
    (contextMessages codec (events.filter (isTurnEvent execution.executionId)))
  return input ++ messages

/-- `SessionExecutionService::commit_session`. -/
def commitSession (sessionId turnId : String) (status : SessionTurnStatus) (messages : List Message) :
    ServerProg Unit := do
  let session ← loadSession sessionId
  let turn ← Fallible.lift (expect (session.turns.find? (·.turnId = turnId)) (.session (.notFound turnId)))
  let execution := { sessionId, turnId, executionId := turn.executionId }
  let context ← if status = .completed then completedContext codec fuel session execution else pure []
  coordinated (Execution.appendOnce execution ("session/" ++ statusText status ++ "/prepared")
    .sessionCommitPrepared (.object [("session_id", .string sessionId), ("status", statusValue status),
      ("messages", codec.messages messages), ("context_messages", codec.messages context)]))
  let updated ← host (.updateTurn sessionId turnId status messages context)
  Fallible.lift (mapError .session updated)
  coordinated (Execution.appendOnce execution ("session/" ++ statusText status ++ "/committed")
    .sessionCommitted (.object [("session_id", .string sessionId), ("status", statusValue status)]))

/-- `SessionExecutionService::cancel`. -/
def cancelTurn (execution : ExecutionRef) : ServerProg Unit := do
  let state ← coordinated (Execution.state fuel execution.executionId)
  coordinated (Execution.cancel fuel execution)
  if state = .suspended then do
    coordinated (Execution.appendOnce execution "turn-cancelled-at-suspension" .turnCancelled
      (.object [("boundary", .string "suspension")]))
    commitSession codec fuel execution.sessionId execution.turnId .cancelled []
  else return ()

end Commits

section Denials

variable (codec : DriverCodec) (fuel : ℕ)

/-- `validate_approval_transition`. -/
def validateApprovalTransition (suspension : TurnSuspension) (approvalId : String)
    (scope : ToolExecutionScope) : Except TurnError Unit := do
  mapError checkpointError (suspension.validate codec.turn scope)
  reject (suspension.waiting.approvals.all (·.approvalId ≠ approvalId))
    (.invalidRequest "approval id does not match a pending checkpoint approval")

/-- `validate_owner`. -/
def validateOwner (key : ExecutionRef) (suspension : TurnSuspension) : Except StorageError Unit := do
  reject (suspension.checkpoint.scope.execution ≠ key) (.conflict "foreign suspension owner")
  mapError (fun error => .conflict (CheckpointError.toString error))
    (suspension.validate codec.turn suspension.checkpoint.scope)

/-- `pending_approval`, at one moment. -/
def pendingApproval (suspension : TurnSuspension) (approvalId : String) (nowMs : ℕ) :
    Except StorageError CheckpointApproval :=
  expect (suspension.checkpoint.approvals.find? fun approval =>
      approval.approvalId = approvalId && approval.evidenceId.isNone &&
        approval.expiresAtMs.all (nowMs < ·) &&
        suspension.waiting.approvals.any (·.approvalId = approvalId))
    (.conflict "approval is expired, resolved or not pending")

/-- The approval that a decision is about: a saved one, else a pending one. -/
def decidedApproval (suspension : TurnSuspension) (approvalId : String) (nowMs : ℕ) :
    Except StorageError CheckpointApproval :=
  match suspension.checkpoint.approvals.find? fun approval =>
      approval.approvalId = approvalId && approval.evidenceId.isSome with
  | some saved => .ok saved
  | none => pendingApproval suspension approvalId nowMs

/-- The id of the decision on an approval. -/
def decisionId (key : ExecutionRef) (checkpointId approvalId : String) : String :=
  "approval-decision-" ++ codec.turn.sha256
    (.array [key.toValue, .string checkpointId, .string approvalId])

/-- `record_approval_decision`. -/
def recordApprovalDecision (key : ExecutionRef) (suspension : TurnSuspension) (approvalId decision : String) :
    ServerProg Unit := do
  Fallible.lift (mapError .session (validateOwner codec key suspension))
  let sight ← host (.turn .look)
  let approval ← Fallible.lift (mapError .session
    (decidedApproval suspension approvalId (Sight.nowMs sight)))
  let evidenceId := decisionId codec key suspension.checkpoint.checkpointId approvalId
  conflictIf (approval.evidenceId.any (· ≠ evidenceId)) "saved approval evidence identity differs"
  let confirmation := {
    approvalId
    preparedDigest := approval.prepared.digest
    policyRevision := approval.policyRevision
    scope := approval.scope
    evidenceId }
  let payload := approvalDecisionPayload suspension.checkpoint.checkpointId confirmation decision
  let event := identified key evidenceId .approvalResolved payload
  match ← serverLedger (eventById evidenceId) with
  | some existing =>
      conflictIf (Execution.sameFact event existing = false ∨ existing.idempotencyKey ≠ evidenceId)
        "conflicting approval decision"
  | none => do
      let _ ← serverLedger (appendUnlessCancelled event)

/-- The Turn of a Session that waits in the execution. -/
def SessionRecord.suspends (session : SessionRecord) (execution : ExecutionRef) : Bool :=
  session.turns.any fun turn => turn.turnId = execution.turnId &&
    turn.executionId = execution.executionId && turn.status = .suspended

/-- The facts of a denial, once the execution is claimed. -/
def commitDenial (execution : ExecutionRef) (suspension : TurnSuspension) (approvalId : String) :
    ServerProg Unit := do
  recordApprovalDecision codec execution suspension approvalId "deny"
  let id := execution.executionId ++ "/approval/" ++ approvalId ++ "/denied"
  let _ ← serverLedger (appendUnlessCancelled (identified execution id .turnFailed
    (.object [("reason", .string "ApprovalRejected"), ("approval_id", .string approvalId)])))
  commitSession codec fuel execution.sessionId execution.turnId .failed []

/-- `SessionExecutionService::deny_pending`; the guard releases the execution
however the denial ends. -/
def denyPending (execution : ExecutionRef) (expectedScope : ToolExecutionScope) (approvalId : String) :
    ServerProg Unit := do
  let session ← loadSession execution.sessionId
  conflictIf (SessionRecord.suspends session execution = false) "Turn is not suspended under this Session"
  let state ← coordinated (Execution.state fuel execution.executionId)
  conflictIf (state ≠ .suspended) "Turn is not suspended under this Session"
  let suspension ← driven (loadCurrentSuspension codec fuel execution.executionId)
  conflictIf (suspension.checkpoint.scope.execution.turnId ≠ execution.turnId) "approval Turn mismatch"
  Fallible.lift (mapError (fun error => .runtime (.turn error))
    (validateApprovalTransition codec suspension approvalId expectedScope))
  let _ ← coordinated (Execution.admitExecution execution .resume)
  let outcome ← Fallible.attempt (commitDenial codec fuel execution suspension approvalId)
  coordinated (Execution.release execution.executionId)
  Fallible.lift outcome

end Denials

end Driver
end Kolyan
