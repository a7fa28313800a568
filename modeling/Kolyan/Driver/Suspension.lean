/-
# Suspended executions

`kolyan-runtime/src/driver/suspension.rs`.  A suspended Turn is published as one
fact that holds its whole checkpoint, under the digest of its content; reading it
back checks that identity, the admitted input, the Steps in the ledger and the
evidence of every effect that the checkpoint speaks of.
-/

import Kolyan.Driver.Tools

namespace Kolyan
namespace Driver

open Checks Threads Ledger Policy Turn

/-- `TrajectoryRecord`. -/
structure TrajectoryRecord where
  sequence : ℕ
  kind : LedgerEventKind
  payload : Value

/-- `Trajectory`, without the errors of a trace sink. -/
structure Trajectory where
  turnId : String
  executionId : String
  records : List TrajectoryRecord

/-- `DurableTurnResult`. -/
inductive DurableTurnResult where
  | completed (result : TurnResult) (trajectory : Trajectory)
  | suspended (suspension : TurnSuspension) (trajectory : Trajectory)

/-- `Value::as_u64`. -/
def asU64 : Value → Option ℕ
  | .number text =>
      if text.toList ≠ [] ∧ text.toList.all Char.isDigit then
        let n := text.toList.foldl (fun n c => 10 * n + (c.toNat - 48)) 0
        if n < 2 ^ 64 then some n else none
      else none
  | _ => none

section Readers

variable (codec : DriverCodec) (fuel : ℕ)

/-- The facts that an attempt recorded under its counter. -/
def isTurnEvent (executionId : String) (event : LedgerEvent) : Bool :=
  (executionId ++ "/turn-event/").toList.isPrefixOf event.eventId.toList

/-- `DurableTurnDriver::project_events`. -/
def projectEvents (key : ExecutionRef) : DriverProg Trajectory := do
  let events ← executionEvents fuel key.executionId
  let recorded := events.filter (isTurnEvent key.executionId)
  return {
    turnId := key.turnId
    executionId := key.executionId
    records := recorded.map fun event =>
      { sequence := event.cursor, kind := event.kind, payload := event.payload } }

/-- The evidence of a saved authority. -/
def IssuedToolAuthority.evidence (issued : IssuedToolAuthority) (key : ExecutionRef) :
    Except RuntimeError PreparedEvidence :=
  invalid ToolError.toString (PreparedEvidence.new codec.evidence issued.prepared issued.grant
    issued.scope issued.policyRevision key)

/-- A fact that has to be in the ledger under its id and its kind. -/
def requireFact (key : ExecutionRef) (id missing : String) (kind : LedgerEventKind) :
    DriverProg LedgerEvent := do
  let found ← ledgerCall (eventById id)
  let event ← orRefuse found missing
  Fallible.lift (invalid ToolError.toString (checkEvent event key id kind))
  return event

/-- One fact of `validate_effect_authority`. -/
def validateAuthorityFact (key : ExecutionRef) (id : String) (kind : LedgerEventKind) (payload : Value) :
    DriverProg Unit := do
  let event ← requireFact key id "missing effect authority fact" kind
  refuse (event.payload ≠ payload) "effect preparation, scope or authority differs"

/-- `DurableTurnDriver::validate_effect_authority`. -/
def validateEffectAuthority (bound : PreparedEvidence) (key : ExecutionRef) : DriverProg Unit := do
  validateAuthorityFact key (bound.root ++ "/prepared") .effectPrepared bound.preparedPayload
  validateAuthorityFact key bound.authorization.authorizationId .effectAuthorized bound.authorizedPayload
  validateAuthorityFact key (bound.root ++ "/started") .effectStarted bound.startedPayload

/-- The result that a receipt stands for in a checkpoint. -/
def receiptResult (callId : String) : Except ToolError ToolResult → ToolResult
  | .ok output => output
  | .error error => feedback callId error

/-- The evidence of one call of a checkpoint. -/
def validateCallEffect (key : ExecutionRef) (item : CheckpointCall) : DriverProg Unit :=
  match item.state with
  | .ready | .completed _ none => return ()
  | .completed result (some issued) => do
      let bound ← Fallible.lift (IssuedToolAuthority.evidence codec issued key)
      validateEffectAuthority bound key
      let event ← requireFact key (bound.root ++ "/receipt") "completed checkpoint call has no receipt"
        .effectReceipt
      let saved ← Fallible.lift (invalid ToolError.toString
        (bound.validateReceipt codec.evidence event.payload))
      refuse (receiptResult item.call.id saved ≠ result) "checkpoint result differs from the exact receipt"
  | .awaitingExternal wait issued => do
      let bound ← Fallible.lift (IssuedToolAuthority.evidence codec issued key)
      validateEffectAuthority bound key
      let event ← requireFact key (bound.root ++ "/waiting")
        "checkpoint wait has no durable effect evidence" .effectAwaitingExternal
      let saved ← Fallible.lift (invalid ToolError.toString
        (bound.validateWait codec.evidence event.payload))
      refuse (saved ≠ wait) "checkpoint wait differs from effect evidence"

/-- The evidence of the calls of a checkpoint. -/
def validateCallEffects (key : ExecutionRef) : List CheckpointCall → DriverProg Unit
  | [] => return ()
  | item :: items => do
      validateCallEffect codec key item
      validateCallEffects key items

/-- `DurableTurnDriver::validate_checkpoint_effects`. -/
def validateCheckpointEffects (key : ExecutionRef) (checkpoint : TurnCheckpoint) : DriverProg Unit := do
  validateCheckpointHistory codec fuel key checkpoint
  validateCallEffects codec key checkpoint.calls

/-- A fact that holds a checkpoint. -/
def holdsCheckpoint : LedgerEventKind → Bool
  | .executionSuspended | .turnCheckpointMerged | .turnCheckpointPrepared => true
  | _ => false

/-- The category of a checkpoint fact. -/
def checkpointCategory : LedgerEventKind → String
  | .executionSuspended => "suspended"
  | .turnCheckpointPrepared => "prepared"
  | _ => "merged"

/-- The suspension that a checkpoint fact holds. -/
def readSuspension (admission : InputAdmission) (event : LedgerEvent) :
    Except RuntimeError TurnSuspension := do
  if event.kind = .executionSuspended then
    let suspension ← invalid id (codec.readSuspension (field "suspension" event.payload))
    let scope ← admission.validateCheckpoint codec suspension.checkpoint
    invalid CheckpointError.toString (suspension.validate codec.turn scope)
    return suspension
  else
    let checkpoint ← invalid id (codec.readCheckpoint (field "checkpoint" event.payload))
    let scope ← admission.validateCheckpoint codec checkpoint
    invalid CheckpointError.toString (TurnSuspension.fromCheckpoint codec.turn checkpoint scope)

/-- The payload that a suspension has to be saved as. -/
def suspensionPayload (kind : LedgerEventKind) (cursor : ℕ) (suspension : TurnSuspension) : Value :=
  if kind = .executionSuspended then publication cursor "suspension" (codec.suspension suspension)
  else publication cursor "checkpoint" (codec.checkpoint suspension.checkpoint)

/-- The identity of a checkpoint fact. -/
def checkPublication (executionId : String) (event : LedgerEvent) (suspension : TurnSuspension) :
    Except RuntimeError Unit := do
  let cursor ← expect (asU64 (field "publication_cursor" event.payload))
    (.driver "missing checkpoint publication cursor")
  reject (event.cursor ≤ cursor) (.driver "checkpoint publication does not follow its source")
  let expected := suspensionPayload codec event.kind cursor suspension
  let id := publicationId codec executionId (checkpointCategory event.kind) expected
  reject (event.payload ≠ expected ∨ event.eventId ≠ id ∨ event.idempotencyKey ≠ id)
    (.driver "checkpoint content identity differs")

/-- `DurableTurnDriver::load_current_suspension`. -/
def loadCurrentSuspension (executionId : String) : DriverProg TurnSuspension := do
  let key ← executionKey codec executionId
  let admission ← InputAdmission.load codec key
  let events ← executionEvents fuel executionId
  let event ← orRefuse (events.reverse.find? (holdsCheckpoint ·.kind)) "missing compound checkpoint"
  refuse (event.executionId ≠ key.executionId ∨ event.turnId ≠ key.turnId ∨
    field "schema_version" event.payload ≠ .nat 1) "foreign or unsupported compound checkpoint"
  let suspension ← Fallible.lift (readSuspension codec admission event)
  Fallible.lift (checkPublication codec executionId event suspension)
  validateCheckpointEffects codec fuel key suspension.checkpoint
  return suspension

/-- `DurableTurnDriver::load_suspension`. -/
def loadSuspension (executionId checkpointId : String) : DriverProg TurnSuspension := do
  let current ← loadCurrentSuspension codec fuel executionId
  refuse (current.checkpoint.checkpointId ≠ checkpointId) "stale or foreign checkpoint identity"
  return current

end Readers

section Publication

variable (codec : DriverCodec) (fuel : ℕ)

/-- The approvals that a suspension asks for. -/
def requestApprovals (key : ExecutionRef) : List ApprovalRequest → DriverProg Unit
  | [] => return ()
  | approval :: approvals => do
      let _ ← appendOnce key ("approval/" ++ approval.approvalId ++ "/requested") .approvalRequested
        (.object [("schema_version", .nat 1), ("approval", codec.approval approval)])
      requestApprovals key approvals

/-- The publication of a suspension under the digest of its content. -/
def publishSuspension (key : ExecutionRef) (suspension : TurnSuspension) : DriverProg Unit := do
  let cursor ← publicationCursor fuel key.executionId
  let payload := publication cursor "suspension" (codec.suspension suspension)
  let event := identified key (publicationId codec key.executionId "suspended" payload)
    .executionSuspended payload
  match ← ledgerCall (eventById event.eventId) with
  | some existing =>
      refuse (Execution.sameFact event existing = false ∨ existing.idempotencyKey ≠ event.eventId)
        "conflicting compound checkpoint publication"
  | none => do
      let _ ← ledgerCall (appendUnlessCancelled event)

/-- `DurableTurnDriver::suspended`. -/
def suspended (key : ExecutionRef) (suspension : TurnSuspension) : DriverProg DurableTurnResult := do
  let admission ← InputAdmission.load codec key
  let scope ← Fallible.lift (admission.validateCheckpoint codec suspension.checkpoint)
  Fallible.lift (invalid CheckpointError.toString (suspension.validate codec.turn scope))
  validateCheckpointEffects codec fuel key suspension.checkpoint
  requestApprovals codec key suspension.waiting.approvals
  publishSuspension codec fuel key suspension
  let trajectory ← projectEvents fuel key
  return .suspended suspension trajectory

/-- `DurableTurnDriver::completed`. -/
def completed (key : ExecutionRef) (result : TurnResult) : DriverProg DurableTurnResult := do
  let trajectory ← projectEvents fuel key
  return .completed result trajectory

end Publication

end Driver
end Kolyan
