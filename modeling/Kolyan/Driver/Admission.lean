/-
# The admitted input of an execution

`kolyan-runtime/src/driver/admission.rs` and the readers of `suspension.rs` that
rest on it.  A first start writes what the Turn was asked with and its ceilings
under the execution's id, once; every checkpoint of the execution has to agree
with that record and with the Steps that the ledger holds.  The encoders and the
decoders that `serde` derives are a parameter.
-/

import Kolyan.Driver.Ports

namespace Kolyan
namespace Driver

open Checks Threads Ledger Policy Turn

/-- `InputAdmission`. -/
structure InputAdmission where
  schemaVersion : ℕ
  key : ExecutionRef
  modelRequest : ModelRequest
  maxSteps : ℕ
  maxToolCalls : Option ℕ
  deadlineAtMs : Option ℕ
  toolTimeoutMs : Option ℕ
  dispatch : ToolDispatchPolicy
  agentSnapshotDigest : Option String

/-- What a driver's records are hashed, encoded and decoded by; `outcome` is the
debug text of an outcome, and a decoder fails with a text. -/
structure DriverCodec where
  turn : Codec
  evidence : EvidenceCodec
  outcome : TurnOutcome → String
  request : ModelRequest → Value
  step : StepResult → Value
  messages : List Message → Value
  approval : ApprovalRequest → Value
  checkpoint : TurnCheckpoint → Value
  suspension : TurnSuspension → Value
  admission : InputAdmission → Value
  readKey : Value → Except String ExecutionRef
  readStep : Value → Except String StepResult
  readCheckpoint : Value → Except String TurnCheckpoint
  readSuspension : Value → Except String TurnSuspension
  readAdmission : Value → Except String InputAdmission
  readConfirmation : Value → Except String ApprovalConfirmation
  readRequest : Value → Except String EffectRequest
  readPrepared : Value → Except String PreparedCall
  readScope : Value → Except String ToolExecutionScope
  readGrant : Value → Except String PreparedGrant

section Admissions

variable (codec : DriverCodec)

/-- `InputAdmission::validate`. -/
def InputAdmission.validate (admission : InputAdmission) : Except RuntimeError Unit := do
  reject (admission.schemaVersion ≠ 1 ∨ admission.maxSteps = 0)
    (.driver "invalid input admission schema or Step ceiling")
  invalid PreparedError.toString (ToolExecutionScope.validate {
    execution := admission.key
    stepId := "admission"
    agentSnapshotDigest := admission.agentSnapshotDigest })

/-- `TurnDeadline::validate_duration`, as the driver reports it. -/
def checkDuration (deadline : TurnDeadline) (duration : Option ℕ) : Except RuntimeError Unit :=
  reject (deadline.duration ≠ duration) (.deadline .durationMismatch)

/-- `InputAdmission::new`. -/
def InputAdmission.new (key : ExecutionRef) (request : TurnRequest) (dispatch : ToolDispatchPolicy)
    (toolTimeoutMs : Option ℕ) (agentSnapshotDigest : Option String) (deadline : TurnDeadline) :
    Except RuntimeError InputAdmission := do
  checkDuration deadline request.config.deadline
  let value : InputAdmission := {
    schemaVersion := 1
    key
    modelRequest := request.modelRequest
    maxSteps := request.config.maxSteps
    maxToolCalls := request.config.maxToolCalls
    deadlineAtMs := deadline.unixMs
    toolTimeoutMs
    dispatch
    agentSnapshotDigest }
  value.validate
  return value

/-- `InputAdmission::persist`. -/
def InputAdmission.persist (admission : InputAdmission) : DriverProg Unit := do
  Fallible.lift admission.validate
  let _ ← appendOnce admission.key "input-admitted" .executionInputAdmitted (codec.admission admission)

/-- The id of the admitted input. -/
def admittedId (key : ExecutionRef) : String := key.executionId ++ "/input-admitted"

/-- The checks of `InputAdmission::load_record` on the event that it found. -/
def readRecord (key : ExecutionRef) (event : LedgerEvent) : Except RuntimeError InputAdmission := do
  reject (event.kind ≠ .executionInputAdmitted ∨ event.executionId ≠ key.executionId ∨
      event.turnId ≠ key.turnId ∨ event.eventId ≠ admittedId key ∨ event.idempotencyKey ≠ admittedId key)
    (.driver "foreign admitted execution input")
  let value ← invalid id (codec.readAdmission event.payload)
  value.validate
  reject (value.key ≠ key ∨ codec.admission value ≠ event.payload)
    (.driver "admitted execution input differs or has unknown fields")
  return value

/-- `InputAdmission::load`. -/
def InputAdmission.load (key : ExecutionRef) : DriverProg InputAdmission := do
  let found ← ledgerCall (eventById (admittedId key))
  let event ← orRefuse found "missing admitted execution input"
  Fallible.lift (readRecord codec key event)

/-- `InputAdmission::expected_scope`. -/
def InputAdmission.expectedScope (admission : InputAdmission) (checkpoint : TurnCheckpoint) :
    Except RuntimeError ToolExecutionScope := do
  reject (checkpoint.steps = []) (.driver "empty suspended Step history")
  return {
    execution := admission.key
    stepId := stepName admission.key.turnId (checkpoint.steps.length - 1)
    agentSnapshotDigest := admission.agentSnapshotDigest }

/-- `within`. -/
def within : Option ℕ → Option ℕ → Bool
  | _, none => true
  | some saved, some admitted => saved ≤ admitted
  | none, some _ => false

/-- The checkpoint keeps the admitted context and ceilings. -/
def InputAdmission.covers (admission : InputAdmission) (checkpoint : TurnCheckpoint) : Bool :=
  { checkpoint.modelRequest with
      messages := admission.modelRequest.messages
      requestId := admission.modelRequest.requestId } = admission.modelRequest &&
    checkpoint.inputMessageCount = admission.modelRequest.messages.length &&
    admission.modelRequest.messages <+: checkpoint.modelRequest.messages &&
    checkpoint.dispatch = admission.dispatch && checkpoint.budget.maxSteps ≤ admission.maxSteps &&
    within checkpoint.budget.maxToolCalls admission.maxToolCalls &&
    within checkpoint.budget.deadlineAtMs admission.deadlineAtMs &&
    within checkpoint.budget.toolTimeoutMs admission.toolTimeoutMs

/-- `InputAdmission::validate_checkpoint`. -/
def InputAdmission.validateCheckpoint (admission : InputAdmission) (checkpoint : TurnCheckpoint) :
    Except RuntimeError ToolExecutionScope := do
  let scope ← admission.expectedScope checkpoint
  invalid CheckpointError.toString (checkpoint.validate codec.turn scope)
  reject (checkpoint.modelRequest.requestId ≠ scope.stepId)
    (.driver "checkpoint request identity differs from its Step")
  reject (admission.covers checkpoint = false)
    (.driver "checkpoint changes admitted context, snapshot or ceilings")
  return scope

/-- The checks of `execution_key` on the event that it found. -/
def readIdentity (executionId : String) (event : LedgerEvent) : Except RuntimeError ExecutionRef := do
  let key ← invalid id (codec.readKey event.payload)
  reject (event.kind ≠ .executionStarted ∨ event.eventId ≠ executionId ++ "/execution-started" ∨
      event.idempotencyKey ≠ executionId ++ "/execution-started" ∨ event.executionId ≠ executionId ∨
      key.executionId ≠ executionId ∨ event.turnId ≠ key.turnId ∨ key.toValue ≠ event.payload)
    (.driver "foreign or malformed execution identity")
  return key

/-- `DurableTurnDriver::execution_key`. -/
def executionKey (executionId : String) : DriverProg ExecutionRef := do
  let found ← ledgerCall (eventById (executionId ++ "/execution-started"))
  let event ← orRefuse found "missing execution identity"
  let key ← Fallible.lift (readIdentity codec executionId event)
  let _ ← InputAdmission.load codec key
  return key

/-- `format!("{:?}", outcome)` of a Step. -/
def stepOutcomeText : StepOutcome → String
  | .finalAnswer => "FinalAnswer"
  | .toolCalls => "ToolCalls"
  | .refused => "Refused"
  | .incomplete => "Incomplete"

/-- The payload of a completed Step. -/
def stepPayload (step : StepResult) : Value :=
  .object [("step_id", .string step.stepId), ("outcome", .string (stepOutcomeText step.outcome)),
    ("step", codec.step step)]

/-- The fact is this Step's completion. -/
def isStepFact (key : ExecutionRef) (step : StepResult) (event : LedgerEvent) : Bool :=
  event.kind = .stepCompleted && event.executionId = key.executionId && event.turnId = key.turnId &&
    event.payload = stepPayload codec step

variable (fuel : ℕ)

/-- `validate_checkpoint_history`. -/
def validateCheckpointHistory (key : ExecutionRef) (checkpoint : TurnCheckpoint) : DriverProg Unit := do
  let source ← executionEvents fuel key.executionId
  refuse (checkpoint.steps.any fun step => !source.any (isStepFact codec key step))
    "checkpoint Step differs from committed model response"

/-- `content_digest`. -/
def contentDigest (value : Value) : String := codec.turn.sha256 value

/-- The payload of a checkpoint publication. -/
def publication (cursor : ℕ) (what : String) (value : Value) : Value :=
  .object [("schema_version", .nat 1), ("publication_cursor", .nat cursor), (what, value)]

/-- The id of a checkpoint publication. -/
def publicationId (executionId category : String) (payload : Value) : String :=
  executionId ++ "/checkpoint/" ++ category ++ "/" ++ contentDigest codec payload

end Admissions

end Driver
end Kolyan
