/-
# The evidence of a prepared tool effect

`kolyan-runtime/src/reconciliation/receipt.rs` with the effect types of
`execution.rs`, and the framing of an external wait of `external.rs`.  A
`PreparedEvidence` binds one prepared call to its grant, its scope and its
execution, and writes and checks the payloads of the facts that its effect
leaves in the ledger.  What reads a payload back is `serde_json`'s decoder, a
parameter.
-/

import Kolyan.Ledger.Port
import Kolyan.Tasks.Encoding
import Kolyan.Turn.Dispatch

namespace Kolyan
namespace Driver

open Checks Ledger Policy Turn

section Types

/-- `EffectRequest`. -/
structure EffectRequest where
  effectId : String
  operationKind : String
  inputDigest : String
  requirements : List String
  policyRevision : String
  deriving DecidableEq

/-- `EffectGrant`. -/
structure EffectGrant where
  authorizationId : String
  effectId : String
  inputDigest : String
  constraintsDigest : String
  authorityRevision : String
  deriving DecidableEq

/-- `ReceiptStatus`. -/
inductive ReceiptStatus where
  | completed | failed | uncertain
  deriving DecidableEq

/-- `EffectReceipt`. -/
structure EffectReceipt where
  receiptId : String
  effectId : String
  authorizationId : String
  inputDigest : String
  executorId : String
  executorRevision : String
  resultDigest : String
  status : ReceiptStatus

/-- `ReconciliationRequest`. -/
structure ReconciliationRequest where
  reconciliationId : String
  execution : ExecutionRef
  effectId : String
  deriving DecidableEq

/-- `ReconciliationResolution`. -/
inductive ReconciliationResolution where
  | committed (output : ToolResult) (executorId executorRevision evidence : String)
  | notCommitted (evidence : String)
  | unknown (evidence : String)
  deriving DecidableEq

/-- SHA-256 of a canonical encoding, the compact text of a value, and the
decoders of `serde_json`, which fail with a text. -/
structure EvidenceCodec where
  sha256 : Value → String
  text : Value → String
  receipt : Value → Except String EffectReceipt
  result : Value → Except String ToolResult
  wait : Value → Except String ExternalWait
  request : Value → Except String ReconciliationRequest
  resolution : Value → Except String ReconciliationResolution

end Types

section Encoding

/-- `Value::get`. -/
def field? (key : String) : Value → Option Value
  | .object fields => fields.lookup key
  | _ => none

/-- `value[key]`: a field, `null` where there is none. -/
def field (key : String) (value : Value) : Value := (field? key value).getD .null

/-- `Value::as_str`. -/
def asStr : Value → Option String
  | .string text => some text
  | _ => none

/-- `EffectRequest`, its fields. -/
def EffectRequest.fields (r : EffectRequest) : List (String × Value) :=
  [("effect_id", .string r.effectId), ("operation_kind", .string r.operationKind),
    ("input_digest", .string r.inputDigest), ("requirements", .strings r.requirements),
    ("policy_revision", .string r.policyRevision)]

/-- `EffectGrant`, its fields. -/
def EffectGrant.fields (g : EffectGrant) : List (String × Value) :=
  [("authorization_id", .string g.authorizationId), ("effect_id", .string g.effectId),
    ("input_digest", .string g.inputDigest), ("constraints_digest", .string g.constraintsDigest),
    ("authority_revision", .string g.authorityRevision)]

/-- `ReceiptStatus`. -/
def ReceiptStatus.toValue : ReceiptStatus → Value
  | completed => .string "Completed"
  | failed => .string "Failed"
  | uncertain => .string "Uncertain"

/-- `EffectReceipt`. -/
def EffectReceipt.toValue (r : EffectReceipt) : Value :=
  .object [("receipt_id", .string r.receiptId), ("effect_id", .string r.effectId),
    ("authorization_id", .string r.authorizationId), ("input_digest", .string r.inputDigest),
    ("executor_id", .string r.executorId), ("executor_revision", .string r.executorRevision),
    ("result_digest", .string r.resultDigest), ("status", r.status.toValue)]

/-- `ExternalWait`. -/
def waitValue (w : ExternalWait) : Value :=
  .object [("wait_id", .string w.waitId), ("kind", .string w.kind),
    ("schema_version", .nat w.schemaVersion), ("binding", w.binding)]

/-- `ReconciliationRequest`. -/
def ReconciliationRequest.toValue (r : ReconciliationRequest) : Value :=
  .object [("reconciliation_id", .string r.reconciliationId), ("execution", r.execution.toValue),
    ("effect_id", .string r.effectId)]

/-- `ReconciliationResolution`. -/
def ReconciliationResolution.toValue : ReconciliationResolution → Value
  | committed output executorId executorRevision evidence =>
      .object [("Committed", .object [("output", output.toValue), ("executor_id", .string executorId),
        ("executor_revision", .string executorRevision), ("evidence", .string evidence)])]
  | notCommitted evidence => .object [("NotCommitted", .object [("evidence", .string evidence)])]
  | unknown evidence => .object [("Unknown", .object [("evidence", .string evidence)])]

/-- `encode_error`. -/
def encodeError : ToolError → Value
  | .invalidBatch message => .object [("kind", .string "invalid_batch"), ("message", .string message)]
  | .unavailable name => .object [("kind", .string "unavailable"), ("name", .string name)]
  | .failed message => .object [("kind", .string "failed"), ("message", .string message)]
  | .cancelled => .object [("kind", .string "cancelled")]
  | .timedOut => .object [("kind", .string "timed_out")]
  | .policyDenied message => .object [("kind", .string "policy_denied"), ("message", .string message)]
  | .uncertain message => .object [("kind", .string "uncertain"), ("message", .string message)]

/-- A text of a recorded error. -/
def errorText (key : String) (value : Value) : Except ToolError String :=
  expect (asStr (field key value)) (.failed "invalid recorded tool error")

/-- The error that a recorded kind names. -/
def namedError (value : Value) : Option String → Except ToolError ToolError
  | some "invalid_batch" => do return .invalidBatch (← errorText "message" value)
  | some "unavailable" => do return .unavailable (← errorText "name" value)
  | some "failed" => do return .failed (← errorText "message" value)
  | some "cancelled" => .ok .cancelled
  | some "timed_out" => .ok .timedOut
  | some "policy_denied" => do return .policyDenied (← errorText "message" value)
  | _ => .error (.failed "unknown recorded tool error")

/-- `decode_error`. -/
def decodeError (value : Value) : Except ToolError ToolError := do
  let error ← namedError value (asStr (field "kind" value))
  reject (encodeError error ≠ value) (.failed "unexpected recorded tool error fields")
  return error

end Encoding

section Evidence

variable (codec : EvidenceCodec)

/-- `digest` of a domain and a value. -/
def digest (domain : String) (value : Value) : String :=
  codec.sha256 (Value.array [.string domain, value]).canonical

/-- `PreparedEvidence`. -/
structure PreparedEvidence where
  request : EffectRequest
  authorization : EffectGrant
  prepared : PreparedCall
  scope : ToolExecutionScope
  grant : PreparedGrant
  deriving DecidableEq

/-- The id of the effect of a call. -/
def effectId (prepared : PreparedCall) (scope : ToolExecutionScope) : String :=
  scope.stepId ++ "/" ++ prepared.call.id

/-- The digest of what an effect is given. -/
def inputDigest (prepared : PreparedCall) (scope : ToolExecutionScope) : String :=
  digest codec "kolyan.runtime.prepared-input.v1"
    (.object [("prepared_digest", .string prepared.digest), ("scope", scope.toValue)])

/-- The evidence of a call, before its bindings are checked. -/
def boundEvidence (prepared : PreparedCall) (grant : PreparedGrant) (scope : ToolExecutionScope)
    (policyRevision : String) (execution : ExecutionRef) : PreparedEvidence where
  request := {
    effectId := effectId prepared scope
    operationKind := prepared.call.name
    inputDigest := inputDigest codec prepared scope
    requirements := [codec.text prepared.requirements.toValue.canonical]
    policyRevision := policyRevision }
  authorization := {
    authorizationId := execution.executionId ++ "/effect/" ++ effectId prepared scope ++ "/authorized"
    effectId := effectId prepared scope
    inputDigest := inputDigest codec prepared scope
    constraintsDigest := digest codec "kolyan.runtime.prepared-grant.v1" grant.toValue
    authorityRevision := policyRevision }
  prepared := prepared
  scope := scope
  grant := grant

/-- `PreparedEvidence::new`. -/
def PreparedEvidence.new (prepared : PreparedCall) (grant : PreparedGrant) (scope : ToolExecutionScope)
    (policyRevision : String) (execution : ExecutionRef) : Except ToolError PreparedEvidence := do
  mapError (fun error => .failed error.toString) scope.validate
  reject (scope.execution ≠ execution) (.failed "tool invocation execution scope mismatch")
  mapError (fun error => .failed error.toString)
    (grant.validate codec.sha256 prepared policyRevision scope)
  return boundEvidence codec prepared grant scope policyRevision execution

variable (bound : PreparedEvidence)

/-- `PreparedEvidence::prefix`. -/
def PreparedEvidence.root : String :=
  bound.scope.execution.executionId ++ "/effect/" ++ bound.request.effectId

/-- `PreparedEvidence::executor_id`. -/
def PreparedEvidence.executorId : String := "tool/" ++ bound.prepared.call.name

/-- `PreparedEvidence::issued`. -/
def PreparedEvidence.issued : IssuedToolAuthority where
  prepared := bound.prepared
  grant := bound.grant
  scope := bound.scope
  policyRevision := bound.request.policyRevision

/-- `PreparedEvidence::input`. -/
def PreparedEvidence.input : Value :=
  .object [("prepared", bound.prepared.toValue), ("scope", bound.scope.toValue)]

/-- `PreparedEvidence::prepared_payload`. -/
def PreparedEvidence.preparedPayload : Value :=
  .object (bound.request.fields ++ [("binding_kind", .string "prepared_tool_v1"), ("input", bound.input)])

/-- `PreparedEvidence::authorized_payload`. -/
def PreparedEvidence.authorizedPayload : Value :=
  .object (bound.authorization.fields ++ [("prepared_grant", bound.grant.toValue)])

/-- `PreparedEvidence::started_payload`. -/
def PreparedEvidence.startedPayload : Value :=
  .object [("effect_id", .string bound.request.effectId),
    ("input_digest", .string bound.request.inputDigest), ("scope", bound.scope.toValue)]

/-- `ExternalWaitContext::validate`, in the scope of the effect. -/
def PreparedEvidence.validateContext (wait : ExternalWait) : Except ToolError Unit :=
  mapError (fun error => .policyDenied ("invalid external wait binding: " ++ error.toString)) do
    bound.issued.validate ⟨codec.sha256, fun _ => 0⟩ bound.scope
    wait.validate

/-- `PreparedEvidence::wait_payload`. -/
def PreparedEvidence.waitPayload (wait : ExternalWait) : Except ToolError Value := do
  bound.validateContext codec wait
  return .object [("schema_version", .nat 1), ("effect_id", .string bound.request.effectId),
    ("input", bound.input), ("authorization", .object bound.authorization.fields),
    ("prepared_grant", bound.grant.toValue), ("wait", waitValue wait)]

/-- `PreparedEvidence::validate_wait`. -/
def PreparedEvidence.validateWait (payload : Value) : Except ToolError ExternalWait := do
  let wait ← mapError .failed (codec.wait (field "wait" payload))
  let expected ← bound.waitPayload codec wait
  reject (payload ≠ expected) (.failed "external wait historical authority differs")
  return wait

/-- The receipt of an outcome. -/
def PreparedEvidence.receipt (status : ReceiptStatus) (outcome : Value) : EffectReceipt where
  receiptId := bound.root ++ "/receipt"
  effectId := bound.request.effectId
  authorizationId := bound.authorization.authorizationId
  inputDigest := bound.request.inputDigest
  executorId := bound.executorId
  executorRevision := bound.prepared.toolRevision
  resultDigest := digest codec "kolyan.runtime.prepared-result.v1" outcome
  status := status

/-- The payload of a receipt, its outcome under `key`. -/
def PreparedEvidence.receiptValue (key : String) (outcome : Value) (status : ReceiptStatus) : Value :=
  .object [("effect_id", .string bound.request.effectId), ("input", bound.input),
    ("authorization", .object bound.authorization.fields), ("prepared_grant", bound.grant.toValue),
    (key, outcome), ("receipt", (bound.receipt codec status (.object [(key, outcome)])).toValue)]

/-- `PreparedEvidence::receipt_payload`. -/
def PreparedEvidence.receiptPayload : Except ToolError ToolResult → Except ToolError Value
  | .ok output => do
      mapError (fun error => .failed error.toString) (bound.issued.validateResult output)
      return bound.receiptValue codec "output" output.toValue .completed
  | .error (.uncertain _) => .error (.failed "uncertain effect cannot produce a definitive receipt")
  | .error error => .ok (bound.receiptValue codec "error" (encodeError error) .failed)

/-- The result that a receipt states. -/
def statedResult (payload : Value) : Except ToolError (Except ToolError ToolResult) := do
  let receipt ← mapError .failed (codec.receipt (field "receipt" payload))
  match receipt.status with
  | .completed => do
      let result ← mapError .failed (codec.result (field "output" payload))
      return .ok result
  | .failed => do
      let error ← decodeError (field "error" payload)
      return .error error
  | .uncertain => .error (.failed "uncertain receipt requires reconciliation")

/-- The identity of a reconciliation. -/
def isReconciliationId (id : String) : Bool :=
  !id.isEmpty && id.utf8ByteSize ≤ 256 &&
    id.toList.all fun c => c.isAlphanum || c = '.' || c = '_' || c = ':' || c = '-'

/-- The evidence of a resolution. -/
def ReconciliationResolution.evidence : ReconciliationResolution → String
  | committed _ _ _ evidence | notCommitted evidence | unknown evidence => evidence

/-- `PreparedEvidence::validate_resolution`. -/
def PreparedEvidence.validateResolution (request : ReconciliationRequest)
    (resolution : ReconciliationResolution) : Except ToolError Unit := do
  reject (request.execution ≠ bound.scope.execution ∨ request.effectId ≠ bound.request.effectId ∨
      isReconciliationId request.reconciliationId = false)
    (.failed "reconciliation request binding differs")
  match resolution with
  | .committed output executorId executorRevision _ =>
      reject (output.callId ≠ bound.prepared.call.id ∨ executorId ≠ bound.executorId ∨
          executorRevision ≠ bound.prepared.toolRevision)
        (.failed "reconciled result or adapter revision differs")
  | _ => .ok ()
  reject (trimEmpty resolution.evidence ∨ resolution.evidence.utf8ByteSize > 16384)
    (.failed "reconciliation requires bounded executor evidence")

/-- A value with one more field. -/
def withField (key : String) (value : Value) : Value → Value
  | .object fields => .object (fields ++ [(key, value)])
  | v => v

/-- The reconciliation that a receipt names, checked against its result. -/
def PreparedEvidence.reconciled (metadata : Value) (result : Except ToolError ToolResult) :
    Except ToolError Value := do
  let request ← mapError .failed (codec.request (field "request" metadata))
  let resolution ← mapError .failed (codec.resolution (field "resolution" metadata))
  bound.validateResolution request resolution
  match resolution with
  | .committed output _ _ _ =>
      reject (result.toOption ≠ some output) (.failed "reconciliation and receipt results differ")
  | _ => .error (.failed "receipt reconciliation is not committed")
  return .object [("request", request.toValue), ("resolution", resolution.toValue)]

/-- The receipt that a payload has to be. -/
def PreparedEvidence.expectedReceipt (payload : Value) (result : Except ToolError ToolResult) :
    Except ToolError Value := do
  let expected ← bound.receiptPayload codec result
  match field? "reconciliation" payload with
  | none => return expected
  | some metadata => do
      let proof ← bound.reconciled codec metadata result
      return withField "reconciliation" proof expected

/-- `PreparedEvidence::validate_receipt`: the result that the receipt proves. -/
def PreparedEvidence.validateReceipt (payload : Value) :
    Except ToolError (Except ToolError ToolResult) := do
  let result ← statedResult codec payload
  let expected ← bound.expectedReceipt codec payload result
  reject (payload ≠ expected)
    (.failed "receipt preparation, scope, authority or result binding mismatch")
  return result

end Evidence

/-- `check_event`. -/
def checkEvent (event : LedgerEvent) (key : ExecutionRef) (id : String) (kind : LedgerEventKind) :
    Except ToolError Unit :=
  reject (event.eventId ≠ id ∨ event.executionId ≠ key.executionId ∨ event.turnId ≠ key.turnId ∨
      event.kind ≠ kind ∨ event.idempotencyKey ≠ id)
    (.failed "foreign or malformed effect evidence")

end Driver
end Kolyan
