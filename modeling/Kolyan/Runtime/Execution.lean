/-
# Generic effects

`ExecutionRuntime` (`kolyan-runtime/src/execution.rs`): an effect is prepared,
admitted, authorized, started and executed, and its receipt and outcome are
recorded, each by an operation of its own on the shared ledger.  The admission and
the executor are ports.  An effect whose preparation belongs to the tools is only
read back (`recoverPreparedTool`).
-/

import Kolyan.Driver.Evidence
import Kolyan.Execution.Coordinator
import Kolyan.Lib.Serving

namespace Kolyan
namespace Runtime

open Checks Threads Ledger Driver Policy Turn

section Types

/-- `AdmissionDecision`. -/
inductive AdmissionDecision where
  | grant (grant : EffectGrant)
  | awaitingDecision (interactionId : String)
  | deny (code : String)

/-- `EffectOutcome`. -/
inductive EffectOutcome where
  | completed (receipt : EffectReceipt) (output : Value)
  | failed (receipt : EffectReceipt) (code : String)
  | uncertain (receipt : EffectReceipt) (evidence : String)

/-- `EffectDisposition`. -/
inductive EffectDisposition where
  | completed (output : Value)
  | failed (code : String)
  | uncertain (evidence : String)
  | suspended (interactionId : String)
  | denied (code : String)
  | cancelled
  deriving DecidableEq

/-- `ExecutionStatus`. -/
inductive ExecutionStatus where
  | running | suspended | completed | cancelled | failed | uncertain
  deriving DecidableEq

/-- `RuntimeExecutionError`. -/
inductive RuntimeExecutionError where
  | invalid (message : String)
  | ledger (error : LedgerError)
  | admission (message : String)
  | executor (message : String)

/-- The ports of an `ExecutionRuntime`. -/
inductive EffectPort where
  | decide (key : ExecutionRef) (effect : EffectRequest)
  | execute (key : ExecutionRef) (effect : EffectRequest) (grant : EffectGrant)

/-- What they answer. -/
@[reducible] def EffectPort.Answer : EffectPort → Type
  | decide _ _ => Except RuntimeExecutionError AdmissionDecision
  | execute _ _ _ => Except RuntimeExecutionError EffectOutcome

/-- Programs of an `ExecutionRuntime`. -/
abbrev RuntimeProg := Fallible (Op EffectPort) (Op.Answer EffectPort.Answer) RuntimeExecutionError

/-- The decoders of the evidence of a prepared tool, besides those of its receipt. -/
structure RuntimeCodec extends EvidenceCodec where
  effectRequest : Value → Except String EffectRequest
  preparedCall : Value → Except String PreparedCall
  scope : Value → Except String ToolExecutionScope
  grant : Value → Except String PreparedGrant

end Types

section Calls

variable {α : Type}

/-- A ledger call; its error converts. -/
def ledgerCall (p : LedgerProg EffectPort.Answer α) : RuntimeProg α := Fallible.mapError .ledger p

/-- `AdmissionPort::decide`. -/
def AdmissionPort.decide (key : ExecutionRef) (effect : EffectRequest) : RuntimeProg AdmissionDecision :=
  Fallible.ofProg (.ask (.host (.decide key effect)) .done)

/-- `EffectExecutor::execute`. -/
def EffectExecutor.execute (key : ExecutionRef) (effect : EffectRequest) (grant : EffectGrant) : RuntimeProg EffectOutcome :=
  Fallible.ofProg (.ask (.host (.execute key effect grant)) .done)

/-- `LedgerStore::event_by_id`. -/
def saved (eventId : String) : RuntimeProg (Option LedgerEvent) := ledgerCall (eventById eventId)

/-- A refusal with a message. -/
def invalidIf (c : Prop) [Decidable c] (message : String) : RuntimeProg Unit :=
  Fallible.lift (reject c (.invalid message))

/-- A check of the tool evidence. -/
def evidence (x : Except ToolError α) : RuntimeProg α :=
  Fallible.lift (mapError (fun error => .invalid error.toString) x)

/-- The id of a fact of an effect. -/
def effectFact (key : ExecutionRef) (effectId suffix : String) : String :=
  key.executionId ++ "/effect/" ++ effectId ++ "/" ++ suffix

/-- `append_once`. -/
def appendOnce (key : ExecutionRef) (eventId : String) (kind : LedgerEventKind) (payload : Value) :
    RuntimeProg LedgerEvent := do
  let event : LedgerEvent :=
    { eventId, turnId := key.turnId, executionId := key.executionId, cursor := 0, kind, idempotencyKey := eventId,
      payload }
  match ← saved eventId with
  | some existing => do
    invalidIf (Execution.sameFact event existing = false) ("conflicting event identity: " ++ eventId)
    return existing
  | none => ledgerCall (append event)

end Calls

section Runtime

variable (codec : RuntimeCodec) (fuel : ℕ) (key : ExecutionRef)

/-- `ExecutionRuntime::start`. -/
def start : RuntimeProg Unit := do
  let _ ← appendOnce key (key.executionId ++ "/execution-started") .executionStarted key.toValue

/-- `ExecutionRuntime::cancel`. -/
def cancel : RuntimeProg Unit := do
  let _ ← appendOnce key (key.executionId ++ "/execution-cancelled") .executionCancelled .null

/-- The status after one more fact. -/
def statusAfter (status : Option ExecutionStatus) : LedgerEventKind → Option ExecutionStatus
  | .executionCancelled => some .cancelled
  | .executionSuspended => some .suspended
  | .effectUncertain => some .uncertain
  | .effectFailed => some .failed
  | .effectCompleted => some .completed
  | .executionStarted => some .running
  | _ => status

/-- The loop of `status`, which a cancellation ends. -/
def statusFrom (status : Option ExecutionStatus) : List LedgerEvent → Option ExecutionStatus
  | [] => status
  | event :: events =>
    if status = some .cancelled then status else statusFrom (statusAfter status event.kind) events

/-- `ExecutionRuntime::status`. -/
def status : RuntimeProg (Option ExecutionStatus) := do
  let events ← ledgerCall (executionEventsAfter fuel key.executionId 0)
  return statusFrom none events

variable (effect : EffectRequest)

/-- `validate_effect`. -/
def validateEffect : Except RuntimeExecutionError Unit :=
  reject (effect.effectId = "" ∨ effect.operationKind = "" ∨ effect.inputDigest = "" ∨ effect.policyRevision = "")
    (.invalid "effect identity and digests are required")

/-- `validate_receipt`. -/
def validateReceipt (grant : EffectGrant) (receipt : EffectReceipt) : Except RuntimeExecutionError Unit :=
  reject (receipt.effectId ≠ effect.effectId ∨ receipt.authorizationId ≠ grant.authorizationId ∨
      receipt.inputDigest ≠ effect.inputDigest ∨ receipt.executorId = "" ∨ receipt.executorRevision = "" ∨
      receipt.resultDigest = "")
    (.invalid "receipt does not bind effect and grant")

/-- `validate_receipt_status`. -/
def validateReceiptStatus (receipt : EffectReceipt) (expected : ReceiptStatus) : Except RuntimeExecutionError Unit :=
  reject (receipt.status ≠ expected) (.invalid "receipt status disagrees with effect outcome")

/-- What a receipt says of the effect. -/
def receiptDisposition (payload : Value) : Except RuntimeExecutionError EffectDisposition := do
  let receipt ← mapError .invalid (codec.receipt (field "receipt" payload))
  reject (receipt.inputDigest ≠ effect.inputDigest ∨ receipt.effectId ≠ effect.effectId)
    (.invalid "receipt identity mismatch")
  match receipt.status with
  | .completed => return .completed (← expect (field? "output" payload) (.invalid "receipt has no output"))
  | .failed =>
    return .failed (← expect (((field? "code" payload).or (field? "error" payload)).bind asStr)
      (.invalid "receipt has no failure"))
  | .uncertain =>
    return .uncertain (← expect (asStr (field "evidence" payload)) (.invalid "receipt has no evidence"))

/-- The loop of `terminal_effect`. -/
def terminalFrom : List LedgerEvent → Except RuntimeExecutionError (Option EffectDisposition)
  | [] => .ok none
  | event :: events =>
    if event.eventId = effectFact key effect.effectId "receipt" then do
      return some (← receiptDisposition codec effect event.payload)
    else if event.eventId = effectFact key effect.effectId "completed" then
      .ok (some (.completed ((field? "output" event.payload).getD .null)))
    else if event.eventId = effectFact key effect.effectId "failed" then
      .ok (some (.failed ((asStr (field "code" event.payload)).getD "failed")))
    else if event.eventId = effectFact key effect.effectId "uncertain" then
      .ok (some (.uncertain ((asStr (field "evidence" event.payload)).getD "uncertain")))
    else terminalFrom events

/-- `terminal_effect`. -/
def terminalEffect : RuntimeProg (Option EffectDisposition) := do
  let events ← ledgerCall (executionEventsAfter fuel key.executionId 0)
  Fallible.lift (terminalFrom codec key effect events)

/-- `append_receipt`. -/
def appendReceipt (payload : Value) : RuntimeProg Unit := do
  let _ ← appendOnce key (effectFact key effect.effectId "receipt") .effectReceipt payload

/-- The end of an effect that was executed: its receipt is validated, then it and
the outcome are recorded. -/
def conclude (grant : EffectGrant) (receipt : EffectReceipt) (expected : ReceiptStatus) (name : String) (outcome : Value)
    (suffix : String) (kind : LedgerEventKind) (disposition : EffectDisposition) : RuntimeProg EffectDisposition := do
  Fallible.lift (validateReceiptStatus receipt expected)
  Fallible.lift (validateReceipt effect grant receipt)
  appendReceipt key effect (.object [("receipt", receipt.toValue), (name, outcome)])
  let _ ← appendOnce key (effectFact key effect.effectId suffix) kind
    (.object [("effect_id", .string effect.effectId), (name, outcome)])
  return disposition

/-- What follows the execution of an effect. -/
def executed (grant : EffectGrant) : EffectOutcome → RuntimeProg EffectDisposition
  | .completed receipt output =>
    conclude key effect grant receipt .completed "output" output "completed" .effectCompleted (.completed output)
  | .failed receipt code =>
    conclude key effect grant receipt .failed "code" (.string code) "failed" .effectFailed (.failed code)
  | .uncertain receipt text =>
    conclude key effect grant receipt .uncertain "evidence" (.string text) "uncertain" .effectUncertain (.uncertain text)

/-- The start of an effect, as a fact. -/
def startedEvent : LedgerEvent where
  eventId := effectFact key effect.effectId "started"
  turnId := key.turnId
  executionId := key.executionId
  cursor := 0
  kind := .effectStarted
  idempotencyKey := effectFact key effect.effectId "started"
  payload := .object [("effect_id", .string effect.effectId)]

/-- `dispatch`: only the call that appends the start may execute the effect. -/
def dispatch (grant : EffectGrant) : RuntimeProg EffectDisposition := do
  invalidIf (grant.effectId ≠ effect.effectId ∨ grant.inputDigest ≠ effect.inputDigest) "grant does not bind effect"
  let _ ← appendOnce key (effectFact key effect.effectId "authorized") .effectAuthorized (.object grant.fields)
  let started ← Fallible.attempt (appendUnlessCancelled (startedEvent key effect))
  match started with
  | .ok _ => do
    let outcome ← EffectExecutor.execute key effect grant
    executed key effect grant outcome
  | .error (.cancelled _) => return .cancelled
  | .error (.conflict _) => do
    let terminal ← terminalEffect codec fuel key effect
    return terminal.getD (.uncertain "another dispatcher owns the started effect")
  | .error error => throw (.ledger error)

/-- `PreparedEvidence::from_facts`. -/
def evidenceFromFacts (effectId : String) (prepared authorized : Value) : Except ToolError PreparedEvidence := do
  let request ← mapError .failed (codec.effectRequest prepared)
  let call ← mapError .failed (codec.preparedCall (field "prepared" (field "input" prepared)))
  let scope ← mapError .failed (codec.scope (field "scope" (field "input" prepared)))
  let grant ← mapError .failed (codec.grant (field "prepared_grant" authorized))
  let bound ← PreparedEvidence.new codec.toEvidenceCodec call grant scope request.policyRevision key
  reject (bound.request.effectId ≠ effectId ∨ bound.preparedPayload ≠ prepared ∨ bound.authorizedPayload ≠ authorized)
    (.failed "prepared effect evidence binding mismatch")
  return bound

/-- The disposition that the receipt of a prepared tool proves. -/
def toolDisposition : Except ToolError ToolResult → EffectDisposition
  | .ok output => .completed output.toValue
  | .error error => .failed error.toString

/-- The end of `recover_prepared_tool`: the outcome is that of the receipt. -/
def recoverReceipt (bound : PreparedEvidence) (started : Option LedgerEvent) : RuntimeProg EffectDisposition := do
  match ← saved (effectFact key effect.effectId "receipt") with
  | some receipt => do
    evidence (checkEvent receipt key (effectFact key effect.effectId "receipt") .effectReceipt)
    invalidIf (started = none) "tool receipt has no start evidence"
    let result ← evidence (bound.validateReceipt codec.toEvidenceCodec receipt.payload)
    return toolDisposition result
  | none => return .uncertain "prepared tool has no committed receipt; trusted reconciliation required"

/-- `recover_prepared_tool`. -/
def recoverPreparedTool (prepared : LedgerEvent) : RuntimeProg EffectDisposition := do
  let identity ← saved (key.executionId ++ "/execution-started")
  let identity ← Fallible.lift (expect identity (.invalid "missing execution identity"))
  evidence (checkEvent identity key (key.executionId ++ "/execution-started") .executionStarted)
  invalidIf (identity.payload ≠ key.toValue) "execution binding differs"
  let authorized ← saved (effectFact key effect.effectId "authorized")
  let authorized ← Fallible.lift (expect authorized (.invalid "prepared tool has no scoped authorization"))
  evidence (checkEvent authorized key (effectFact key effect.effectId "authorized") .effectAuthorized)
  let bound ← evidence (evidenceFromFacts codec key effect.effectId prepared.payload authorized.payload)
  invalidIf (bound.request ≠ effect) "prepared tool request differs"
  let started ← saved (effectFact key effect.effectId "started")
  match started with
  | some event => do
    evidence (checkEvent event key (effectFact key effect.effectId "started") .effectStarted)
    invalidIf (event.payload ≠ bound.startedPayload) "started tool binding differs"
  | none => pure ()
  recoverReceipt codec key effect bound started

/-- No fact of an effect that was not prepared. -/
def refuseUnprepared : List String → RuntimeProg Unit
  | [] => pure ()
  | suffix :: suffixes => do
    let found ← saved (effectFact key effect.effectId suffix)
    invalidIf found.isSome "effect evidence has no prepared binding"
    refuseUnprepared suffixes

/-- The preparation that `apply_effect` records. -/
def preparedPayload : Value :=
  .object (effect.fields ++ [("binding_kind", .string "generic_effect_v1")])

/-- `apply_effect` from the preparation of a generic effect on. -/
def applyPrepared : RuntimeProg EffectDisposition := do
  let _ ← appendOnce key (effectFact key effect.effectId "prepared") .effectPrepared (preparedPayload effect)
  match ← terminalEffect codec fuel key effect with
  | some existing => return existing
  | none => do
    let started ← saved (effectFact key effect.effectId "started")
    if started.isSome then
      return .uncertain "effect started without a terminal result; reconciliation required"
    else do
      match ← AdmissionPort.decide key effect with
      | .deny code => do
        let _ ← appendOnce key (effectFact key effect.effectId "denied") .effectDenied
          (.object [("effect_id", .string effect.effectId), ("code", .string code)])
        return .denied code
      | .awaitingDecision interactionId => do
        let _ ← appendOnce key (effectFact key effect.effectId "awaiting") .effectAwaitingDecision
          (.object [("effect_id", .string effect.effectId), ("interaction_id", .string interactionId)])
        let _ ← appendOnce key (key.executionId ++ "/execution-suspended/" ++ effect.effectId) .executionSuspended
          (.object [("effect_id", .string effect.effectId)])
        return .suspended interactionId
      | .grant grant => dispatch codec fuel key effect grant

/-- `ExecutionRuntime::apply_effect`. -/
def applyEffect : RuntimeProg EffectDisposition := do
  Fallible.lift (validateEffect effect)
  if (← status fuel key) = some .cancelled then return .cancelled
  else do
    match ← saved (effectFact key effect.effectId "prepared") with
    | some prepared => do
      evidence (checkEvent prepared key (effectFact key effect.effectId "prepared") .effectPrepared)
      match asStr (field "binding_kind" prepared.payload) with
      | some "prepared_tool_v1" => recoverPreparedTool codec key effect prepared
      | some "generic_effect_v1" => applyPrepared codec fuel key effect
      | _ => throw (.invalid "missing or unknown effect binding kind")
    | none => do
      refuseUnprepared key effect ["authorized", "started", "receipt"]
      applyPrepared codec fuel key effect

end Runtime

end Runtime
end Kolyan
