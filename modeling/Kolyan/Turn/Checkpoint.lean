/-
# The checkpoint of a Turn

`kolyan-core/src/turn/checkpoint.rs` and `suspension.rs`: the loop state that a
Turn suspends with, its validation, and the pure merging of approvals and of
external results.  `validate_eq_ok` reads a checkpoint that passed back as the
facts `Valid` that the engine's invariants rest on: the batch is the tool calls
of its last Step, every call is accounted for in its state, and the budget
counts the calls of the earlier Steps and the charged ones of the batch.
-/

import Kolyan.Turn.Types

namespace Kolyan
namespace Turn

open Checks Policy

/-- What whole records are measured and hashed by: SHA-256 of the compact
encoding of a value, and the length of the encoding of a checkpoint. -/
structure Codec where
  sha256 : Value → String
  checkpointLen : TurnCheckpoint → ℕ

/-- `usize::checked_add`. -/
def checkedAdd (a b : ℕ) : Option ℕ := if a + b < 2 ^ 64 then some (a + b) else none

/-- `identifier`. -/
def identifier (value : String) : Except CheckpointError Unit :=
  reject (isIdentifier value = false) (.invalid "identity must be 1..256 ASCII identifier bytes")

section Batches

/-- `TryFrom<Vec<ToolCall>> for ToolCallBatch`, its duplicate check after the
ids `seen`. -/
def checkUnique (seen : List String) : List ToolCall → Except ToolError Unit
  | [] => .ok ()
  | call :: calls => do
      reject (seen.contains call.id) (.invalidBatch ("duplicate tool call id: " ++ call.id))
      checkUnique (call.id :: seen) calls

/-- `ToolCallBatch::try_from`. -/
def toolCallBatch (calls : List ToolCall) : Except ToolError (List ToolCall) := do
  reject (calls = []) (.invalidBatch "tool call batch must not be empty")
  checkUnique [] calls
  return calls

/-- `ToolDispatchResult`. -/
structure ToolDispatchResult where
  callId : String
  result : Except ToolError ToolResult

/-- One result of `validate_results`, after the ids `seen`. -/
def checkResult (calls : List ToolCall) (seen : List String) (dispatch : ToolDispatchResult) :
    Except ToolError Unit := do
  let call ← expect (calls.find? (·.id = dispatch.callId))
    (.invalidBatch ("unknown tool result call id: " ++ dispatch.callId))
  reject (seen.contains dispatch.callId)
    (.invalidBatch ("duplicate tool result call id: " ++ dispatch.callId))
  match dispatch.result with
  | .ok result => reject (result.callId ≠ call.id) (.invalidBatch
      ("tool result call id mismatch: expected " ++ call.id ++ ", got " ++ result.callId))
  | .error _ => .ok ()

/-- The results of `validate_results`, after the ids `seen`. -/
def checkResults (calls : List ToolCall) (seen : List String) :
    List ToolDispatchResult → Except ToolError Unit
  | [] => .ok ()
  | dispatch :: results => do
      checkResult calls seen dispatch
      checkResults calls (dispatch.callId :: seen) results

/-- `ToolCallBatch::validate_results`. -/
def validateResults (calls : List ToolCall) (results : List ToolDispatchResult) :
    Except ToolError Unit := do
  reject (results.length ≠ calls.length) (.invalidBatch ("expected " ++ toString calls.length ++
    " tool results, got " ++ toString results.length))
  checkResults calls [] results
  reject (calls.any fun call => !(results.map (·.callId)).contains call.id)
    (.invalidBatch "tool result batch is missing a call id")

end Batches

/-- `ExternalWait::validate`. -/
def ExternalWait.validate (wait : ExternalWait) : Except CheckpointError Unit := do
  identifier wait.waitId
  identifier wait.kind
  reject (wait.schemaVersion = 0 ∨ ¬wait.binding.isObject)
    (.invalid "invalid external wait schema or binding")
  reject (wait.binding.encodedLen > 64 * 1024) (.invalid "external binding exceeds byte limit")

section Validation

variable (codec : Codec)

/-- `IssuedToolAuthority::validate`. -/
def IssuedToolAuthority.validate (issued : IssuedToolAuthority) (expectedScope : ToolExecutionScope) :
    Except CheckpointError Unit := do
  reject (trimEmpty issued.policyRevision) (.invalid "empty policy revision")
  reject (issued.scope ≠ expectedScope) .foreignScope
  mapError (fun error => .invalid error.toString)
    (issued.grant.validate codec.sha256 issued.prepared issued.policyRevision expectedScope)

/-- `IssuedToolAuthority::validate_result`. -/
def IssuedToolAuthority.validateResult (issued : IssuedToolAuthority) (result : ToolResult) :
    Except CheckpointError Unit := do
  reject (result.callId ≠ issued.prepared.call.id)
    (.invalid "result call differs from issued preparation")
  let limit ← expect issued.grant.constraints.maxOutputBytes
    (.invalid "issued output limit is missing")
  reject (result.toValue.encodedLen > limit) .outputLimit

/-- `TurnCheckpoint::validate_authority`. -/
def TurnCheckpoint.validateAuthority (checkpoint : TurnCheckpoint) (item : CheckpointCall)
    (authority : IssuedToolAuthority) : Except CheckpointError Unit := do
  authority.validate codec checkpoint.scope
  reject (item.prepared ≠ some authority.prepared)
    (.invalid "issued preparation differs from saved call")

/-- The identities of one call. -/
def checkIdentities (item : CheckpointCall) : Except CheckpointError Unit :=
  reject ([item.call.id, item.call.name].any fun identity =>
      trimEmpty identity || identity.utf8ByteSize > 1024)
    (.invalid "empty or oversized tool identity")

/-- The preparation of one call. -/
def checkPreparation (item : CheckpointCall) : Except CheckpointError Unit :=
  match item.prepared with
  | none => .ok ()
  | some prepared => do
      mapError (fun error => .invalid error.toString) (prepared.validate codec.sha256)
      reject (prepared.call ≠ item.call) (.invalid "preparation differs from original call")

/-- The state of one call, after the wait ids `waits`; the wait ids after it. -/
def TurnCheckpoint.checkState (checkpoint : TurnCheckpoint) (waits : List String)
    (item : CheckpointCall) : Except CheckpointError (List String) :=
  match item.state with
  | .ready => do
      reject (item.charged ∨ item.prepared = none) (.invalid "invalid Ready accounting or preparation")
      return waits
  | .completed result (some authority) => do
      reject (item.charged = false ∨ result.callId ≠ item.call.id)
        (.invalid "invalid completed result or accounting")
      checkpoint.validateAuthority codec item authority
      authority.validateResult result
      return waits
  | .completed result none => do
      reject (item.charged = false ∨ result.callId ≠ item.call.id)
        (.invalid "invalid completed result or accounting")
      reject (result.isError = false) (.invalid "successful result lacks issued authority")
      return waits
  | .awaitingExternal wait issued => do
      reject (item.charged = false) (.invalid "unaccounted external wait")
      wait.validate
      reject (waits.contains wait.waitId) (.invalid "duplicate wait identity")
      checkpoint.validateAuthority codec item issued
      return wait.waitId :: waits

/-- The calls of a checkpoint, after the call ids `ids` and the wait ids
`waits`. -/
def TurnCheckpoint.checkCalls (checkpoint : TurnCheckpoint) (ids waits : List String) :
    List CheckpointCall → Except CheckpointError Unit
  | [] => .ok ()
  | item :: items => do
      checkIdentities item
      reject (ids.contains item.call.id) (.invalid "duplicate call identity")
      checkPreparation codec item
      let waits ← checkpoint.checkState codec waits item
      checkpoint.checkCalls (item.call.id :: ids) waits items

/-- The progress of one call against the stage cursor. -/
def TurnCheckpoint.atStage (checkpoint : TurnCheckpoint) (index : ℕ) (id : String) : Bool :=
  (checkpoint.calls.find? (·.call.id = id)).any fun item =>
    (decide (checkpoint.stageIndex ≤ index) || item.isCompleted) &&
      (decide (index ≤ checkpoint.stageIndex) || item.isReady)

/-- The stages partition the calls, and their progress agrees with the cursor. -/
def TurnCheckpoint.checkStages (checkpoint : TurnCheckpoint) : Except CheckpointError Unit := do
  let ids := checkpoint.calls.map (·.call.id)
  let flattened := checkpoint.stages.flatten
  reject (checkpoint.stages.any (·.isEmpty) ∨ flattened.length ≠ checkpoint.calls.length ∨
      ¬(flattened.all ids.contains ∧ ids.all flattened.contains))
    (.invalid "stages do not partition original calls")
  reject (checkpoint.stages.zipIdx.any fun (stage, index) => !stage.all (checkpoint.atStage index))
    (.invalid "call progress contradicts stage cursor")

/-- The message of the result of a call. -/
def pairsWith (call : ToolCall) (message : Message) : Bool :=
  message.role = .user && match message.content with
    | [.toolResult result] => result.callId = call.id
    | _ => false

/-- The messages of the results of one past batch, from `boundary` on, and how
many calls came before; the boundary and the calls after it. -/
def checkPairs (messages : List Message) (boundary calls : ℕ) :
    List ToolCall → Except CheckpointError (ℕ × ℕ)
  | [] => .ok (boundary, calls)
  | call :: rest => do
      let calls ← expect (checkedAdd calls 1) (.invalid "historical usage overflow")
      let message ← expect messages[boundary]? (.invalid "missing historical tool result")
      reject (pairsWith call message = false) (.invalid "historical tool pairing changed")
      checkPairs messages (boundary + 1) calls rest

/-- The messages of the past Steps, from `boundary` on. -/
def checkHistory (messages : List Message) (boundary calls : ℕ) :
    List StepResult → Except CheckpointError (ℕ × ℕ)
  | [] => .ok (boundary, calls)
  | step :: steps => do
      reject (step.outcome ≠ .toolCalls)
        (.invalid "historical Step did not produce the completed tool batch")
      let message ← expect messages[boundary]? (.invalid "missing historical assistant message")
      reject (message.role ≠ .assistant ∨ message.content ≠ step.response.content)
        (.invalid "historical assistant boundary changed")
      let batch ← mapError (fun error => .invalid error.toString)
        (toolCallBatch (toolCalls step.response.content))
      let (boundary, calls) ← checkPairs messages (boundary + 1) calls batch
      checkHistory messages boundary calls steps

/-- The charged usage agrees with the budget. -/
def TurnCheckpoint.budgetAgrees (checkpoint : TurnCheckpoint) : Bool :=
  checkedAdd checkpoint.budget.priorToolCallsUsed (charged checkpoint.calls) =
      some checkpoint.budget.toolCallsUsed &&
    checkpoint.budget.maxToolCalls.all (checkpoint.budget.toolCallsUsed ≤ ·) &&
    (checkedAdd checkpoint.budget.priorToolCallsUsed checkpoint.calls.length).any fun requested =>
      checkpoint.budget.maxToolCalls.all (requested ≤ ·)

/-- One approval, after the approvals `seen`. -/
def TurnCheckpoint.checkApproval (checkpoint : TurnCheckpoint) (seen : List CheckpointApproval)
    (approval : CheckpointApproval) : Except CheckpointError Unit := do
  identifier approval.approvalId
  reject (seen.any (·.approvalId = approval.approvalId) ∨
      seen.any (·.prepared.call.id = approval.prepared.call.id) ∨
      approval.scope ≠ checkpoint.scope ∨ trimEmpty approval.policyRevision)
    (.invalid "invalid approval binding")
  let item ← expect (checkpoint.calls.find? (·.call.id = approval.prepared.call.id))
    (.invalid "approval references unknown call")
  reject (item.prepared ≠ some approval.prepared) (.invalid "stale approval preparation")
  mapError (fun error => .invalid error.toString) (approval.prepared.validate codec.sha256)
  match approval.evidenceId with
  | none => .ok ()
  | some id => identifier id

/-- The approvals, after the approvals `seen`. -/
def TurnCheckpoint.checkApprovals (checkpoint : TurnCheckpoint) (seen : List CheckpointApproval) :
    List CheckpointApproval → Except CheckpointError Unit
  | [] => .ok ()
  | approval :: approvals => do
      checkpoint.checkApproval codec seen approval
      checkpoint.checkApprovals (approval :: seen) approvals

/-- The name of a Step. -/
def stepName (turnId : String) (index : ℕ) : String := turnId ++ "-step-" ++ toString index

/-- `TurnCheckpoint::validate`. -/
def TurnCheckpoint.validate (checkpoint : TurnCheckpoint) (expectedScope : ToolExecutionScope) :
    Except CheckpointError Unit := do
  reject (codec.checkpointLen checkpoint > 16 * 1024 * 1024) .checkpointLimit
  mapError (fun error => .invalid error.toString) expectedScope.validate
  reject (checkpoint.scope ≠ expectedScope) .foreignScope
  identifier checkpoint.checkpointId
  reject (checkpoint.schemaVersion ≠ 1 ∨ checkpoint.steps = [] ∨
      checkpoint.nextStepIndex ≠ checkpoint.steps.length ∨
      checkpoint.steps.length > checkpoint.budget.maxSteps ∨
      checkpoint.inputMessageCount > checkpoint.modelRequest.messages.length ∨
      checkpoint.calls = [] ∨ checkpoint.stages = [] ∨
      checkpoint.stageIndex > checkpoint.stages.length ∨ checkpoint.budget.toolTimeoutMs = some 0)
    (.invalid "invalid schema, boundary, stage or limits")
  let last ← expect checkpoint.steps.getLast? (.invalid "checked nonempty")
  reject (last.stepId ≠ checkpoint.scope.stepId ∨ last.outcome ≠ .toolCalls)
    (.invalid "pending batch is not the scoped completed Step")
  reject (checkpoint.steps.zipIdx.any fun (step, index) =>
      step.stepId ≠ stepName checkpoint.scope.execution.turnId index)
    (.invalid "Step sequence is not exact")
  reject (toolCalls last.response.content ≠ checkpoint.calls.map (·.call))
    (.invalid "original tool call order changed")
  checkpoint.checkCalls codec [] [] checkpoint.calls
  checkpoint.checkStages
  let (boundary, historicalCalls) ← checkHistory checkpoint.modelRequest.messages
    checkpoint.inputMessageCount 0 checkpoint.steps.dropLast
  reject (boundary ≠ checkpoint.modelRequest.messages.length)
    (.invalid "original message boundary differs from historical Steps")
  reject (historicalCalls ≠ checkpoint.budget.priorToolCallsUsed)
    (.invalid "prior charged usage differs from completed Turn Steps")
  reject (checkpoint.budgetAgrees = false) (.invalid "charged usage differs from budget")
  checkpoint.checkApprovals codec [] checkpoint.approvals

/-- `host_identity`. -/
def hostIdentity (kind : String) (binding : Value) : String :=
  kind ++ "-" ++ codec.sha256
    (.array [.string "kolyan.core.coordinate.v1", .string kind, binding])

/-- `CheckpointReconstruction`. -/
structure CheckpointReconstruction where
  scope : ToolExecutionScope
  modelRequest : ModelRequest
  inputMessageCount : ℕ
  steps : List StepResult
  calls : List CheckpointCall
  stages : List (List String)
  stageIndex : ℕ
  approvals : List CheckpointApproval
  budget : CheckpointBudget
  dispatch : ToolDispatchPolicy

/-- The checkpoint of `reconstruct`, before it is validated. -/
def CheckpointReconstruction.checkpoint (input : CheckpointReconstruction) : TurnCheckpoint where
  schemaVersion := 1
  checkpointId := hostIdentity codec "checkpoint" input.scope.toValue
  scope := input.scope
  modelRequest := input.modelRequest
  inputMessageCount := input.inputMessageCount
  nextStepIndex := input.steps.length
  steps := input.steps
  calls := input.calls
  stages := input.stages
  stageIndex := input.stageIndex
  approvals := input.approvals
  budget := input.budget
  dispatch := input.dispatch

/-- `TurnCheckpoint::reconstruct`. -/
def TurnCheckpoint.reconstruct (input : CheckpointReconstruction) (expectedScope : ToolExecutionScope) :
    Except CheckpointError TurnCheckpoint := do
  (input.checkpoint codec).validate codec expectedScope
  return input.checkpoint codec

end Validation

section Updates

/-- Change the first call with an id. -/
def updateCall (id : String) (f : CheckpointCall → CheckpointCall) : List CheckpointCall → List CheckpointCall
  | [] => []
  | item :: items => if item.call.id = id then f item :: items else item :: updateCall id f items

/-- Change the call with an id. -/
def TurnCheckpoint.update (checkpoint : TurnCheckpoint) (id : String)
    (f : CheckpointCall → CheckpointCall) : TurnCheckpoint :=
  { checkpoint with calls := updateCall id f checkpoint.calls }

/-- Change the first approval with an id. -/
def updateApproval (id : String) (f : CheckpointApproval → CheckpointApproval) :
    List CheckpointApproval → List CheckpointApproval
  | [] => []
  | approval :: approvals =>
      if approval.approvalId = id then f approval :: approvals
      else approval :: updateApproval id f approvals

/-- Record the evidence of an approval. -/
def TurnCheckpoint.confirm (checkpoint : TurnCheckpoint) (approvalId evidenceId : String) :
    TurnCheckpoint :=
  let approvals := updateApproval approvalId
    (fun approval => { approval with evidenceId := some evidenceId }) checkpoint.approvals
  { checkpoint with approvals }

/-- `budget.tool_calls_used = budget.prior_tool_calls_used + charged`. -/
def TurnCheckpoint.recount (checkpoint : TurnCheckpoint) : TurnCheckpoint :=
  let toolCallsUsed := checkpoint.budget.priorToolCallsUsed + charged checkpoint.calls
  { checkpoint with budget := { checkpoint.budget with toolCallsUsed } }

/-- Drop the approvals of a call. -/
def TurnCheckpoint.dropApprovals (checkpoint : TurnCheckpoint) (id : String) : TurnCheckpoint :=
  { checkpoint with approvals := checkpoint.approvals.filter (·.prepared.call.id ≠ id) }

/-- A call with its result. -/
def CheckpointCall.complete (result : ToolResult) (issued : Option IssuedToolAuthority)
    (item : CheckpointCall) : CheckpointCall :=
  { item with charged := true, state := .completed result issued }

end Updates

section Suspension

variable (codec : Codec)

/-- The approvals that a checkpoint waits for. -/
def TurnCheckpoint.openApprovals (checkpoint : TurnCheckpoint) : List CheckpointApproval :=
  checkpoint.approvals.filter fun approval => approval.evidenceId.isNone &&
    checkpoint.calls.any fun item => item.call.id = approval.prepared.call.id && item.isReady

/-- The request that shows an approval. -/
def CheckpointApproval.request (turnId : String) (approval : CheckpointApproval) : ApprovalRequest where
  approvalId := approval.approvalId
  turnId := turnId
  callId := approval.prepared.call.id
  toolName := approval.prepared.call.name
  reason := approval.reason
  expiresAtMs := approval.expiresAtMs

/-- The waits of a checkpoint. -/
def TurnCheckpoint.externalWaits (checkpoint : TurnCheckpoint) : List PendingExternalWait :=
  checkpoint.calls.filterMap fun item => match item.state with
    | .awaitingExternal wait _ => some { callId := item.call.id, wait }
    | _ => none

/-- `TurnCheckpoint::suspension_summary`. -/
def TurnCheckpoint.suspensionSummary (checkpoint : TurnCheckpoint) (expectedScope : ToolExecutionScope) :
    Except CheckpointError SuspensionSummary := do
  checkpoint.validate codec expectedScope
  return {
    approvals := checkpoint.openApprovals.map (·.request checkpoint.scope.execution.turnId)
    externalWaits := checkpoint.externalWaits }

/-- `TurnSuspension::from_checkpoint`. -/
def TurnSuspension.fromCheckpoint (checkpoint : TurnCheckpoint) (expectedScope : ToolExecutionScope) :
    Except CheckpointError TurnSuspension := do
  return { checkpoint, waiting := ← checkpoint.suspensionSummary codec expectedScope }

/-- `TurnSuspension::validate`. -/
def TurnSuspension.validate (suspension : TurnSuspension) (expectedScope : ToolExecutionScope) :
    Except CheckpointError Unit := do
  let summary ← suspension.checkpoint.suspensionSummary codec expectedScope
  reject (suspension.waiting ≠ summary) (.invalid "suspension summary differs from checkpoint")

/-- The state of a call that a resolution completes. -/
def resolveState (resolution : ExternalResolution) :
    CheckpointCallState → Except CheckpointError IssuedToolAuthority
  | .awaitingExternal wait issued => do
      reject (wait ≠ resolution.wait) (.invalid "external binding changed")
      issued.validateResult resolution.result
      return issued
  | _ => .error (.invalid "resolution does not reference an awaiting call")

/-- One resolution of `merge_external`. -/
def TurnCheckpoint.resolve (checkpoint : TurnCheckpoint) (resolution : ExternalResolution)
    (issued : IssuedToolAuthority) : TurnCheckpoint :=
  checkpoint.update resolution.callId fun item =>
    { item with state := .completed resolution.result (some issued) }

/-- The resolutions of `merge_external`, after the call ids `seen`. -/
def TurnCheckpoint.mergeResolutions (checkpoint : TurnCheckpoint) (seen : List String) :
    List ExternalResolution → Except CheckpointError TurnCheckpoint
  | [] => .ok checkpoint
  | resolution :: resolutions => do
      reject (seen.contains resolution.callId) (.invalid "duplicate resolution")
      let item ← expect (checkpoint.calls.find? (·.call.id = resolution.callId))
        (.invalid "resolution references unknown call")
      let issued ← resolveState resolution item.state
      (checkpoint.resolve resolution issued).mergeResolutions (resolution.callId :: seen) resolutions

/-- `TurnCheckpoint::merge_external`. -/
def TurnCheckpoint.mergeExternal (checkpoint : TurnCheckpoint) (resolutions : List ExternalResolution)
    (expectedScope : ToolExecutionScope) : Except CheckpointError TurnCheckpoint := do
  checkpoint.validate codec expectedScope
  let merged ← checkpoint.mergeResolutions [] resolutions
  merged.validate codec expectedScope
  return merged

/-- A confirmation that fits an approval of a call that waits to run. -/
def TurnCheckpoint.confirms (checkpoint : TurnCheckpoint) (confirmation : ApprovalConfirmation)
    (expectedScope : ToolExecutionScope) (nowMs : ℕ) (approval : CheckpointApproval) : Bool :=
  approval.scope = confirmation.scope && confirmation.scope = expectedScope &&
    approval.prepared.digest = confirmation.preparedDigest &&
    approval.policyRevision = confirmation.policyRevision && approval.evidenceId.isNone &&
    approval.expiresAtMs.all (nowMs < ·) &&
    checkpoint.calls.any fun item => item.call.id = approval.prepared.call.id && item.isReady

/-- `TurnCheckpoint::merge_approval`. -/
def TurnCheckpoint.mergeApproval (checkpoint : TurnCheckpoint) (confirmation : ApprovalConfirmation)
    (expectedScope : ToolExecutionScope) (nowMs : ℕ) : Except CheckpointError TurnCheckpoint := do
  checkpoint.validate codec expectedScope
  identifier confirmation.evidenceId
  let approval ← expect (checkpoint.approvals.find? (·.approvalId = confirmation.approvalId))
    (.invalid "unknown approval")
  reject (checkpoint.confirms confirmation expectedScope nowMs approval = false)
    (.invalid "approval confirmation binding is stale, resolved or foreign")
  let merged := checkpoint.confirm confirmation.approvalId confirmation.evidenceId
  merged.validate codec expectedScope
  return merged

end Suspension

end Turn
end Kolyan
