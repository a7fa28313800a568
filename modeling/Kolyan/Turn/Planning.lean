/-
# Preparation and policy of a batch

`kolyan-core/src/turn/planning.rs`, with the run state of `engine.rs` that it
works on.  A completed Step with tool calls becomes a pending checkpoint
(`initializePending`); every iteration of the loop then prepares the calls that
wait to run afresh, asks the policy for a plan, and settles what the plan
denies or lets wait for an approval (`refreshReady`).
-/

import Kolyan.Turn.Ports

namespace Kolyan
namespace Turn

open Checks Policy Threads

section RunStates

variable (codec : Codec)

/-- `validate_request`. -/
def validateRequest (request : TurnRequest) : Except TurnError Unit := do
  reject request.turnId.isEmpty (.invalidRequest "turn_id must not be empty")
  reject (request.config.maxSteps = 0) (.invalidRequest "max_steps must be greater than zero")

/-- `TurnDeadline::validate_duration`. -/
def TurnDeadline.validateDuration (deadline : TurnDeadline) (duration : Option ℕ) :
    Except TurnError Unit :=
  reject (deadline.duration ≠ duration) (.deadline .durationMismatch)

/-- `TurnDeadline::tighten_absolute`. -/
def TurnDeadline.tightenAbsolute (deadline : TurnDeadline) : Option ℕ → TurnProg TurnDeadline
  | none => return deadline
  | some ceiling => do
      let mapped ← ask (.cutoff ceiling)
      let instant ← Fallible.lift (mapError .deadline mapped)
      return {
        duration := deadline.duration
        instant := some (deadline.instant.elim instant (min · instant))
        unixMs := some (deadline.unixMs.elim ceiling (min · ceiling)) }

/-- `TurnDeadline::restore`. -/
def TurnDeadline.restore : Option ℕ → TurnProg TurnDeadline
  | none => return { duration := none, instant := none, unixMs := none }
  | some unixMs => do
      let mapped ← ask (.cutoff unixMs)
      let instant ← Fallible.lift (mapError .deadline mapped)
      return { duration := none, instant := some instant, unixMs := some unixMs }

/-- `RunState::with_deadline`. -/
def RunState.withDeadline (request : TurnRequest) (dispatch : ToolDispatchPolicy)
    (toolTimeout : Option ℕ) (deadline : TurnDeadline) : Except TurnError RunState := do
  validateRequest request
  deadline.validateDuration request.config.deadline
  return {
    turnId := request.turnId
    modelRequest := request.modelRequest
    inputMessageCount := request.modelRequest.messages.length
    steps := []
    config := request.config
    deadline := deadline.instant
    deadlineAtMs := deadline.unixMs
    toolCallsUsed := 0
    dispatch := dispatch
    toolTimeout := toolTimeout
    pending := none
    resumed := false
    resumeBoundary := none }

/-- The run state that a checkpoint is restored to. -/
def TurnCheckpoint.runState (checkpoint : TurnCheckpoint) (scope : ToolExecutionScope)
    (deadline : TurnDeadline) : RunState where
  turnId := scope.execution.turnId
  modelRequest := checkpoint.modelRequest
  inputMessageCount := checkpoint.inputMessageCount
  steps := checkpoint.steps
  config := {
    maxSteps := checkpoint.budget.maxSteps
    maxToolCalls := checkpoint.budget.maxToolCalls
    deadline := none }
  deadline := deadline.instant
  deadlineAtMs := checkpoint.budget.deadlineAtMs
  toolCallsUsed := checkpoint.budget.priorToolCallsUsed
  dispatch := checkpoint.dispatch
  toolTimeout := checkpoint.budget.toolTimeoutMs.map (· * 10 ^ 6)
  pending := some checkpoint
  resumed := true
  resumeBoundary := some checkpoint.checkpointId

/-- `RunState::restore_with_deadline`. -/
def RunState.restoreWithDeadline (checkpoint : TurnCheckpoint) (scope : ToolExecutionScope)
    (deadline : TurnDeadline) : Except TurnError RunState := do
  mapError checkpointError (checkpoint.validate codec scope)
  deadline.validateDuration none
  reject (deadline.unixMs ≠ checkpoint.budget.deadlineAtMs)
    (.invalidRequest "restored deadline differs from the checkpoint cutoff")
  return checkpoint.runState scope deadline

/-- `RunState::step_id`. -/
def RunState.stepId (state : RunState) : String := stepName state.turnId (state.steps.length - 1)

/-- `RunState::check`. -/
def RunState.check (state : RunState) : TurnProg Unit := do
  let sight ← ask .look
  if sight.cancelled then throw .cancelled
  else if state.deadline.any (· ≤ sight.now) then throw .timedOut
  else return ()

/-- `TurnExecutor::admit`. -/
def RunState.admitted (state : RunState) (kind : TurnBoundaryKind) : TurnProg Unit := do
  state.check
  let answer ← ask (.boundary { turnId := state.turnId, kind })
  let decision ← raced state.deadline.isSome .cancelled .timedOut answer
  Fallible.lift decision

/-- `TurnExecutor::tool_scope`. -/
def TurnExecutor.toolScope (executor : TurnExecutor) (turnId stepId : String) :
    Except TurnError ToolExecutionScope := do
  let execution ← expect executor.executionKey
    (.invalidRequest "tool execution requires an admitted execution key")
  reject (execution.turnId ≠ turnId) (.invalidRequest "execution key belongs to another Turn")
  let scope := { execution, stepId, agentSnapshotDigest := executor.agentSnapshotDigest }
  mapError (fun error => .invalidRequest error.toString) scope.validate
  return scope

/-- `TurnExecutor::validate_resume_scope`. -/
def TurnExecutor.validateResumeScope (executor : TurnExecutor) (scope : ToolExecutionScope) :
    Except TurnError Unit := do
  let own ← executor.toolScope scope.execution.turnId scope.stepId
  reject (own ≠ scope) (.invalidRequest "checkpoint belongs to another admitted execution scope")

end RunStates

section Preparation

variable (codec : Codec)

/-- What a failed check is to a tool call. -/
def checkFailure : TurnError → ToolError
  | .cancelled => .cancelled
  | _ => .timedOut

/-- `TurnExecutor::prepare_ready`. -/
def RunState.prepareReady (state : RunState) (call : ToolCall) : PortProg ToolError PreparedCall := do
  Fallible.mapError checkFailure state.check
  let answer ← ask (.prepare call)
  let result ← raced (state.deadline.isSome || state.toolTimeout.isSome) .cancelled .timedOut answer
  let prepared ← Fallible.lift result
  Fallible.lift (mapError (fun error => .invalidBatch error.toString) (prepared.validate codec.sha256))
  Fallible.lift (reject (prepared.call ≠ call)
    (.invalidBatch "preparation changed the original model call"))
  return prepared

/-- `TurnExecutor::prepare_failure`: the feedback for the call, if the Turn goes
on. -/
def RunState.prepareFailure (state : RunState) (call : ToolCall) (error : ToolError) :
    TurnProg ToolResult := do
  emit (.toolCallRequested state.turnId call)
  emit (.toolExecutionFailed state.turnId call.id call.name error)
  if state.dispatch.onError = .failTurn ∨ error.fatal then throw (.tool error)
  else do
    emit (.toolResult state.turnId (feedback call.id error))
    return feedback call.id error

/-- The entry of one call in a new batch. -/
def RunState.prepareEntry (state : RunState) (call : ToolCall) : TurnProg CheckpointCall := do
  match ← Fallible.attempt (state.prepareReady codec call) with
  | .ok prepared => return { call, prepared := some prepared, charged := false, state := .ready }
  | .error error =>
      let result ← state.prepareFailure call error
      return { call, prepared := none, charged := true, state := .completed result none }

/-- The entries of a new batch. -/
def RunState.prepareEntries (state : RunState) : List ToolCall → TurnProg (List CheckpointCall)
  | [] => return []
  | call :: calls => do
      let entry ← state.prepareEntry codec call
      let entries ← state.prepareEntries calls
      return entry :: entries

/-- What a new batch is reconstructed from. -/
def RunState.batch (state : RunState) (scope : ToolExecutionScope) (entries : List CheckpointCall) :
    CheckpointReconstruction where
  scope := scope
  modelRequest := state.modelRequest
  inputMessageCount := state.inputMessageCount
  steps := state.steps
  calls := entries
  stages := [entries.map (·.call.id)]
  stageIndex := 0
  approvals := []
  budget := {
    maxSteps := state.config.maxSteps
    maxToolCalls := state.config.maxToolCalls
    deadlineAtMs := state.deadlineAtMs
    toolTimeoutMs := state.toolTimeout.map (· / 10 ^ 6 % 2 ^ 64)
    priorToolCallsUsed := state.toolCallsUsed
    toolCallsUsed := state.toolCallsUsed + charged entries }
  dispatch := state.dispatch

/-- The calls asked for fit the budget of the Turn. -/
def RunState.fitsBudget (state : RunState) (calls : List ToolCall) : Bool :=
  (checkedAdd state.toolCallsUsed calls.length).any fun requested =>
    state.config.maxToolCalls.all (requested ≤ ·)

/-- `TurnExecutor::initialize_pending`. -/
def TurnExecutor.initializePending (executor : TurnExecutor) (state : RunState) : TurnProg RunState := do
  let policy ← Fallible.lift (expect executor.policyEngine
    (.invalidRequest "tool execution requires a trusted policy engine"))
  let scope ← Fallible.lift (executor.toolScope state.turnId state.stepId)
  let step ← expected state.steps.getLast?
  let calls ← Fallible.lift (mapError .tool (toolCallBatch (toolCalls step.response.content)))
  Fallible.lift (reject (state.fitsBudget calls = false) .toolBudgetExceeded)
  match calls.find? (policy.hasNoProgress · (state.modelRequest.messages.drop state.inputMessageCount)) with
  | some call => throw (.noProgress call.name)
  | none => do
      let entries ← state.prepareEntries codec calls
      let checkpoint ← Fallible.lift (mapError checkpointError
        (TurnCheckpoint.reconstruct codec (state.batch scope entries) scope))
      return { state with pending := some checkpoint }

end Preparation

section Refresh

variable (codec : Codec)

/-- An approval of the call that was confirmed for another preparation. -/
def TurnCheckpoint.approvedOtherwise (checkpoint : TurnCheckpoint) (call : ToolCall)
    (current : PreparedCall) : Bool :=
  checkpoint.approvals.any fun approval => approval.prepared.call.id = call.id &&
    approval.evidenceId.isSome && approval.prepared ≠ current

/-- One call that waits to run, prepared afresh. -/
def RunState.refreshCall (state : RunState) (checkpoint : TurnCheckpoint) (call : ToolCall) :
    TurnProg TurnCheckpoint := do
  match ← Fallible.attempt (state.prepareReady codec call) with
  | .error error =>
      let result ← state.prepareFailure call error
      let failed := checkpoint.update call.id fun item =>
        { item with prepared := none, charged := true, state := .completed result none }
      return failed.dropApprovals call.id
  | .ok current =>
      Fallible.lift (reject (checkpoint.approvedOtherwise call current)
        (.invalidRequest "approval preparation has changed"))
      return checkpoint.update call.id fun item => { item with prepared := some current }

/-- The calls that wait to run, prepared afresh. -/
def RunState.refreshCalls (state : RunState) (checkpoint : TurnCheckpoint) :
    List ToolCall → TurnProg TurnCheckpoint
  | [] => return checkpoint
  | call :: calls => do
      let checkpoint ← state.refreshCall codec checkpoint call
      state.refreshCalls checkpoint calls

/-- The approval that was saved for a call. -/
def TurnCheckpoint.savedApproval (checkpoint : TurnCheckpoint) (id : String) : Option CheckpointApproval :=
  checkpoint.approvals.find? (·.prepared.call.id = id)

/-- A confirmed approval that the current decision does not ask for. -/
def CheckpointApproval.stale (approval : CheckpointApproval) (decision : PolicyDecision) : Bool :=
  approval.evidenceId.isSome &&
    (approval.policyRevision ≠ decision.policyVersion || decision.kind ≠ .requireApproval)

/-- An approval of exactly this preparation under this policy. -/
def CheckpointApproval.current (approval : CheckpointApproval) (prepared : PreparedCall)
    (decision : PolicyDecision) : Bool :=
  approval.prepared = prepared && approval.policyRevision = decision.policyVersion

/-- The approval that a decision asks for. -/
def TurnCheckpoint.newApproval (checkpoint : TurnCheckpoint) (item : CheckpointCall)
    (prepared : PreparedCall) (decision : PolicyDecision) : CheckpointApproval where
  approvalId := hostIdentity codec "approval" (.array [checkpoint.scope.toValue, .string item.call.id,
    .string prepared.digest, .string decision.policyVersion])
  reason := decision.reason
  prepared := prepared
  scope := checkpoint.scope
  policyRevision := decision.policyVersion
  evidenceId := none
  expiresAtMs := none

/-- A call that the policy denies. -/
def RunState.denyCall (state : RunState) (checkpoint : TurnCheckpoint) (item : CheckpointCall)
    (reason : String) : TurnProg TurnCheckpoint := do
  let error := ToolError.policyDenied reason
  emit (.toolCallRequested state.turnId item.call)
  emit (.toolExecutionFailed state.turnId item.call.id item.call.name error)
  if state.dispatch.onError = .failTurn then throw (.tool error)
  else do
    emit (.toolResult state.turnId (feedback item.call.id error))
    let denied := checkpoint.update item.call.id (·.complete (feedback item.call.id error) none)
    return denied.dropApprovals item.call.id

/-- A call that the policy lets wait for an approval. -/
def RunState.requireApproval (state : RunState) (checkpoint : TurnCheckpoint) (item : CheckpointCall)
    (prepared : PreparedCall) (decision : PolicyDecision) : TurnProg TurnCheckpoint := do
  if (checkpoint.savedApproval item.call.id).any (·.current prepared decision) then return checkpoint
  else do
    emit (.toolCallRequested state.turnId item.call)
    emit (.approvalRequested state.turnId item.call.id item.call.name)
    let kept := (checkpoint.dropApprovals item.call.id).approvals
    let approvals := kept ++ [checkpoint.newApproval codec item prepared decision]
    return { checkpoint with approvals }

/-- One decision of a plan. -/
def RunState.applyDecision (state : RunState) (checkpoint : TurnCheckpoint)
    (planned : BatchCallDecision) : TurnProg TurnCheckpoint := do
  let item ← expected (checkpoint.calls.find? (·.call.id = planned.callId))
  let prepared ← expected item.prepared
  Fallible.lift (reject ((checkpoint.savedApproval item.call.id).any (·.stale planned.decision))
    (.invalidRequest "approval is stale under the current policy"))
  match planned.decision.kind with
  | .deny => state.denyCall checkpoint item planned.decision.reason
  | .requireApproval => state.requireApproval codec checkpoint item prepared planned.decision
  | .allow | .allowWithConstraints => return checkpoint.dropApprovals item.call.id

/-- The decisions of a plan. -/
def RunState.applyDecisions (state : RunState) (checkpoint : TurnCheckpoint) :
    List BatchCallDecision → TurnProg TurnCheckpoint
  | [] => return checkpoint
  | planned :: decisions => do
      let checkpoint ← state.applyDecision codec checkpoint planned
      state.applyDecisions checkpoint decisions

/-- The calls that wait to run. -/
def TurnCheckpoint.ready (checkpoint : TurnCheckpoint) : List CheckpointCall :=
  checkpoint.calls.filter (·.isReady)

/-- The ids of the completed calls. -/
def TurnCheckpoint.completedIds (checkpoint : TurnCheckpoint) : List String :=
  (checkpoint.calls.filter (·.isCompleted)).map (·.call.id)

/-- The stages that are left, by the dispatch mode. -/
def TurnCheckpoint.openStages (checkpoint : TurnCheckpoint) (mode : ToolDispatchMode)
    (plan : BatchExecutionPlan) : List (List String) :=
  match mode with
  | .serial => checkpoint.ready.map fun item => [item.call.id]
  | .parallel => plan.stagesWithApprovals (plan.decisions.map (·.callId))

/-- The stages of a plan, the completed calls first. -/
def TurnCheckpoint.restage (checkpoint : TurnCheckpoint) (mode : ToolDispatchMode)
    (plan : BatchExecutionPlan) : TurnCheckpoint :=
  let completed := checkpoint.completedIds
  let stages := checkpoint.openStages mode plan
  if completed.isEmpty then { checkpoint with stages, stageIndex := 0 }
  else { checkpoint with stages := completed :: stages, stageIndex := 1 }

/-- The context that a plan is resolved in. -/
def RunState.policyContext (state : RunState) (checkpoint : TurnCheckpoint) : PolicyContext where
  workspace := none
  remainingToolCalls := state.config.maxToolCalls.map (· - checkpoint.budget.toolCallsUsed)

/-- `TurnExecutor::refresh_ready`: the state with its refreshed checkpoint, and
the plan. -/
def TurnExecutor.refreshReady (executor : TurnExecutor) (state : RunState) :
    TurnProg (RunState × BatchExecutionPlan) := do
  let checkpoint ← expected state.pending
  let checkpoint ← state.refreshCalls codec checkpoint (checkpoint.ready.map (·.call))
  state.check
  let policy ← Fallible.lift (expect executor.policyEngine
    (.invalidRequest "tool execution requires a trusted policy engine"))
  let checkpoint := checkpoint.recount
  let preparations ← expected (checkpoint.ready.mapM (·.prepared))
  let plan ← Fallible.lift (mapError (fun error => .invalidRequest error.toString)
    (policy.resolvePreparedBatch codec.sha256 (state.policyContext checkpoint) preparations))
  let checkpoint ← state.applyDecisions codec checkpoint plan.decisions
  let checkpoint := (checkpoint.restage state.dispatch.mode plan).recount
  Fallible.lift (mapError checkpointError (checkpoint.validate codec checkpoint.scope))
  let recorded ← ask (.recordCheckpoint checkpoint)
  Fallible.lift recorded
  ask (.planned plan checkpoint)
  return ({ state with pending := some checkpoint }, plan)

end Refresh

end Turn
end Kolyan
