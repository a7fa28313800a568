/-
# The loop of a Turn

`kolyan-core/src/turn/engine.rs` and the resumable calls of `turn.rs`.  A Turn
asks its model for a Step, runs the tool calls of the Step until their results
are all there (`handlePending`), and asks again, up to its Step limit.  It ends
with a terminal boundary, with an error, or suspended: `startResumable` begins a
Turn, `mergeResume` puts what the host decided into the checkpoint of a
suspended one, and `resumeCheckpoint` goes on from there.  The pending loop of a
Turn that does not suspend waits for its approvals itself; the loops take fuel,
one unit an iteration.
-/

import Kolyan.Turn.Dispatch

namespace Kolyan
namespace Turn

open Checks Policy Threads

section Pending

variable (codec : Codec) (executor : TurnExecutor) (fuel : ℕ) (suspend : Bool)

/-- The boundaries of the approvals that a suspension waits for. -/
def RunState.awaitApprovals (state : RunState) : List ApprovalRequest → TurnProg Unit
  | [] => return ()
  | approval :: approvals => do
      state.admitted (.awaitingApproval approval.approvalId)
      state.awaitApprovals approvals

/-- `TurnExecutor::suspend_pending`. -/
def RunState.suspendPending (state : RunState) : TurnProg TurnSuspension := do
  let checkpoint ← expected state.pending
  let suspension ← Fallible.lift (mapError checkpointError
    (TurnSuspension.fromCheckpoint codec checkpoint checkpoint.scope))
  Fallible.lift (reject (suspension.waiting.approvals = [] ∧ suspension.waiting.externalWaits = [])
    (.invalidRequest "tool stage has no runnable call or waiting reason"))
  state.awaitApprovals suspension.waiting.approvals
  if suspension.waiting.externalWaits = [] then return suspension
  else do
    state.admitted (.awaitingExternal checkpoint.checkpointId
      (suspension.waiting.externalWaits.map (·.wait.waitId)))
    return suspension

/-- The results of a batch, paired with its calls. -/
def TurnCheckpoint.paired (checkpoint : TurnCheckpoint) : Option (List ToolDispatchResult) :=
  checkpoint.calls.mapM fun item => item.result?.map fun result =>
    { callId := item.call.id, result := .ok result }

/-- A batch whose calls are all completed: its messages go to the request. -/
def RunState.completeBatch (state : RunState) (checkpoint : TurnCheckpoint) : TurnProg RunState := do
  let batch ← Fallible.lift (mapError .tool (toolCallBatch (checkpoint.calls.map (·.call))))
  let paired ← expected checkpoint.paired
  Fallible.lift (mapError .tool (validateResults batch paired))
  let step ← expected checkpoint.steps.getLast?
  let results ← expected (checkpoint.calls.mapM (·.result?))
  let messages := appendToolContext state.modelRequest.messages step.response.content results
  let modelRequest := { state.modelRequest with messages }
  return { state with
    pending := none
    toolCallsUsed := checkpoint.budget.toolCallsUsed
    modelRequest := modelRequest }

/-- The wait for an approval inside the process. -/
def RunState.awaitApproval (state : RunState) (checkpoint : TurnCheckpoint) (approval : ApprovalRequest) :
    TurnProg RunState := do
  state.admitted (.awaitingApproval approval.approvalId)
  let answer ← ask (.approval approval.toolName)
  raced state.deadline.isSome .cancelled .timedOut answer
  state.admitted (.resumeApproval approval.approvalId)
  let _ ← expected (checkpoint.approvals.find? (·.approvalId = approval.approvalId))
  return { state with pending := some (checkpoint.confirm approval.approvalId approval.approvalId) }

/-- What one iteration of the pending loop comes to. -/
inductive PendingStep where
  | again (state : RunState)
  | finished (state : RunState)
  | waiting (suspension : TurnSuspension)

/-- The next stage, once the calls that wait to run are refreshed. -/
def TurnExecutor.runStage (state : RunState) (plan : BatchExecutionPlan) : TurnProg PendingStep := do
  let (state, progressed) ← state.dispatchCurrentStage codec fuel plan
  if progressed then return .again state
  else do
    let suspension ← state.suspendPending codec
    return .waiting suspension

/-- A batch with calls to run. -/
def TurnExecutor.runPending (state : RunState) : TurnProg PendingStep := do
  let (state, plan) ← executor.refreshReady codec state
  let checkpoint ← expected state.pending
  let summary ← Fallible.lift (mapError checkpointError
    (checkpoint.suspensionSummary codec checkpoint.scope))
  match suspend, summary.approvals with
  | false, approval :: _ => do
      let state ← state.awaitApproval checkpoint approval
      return .again state
  | _, _ => TurnExecutor.runStage codec fuel state plan

/-- One iteration of `handle_pending`. -/
def TurnExecutor.pendingStep (state : RunState) : TurnProg PendingStep := do
  state.check
  let checkpoint ← expected state.pending
  if checkpoint.calls.any (·.isAwaiting) then do
    let suspension ← state.suspendPending codec
    return .waiting suspension
  else if checkpoint.calls.all (·.isCompleted) then do
    let state ← state.completeBatch checkpoint
    return .finished state
  else executor.runPending codec fuel suspend state

/-- `TurnExecutor::handle_pending`: the state after the batch, or why the Turn
waits. -/
def TurnExecutor.handlePending : ℕ → RunState → TurnProg (RunState ⊕ TurnSuspension)
  | 0, _ => panicked
  | iterations + 1, state => do
      match ← executor.pendingStep codec fuel suspend state with
      | .again state => TurnExecutor.handlePending iterations state
      | .finished state => return .inl state
      | .waiting suspension => return .inr suspension

end Pending

section Driving

variable (codec : Codec) (executor : TurnExecutor) (fuel : ℕ) (suspend : Bool)

/-- `TurnExecutor::complete`. -/
def RunState.complete (state : RunState) (outcome : TurnOutcome) (reason : TurnEndReason) :
    TurnProg ResumableTurn := do
  state.admitted (.terminal reason)
  emit (.completed state.turnId outcome)
  return .completed { turnId := state.turnId, outcome, endReason := reason, steps := state.steps }

/-- The name of the Step that comes next. -/
def RunState.nextStepId (state : RunState) : String := stepName state.turnId state.steps.length

/-- One Step of the model: the state that has asked for it and recorded what it
answered. -/
def RunState.modelStep (state : RunState) : TurnProg (RunState × StepResult) := do
  let stepId := state.nextStepId
  state.admitted (.step stepId)
  let modelRequest := { state.modelRequest with requestId := stepId }
  emit (.stepStarted state.turnId stepId)
  let recorded ← ask (.recordRequest modelRequest)
  Fallible.lift recorded
  let answer ← ask (.step stepId modelRequest)
  let result ← raced state.deadline.isSome .cancelled .timedOut answer
  let reply ← Fallible.lift (mapError mapStepError result)
  let step := { stepId, response := reply.response, outcome := reply.outcome }
  emit (.stepCompleted state.turnId step)
  return ({ state with modelRequest, steps := state.steps ++ [step] }, step)

/-- The batch that is pending, if there is one. -/
def TurnExecutor.settlePending (state : RunState) : TurnProg (RunState ⊕ TurnSuspension) :=
  match state.pending with
  | none => return .inl state
  | some _ => executor.handlePending codec fuel suspend fuel state

/-- What one iteration of `drive` comes to. -/
inductive DriveStep where
  | again (state : RunState)
  | exit (turn : ResumableTurn)

/-- A Step, once no batch is pending. -/
def TurnExecutor.driveModel (state : RunState) : TurnProg DriveStep := do
  if state.config.maxSteps ≤ state.steps.length then do
    let turn ← state.complete .maxSteps .maxSteps
    return .exit turn
  else do
    let (state, step) ← state.modelStep
    if step.outcome ≠ .toolCalls then do
      let turn ← state.complete (outcomeFromStep step).1 (outcomeFromStep step).2
      return .exit turn
    else do
      let state ← executor.initializePending codec state
      return .again state

/-- One iteration of `drive`. -/
def TurnExecutor.driveStep (state : RunState) : TurnProg DriveStep := do
  state.check
  match ← executor.settlePending codec fuel suspend state with
  | .inr suspension => return .exit (.suspended suspension)
  | .inl state => executor.driveModel codec state

/-- The loop of `drive`. -/
def TurnExecutor.driveLoop : ℕ → RunState → TurnProg ResumableTurn
  | 0, _ => panicked
  | iterations + 1, state => do
      match ← executor.driveStep codec fuel suspend state with
      | .again state => TurnExecutor.driveLoop iterations state
      | .exit turn => return turn

/-- `TurnExecutor::drive`. -/
def TurnExecutor.drive (state : RunState) : TurnProg ResumableTurn := do
  match state.resumeBoundary with
  | none => pure ()
  | some checkpointId => state.admitted (.resumeCheckpoint checkpointId)
  executor.driveLoop codec fuel suspend fuel { state with resumeBoundary := none }

/-- The error that a Turn ends with, once its end is recorded. -/
def recordedError (error : TurnError) : Except TurnError Unit → TurnError
  | .ok _ => error
  | .error recording =>
      match error with
      | .tool (.uncertain message) => .tool (.uncertain ((TurnError.tool (.uncertain message)).toString ++
          "; terminal recording also failed: " ++ recording.toString))
      | _ => recording

/-- `TurnExecutor::run`. -/
def TurnExecutor.run (state : RunState) : TurnProg ResumableTurn := do
  if state.resumed then pure () else emit (.started state.turnId)
  match ← Fallible.attempt (executor.drive codec fuel suspend state) with
  | .ok turn => return turn
  | .error error => do
      let recorded ← ask (.record (terminalEvent state.turnId error))
      throw (recordedError error recorded)

end Driving

section Resumable

variable (codec : Codec) (executor : TurnExecutor) (fuel : ℕ)

/-- `TurnExecutor::start_resumable_with_control_and_deadline`. -/
def TurnExecutor.startResumable (request : TurnRequest) (deadline : TurnDeadline) :
    TurnProg ResumableTurn := do
  Fallible.lift (deadline.validateDuration request.config.deadline)
  let deadline ← deadline.tightenAbsolute executor.absoluteDeadlineAtMs
  let state ← Fallible.lift
    (RunState.withDeadline request executor.toolDispatch executor.toolTimeout deadline)
  executor.run codec fuel true state

/-- What a resume merges. -/
def TurnSuspension.merged (suspension : TurnSuspension) (input : ResumeInput)
    (scope : ToolExecutionScope) (nowMs : ℕ) : Except CheckpointError TurnCheckpoint :=
  match input with
  | .approvalConfirmed confirmation =>
      suspension.checkpoint.mergeApproval codec confirmation scope nowMs
  | .externalResolved resolutions => suspension.checkpoint.mergeExternal codec resolutions scope

/-- `TurnExecutor::merge_resume_with_control_and_deadline`. -/
def TurnExecutor.mergeResume (suspension : TurnSuspension) (input : ResumeInput)
    (scope : ToolExecutionScope) (deadline : TurnDeadline) : TurnProg TurnCheckpoint := do
  Fallible.lift (executor.validateResumeScope scope)
  Fallible.lift (mapError checkpointError (suspension.validate codec scope))
  let state ← Fallible.lift (RunState.restoreWithDeadline codec suspension.checkpoint scope deadline)
  state.check
  let sight ← ask .look
  Fallible.lift (mapError checkpointError (suspension.merged codec input scope sight.nowMs))

/-- The checkpoint keeps the absolute deadline of its executor. -/
def TurnExecutor.admitsCutoff (checkpoint : TurnCheckpoint) : Bool :=
  executor.absoluteDeadlineAtMs.all fun limit => checkpoint.budget.deadlineAtMs.any (· ≤ limit)

/-- `TurnExecutor::resume_checkpoint_with_control_and_deadline`. -/
def TurnExecutor.resumeCheckpoint (checkpoint : TurnCheckpoint) (scope : ToolExecutionScope)
    (deadline : TurnDeadline) : TurnProg ResumableTurn := do
  Fallible.lift (executor.validateResumeScope scope)
  Fallible.lift (reject (executor.admitsCutoff checkpoint = false)
    (.invalidRequest "checkpoint exceeds admitted absolute deadline"))
  let state ← Fallible.lift (RunState.restoreWithDeadline codec checkpoint scope deadline)
  executor.run codec fuel true state

end Resumable

end Turn
end Kolyan
