/-
# Dispatch of one stage

`kolyan-core/src/turn/dispatch.rs`: the calls of the current stage that may run
get a grant each (`invocations`), run one after another or side by side
(`dispatchCall`), and what came of each goes into the checkpoint
(`applyObservation`).  An uncertain outcome ends the Turn even where the error
policy would feed errors back to the model.
-/

import Kolyan.Turn.Planning

namespace Kolyan
namespace Turn

open Checks Policy Threads

/-- `DispatchObservation`. -/
structure DispatchObservation where
  call : ToolCall
  issued : IssuedToolAuthority
  outcome : Except ToolError ToolOutcome

/-- The call answered that it waits for an external result. -/
def DispatchObservation.waiting (observation : DispatchObservation) : Bool :=
  match observation.outcome with
  | .ok (.awaitingExternal _) => true
  | _ => false

section Grants

variable (codec : Codec)

/-- An approval of the checkpoint is still open. -/
def TurnCheckpoint.pendingApproval (checkpoint : TurnCheckpoint) : Bool :=
  checkpoint.approvals.any (·.evidenceId.isNone)

/-- The evidence for a call that needs an approval. -/
def TurnCheckpoint.approvalEvidence (checkpoint : TurnCheckpoint) (id : String) :
    TurnProg ApprovalEvidence := do
  let saved ← expected (checkpoint.savedApproval id)
  match saved.expiresAtMs with
  | none => pure ()
  | some expiry => do
      let sight ← ask .look
      Fallible.lift (reject (expiry ≤ sight.nowMs) (.invalidRequest "approval has expired"))
  let evidenceId ← expected saved.evidenceId
  return .confirmed checkpoint.scope saved.prepared.digest saved.policyRevision evidenceId

/-- The authority that a planned call runs under. -/
def TurnCheckpoint.issueAuthority (checkpoint : TurnCheckpoint) (item : CheckpointCall)
    (planned : BatchCallDecision) : TurnProg IssuedToolAuthority := do
  let evidence ← if planned.decision.kind = .requireApproval then checkpoint.approvalEvidence item.call.id
    else pure .notConfirmed
  let prepared ← expected item.prepared
  let grant ← Fallible.lift (mapError (fun error => .invalidRequest error.toString)
    (PreparedGrant.issue codec.sha256 prepared planned.decision evidence checkpoint.scope))
  let issued := { prepared, grant, scope := checkpoint.scope, policyRevision := planned.decision.policyVersion }
  Fallible.lift (mapError checkpointError (IssuedToolAuthority.validate codec issued checkpoint.scope))
  return issued

/-- The invocation of one call of the stage, if it may run now. -/
def TurnCheckpoint.invocation (checkpoint : TurnCheckpoint) (plan : BatchExecutionPlan) (id : String) :
    TurnProg (Option (ToolCall × IssuedToolAuthority)) := do
  let item ← expected (checkpoint.calls.find? (·.call.id = id))
  if item.isReady = false then return none
  else do
    let planned ← expected (plan.decisions.find? (·.callId = id))
    -- One confirmation starts nothing while another approval is pending.
    if planned.decision.kind = .requireApproval ∧ checkpoint.pendingApproval then return none
    else do
      let issued ← checkpoint.issueAuthority codec item planned
      return some (item.call, issued)

/-- The invocations of a stage. -/
def TurnCheckpoint.invocations (checkpoint : TurnCheckpoint) (plan : BatchExecutionPlan) :
    List String → TurnProg (List (ToolCall × IssuedToolAuthority))
  | [] => return []
  | id :: stage => do
      let invocation ← checkpoint.invocation codec plan id
      let rest ← checkpoint.invocations plan stage
      return invocation.toList ++ rest

end Grants

section Calls

variable (fuel : ℕ)

/-- The moment by which a call has to end. -/
def RunState.callDeadline (state : RunState) (now grantTimeout : ℕ) : ℕ :=
  let own := now + grantTimeout * 10 ^ 6
  let tool := state.toolTimeout.elim own (fun timeout => min own (now + timeout))
  state.deadline.elim tool (min tool)

/-- The invocation that a tool executor is given. -/
def IssuedToolAuthority.toolInvocation (issued : IssuedToolAuthority) (window : ℕ) : ToolInvocation where
  prepared := issued.prepared
  grant := issued.grant
  scope := issued.scope
  policyRevision := issued.policyRevision
  window := window

/-- What is left of an execution that was awaited under its deadline. -/
def executionOutcome : Raced (Except ToolError ToolOutcome) → Except ToolError ToolOutcome
  | .cancelled => .error .cancelled
  | .timedOut => .error .timedOut
  | .answered outcome => outcome

/-- `TurnExecutor::dispatch_call`. -/
def RunState.dispatchCall (state : RunState) (call : ToolCall) (issued : IssuedToolAuthority) :
    TurnProg DispatchObservation := do
  state.admitted (.tool state.stepId call.id)
  state.check
  let checkpoint ← expected state.pending
  if checkpoint.approvals.any (·.prepared.call.id = call.id) then pure ()
  else emit (.toolCallRequested state.turnId call)
  emit (.toolExecutionStarted state.turnId call.id call.name)
  let grantTimeout ← Fallible.lift (expect issued.grant.constraints.timeoutMs
    (.invalidRequest "issued timeout is missing"))
  let sight ← ask .look
  ask (.execute (issued.toolInvocation (state.callDeadline sight.now grantTimeout)))
  let answer ← polledOutcome call.id fuel
  return { call, issued, outcome := executionOutcome answer }

end Calls

section Outcomes

/-- `checkpoint.calls[..].state = ..`, charged. -/
def TurnCheckpoint.settle (checkpoint : TurnCheckpoint) (id : String) (settled : CheckpointCallState) :
    TurnCheckpoint :=
  checkpoint.update id fun item => { item with charged := true, state := settled }

/-- An uncertain outcome, whose recording may have failed too. -/
def RunState.uncertain (state : RunState) (call : ToolCall) (message : String) :
    TurnProg CheckpointCallState := do
  let error := ToolError.uncertain message
  match ← ask (.record (.toolExecutionFailed state.turnId call.id call.name error)) with
  | .ok _ => throw (.tool error)
  | .error recording => throw (.tool (.uncertain
      (error.toString ++ "; failure recording also failed: " ++ recording.toString)))

/-- A result that the call was issued for. -/
def checkedResult (issued : IssuedToolAuthority) (result : ToolResult) : Except TurnError Unit :=
  mapError (fun error => .tool (.invalidBatch error.toString)) (issued.validateResult result)

/-- The state of a call whose execution failed. -/
def RunState.failedState (state : RunState) (call : ToolCall) (issued : IssuedToolAuthority)
    (error : ToolError) : TurnProg CheckpointCallState := do
  emit (.toolExecutionFailed state.turnId call.id call.name error)
  if error = .cancelled then throw .cancelled
  else if state.dispatch.onError = .failTurn ∨ error.fatal then throw (.tool error)
  else do
    Fallible.lift (checkedResult issued (feedback call.id error))
    emit (.toolResult state.turnId (feedback call.id error))
    return .completed (feedback call.id error) (some issued)

/-- The state that an observation leaves its call in. -/
def RunState.observedState (state : RunState) (observation : DispatchObservation) :
    TurnProg CheckpointCallState :=
  match observation.outcome with
  | .ok (.completed result) => do
      Fallible.lift (checkedResult observation.issued result)
      emit (.toolResult state.turnId result)
      return .completed result (some observation.issued)
  | .ok (.awaitingExternal wait) =>
      match wait.validate with
      | .error error => state.uncertain observation.call
          ("executor returned invalid external wait after admission: " ++ error.toString)
      | .ok _ => do
          emit (.toolAwaitingExternal state.turnId observation.call.id wait)
          return .awaitingExternal wait observation.issued
  | .error (.uncertain message) => state.uncertain observation.call message
  | .error error => state.failedState observation.call observation.issued error

/-- `TurnExecutor::apply_observation`. -/
def RunState.applyObservation (state : RunState) (checkpoint : TurnCheckpoint)
    (observation : DispatchObservation) : TurnProg TurnCheckpoint := do
  let settled ← state.observedState observation
  let _ ← expected (checkpoint.calls.find? (·.call.id = observation.call.id))
  return checkpoint.settle observation.call.id settled

/-- The error that a drained batch ends with: an uncertain one wins. -/
def TurnError.joins (error : TurnError) (fatal : Option TurnError) : TurnError :=
  match error with
  | .tool (.uncertain _) => error
  | _ => fatal.getD error

/-- The observations of a parallel batch: every one is drained before the first
error ends the Turn. -/
def RunState.drain (state : RunState) (checkpoint : TurnCheckpoint) (fatal : Option TurnError) :
    List (Except TurnError DispatchObservation) → TurnProg TurnCheckpoint
  | [] =>
      match fatal with
      | some error => throw error
      | none => return checkpoint
  | .error error :: observations => state.drain checkpoint (some (error.joins fatal)) observations
  | .ok observation :: observations => do
      match ← Fallible.attempt (state.applyObservation checkpoint observation) with
      | .ok checkpoint => state.drain checkpoint fatal observations
      | .error error => state.drain checkpoint (some (error.joins fatal)) observations

end Outcomes

section Stages

variable (codec : Codec) (fuel : ℕ)

/-- The invocations of a serial stage; a wait ends the stage. -/
def RunState.dispatchSerial (state : RunState) (checkpoint : TurnCheckpoint) :
    List (ToolCall × IssuedToolAuthority) → TurnProg TurnCheckpoint
  | [] => return checkpoint
  | (call, issued) :: invocations => do
      let observation ← ({ state with pending := some checkpoint }).dispatchCall fuel call issued
      let checkpoint ← state.applyObservation checkpoint observation
      state.check
      if observation.waiting then return checkpoint else state.dispatchSerial checkpoint invocations

/-- Which of the calls of a parallel stage runs on. -/
def polled : Prog TurnOp TurnOp.Answer ℕ := .ask .poll fun i => .done i

/-- The invocations of a parallel stage. -/
def RunState.dispatchParallel (state : RunState) (checkpoint : TurnCheckpoint)
    (invocations : List (ToolCall × IssuedToolAuthority)) : TurnProg TurnCheckpoint := do
  let observations ← Fallible.ofProg ((Prog.joinAll polled fuel
    (invocations.map fun invocation => (state.dispatchCall fuel invocation.1 invocation.2).run)).bind
      fun observations => .done (.ok observations))
  let checkpoint ← state.drain checkpoint none observations
  state.check
  return checkpoint

/-- `TurnExecutor::dispatch_current_stage`: the state after it, and whether the
batch went on. -/
def RunState.dispatchCurrentStage (state : RunState) (plan : BatchExecutionPlan) :
    TurnProg (RunState × Bool) := do
  let checkpoint ← expected state.pending
  match checkpoint.stages[checkpoint.stageIndex]? with
  | none => return (state, true)
  | some stage => do
      let invocations ← checkpoint.invocations codec plan stage
      if invocations.isEmpty then return (state, false)
      else do
        let checkpoint ← match state.dispatch.mode with
          | .serial => state.dispatchSerial fuel checkpoint invocations
          | .parallel => state.dispatchParallel fuel checkpoint invocations
        let checkpoint := checkpoint.recount
        Fallible.lift (mapError checkpointError (checkpoint.validate codec checkpoint.scope))
        return ({ state with pending := some checkpoint }, true)

end Stages

end Turn
end Kolyan
