/-
# The data of a Turn

`kolyan-core/src/turn.rs` and its submodules: what a Turn is asked to do, the
checkpoint that carries its state over a suspension, the values its tools and
its host answer with, the events it records and the ways it fails.  A duration
and a monotonic instant are counted in nanoseconds.
-/

import Kolyan.Policy.Engine

namespace Kolyan
namespace Turn

open Policy

section Failures

/-- `ToolError`. -/
inductive ToolError where
  | uncertain (message : String)
  | invalidBatch (message : String)
  | unavailable (name : String)
  | failed (message : String)
  | cancelled
  | timedOut
  | policyDenied (message : String)
  deriving DecidableEq

/-- `ToolError::to_string`. -/
def ToolError.toString : ToolError → String
  | uncertain message => "tool outcome is uncertain and requires trusted recovery: " ++ message
  | invalidBatch message => "invalid tool call batch: " ++ message
  | unavailable name => "tool is unavailable: " ++ name
  | failed message => "tool execution failed: " ++ message
  | cancelled => "tool execution was cancelled"
  | timedOut => "tool execution timed out"
  | policyDenied message => "tool execution denied by policy: " ++ message

/-- `StepError`; a failure of the provider, the protocol, a validator or a
recorder comes with its text. -/
inductive StepError where
  | failed (message : String)
  | cancelled
  | timedOut
  deriving DecidableEq

/-- `StepError::to_string`. -/
def StepError.toString : StepError → String
  | failed message => message
  | cancelled => "step was cancelled"
  | timedOut => "step timed out"

/-- `TurnDeadlineError`. -/
inductive TurnDeadlineError where
  | clockBeforeUnixEpoch | unixOverflow | instantOverflow | durationMismatch
  deriving DecidableEq

/-- `TurnDeadlineError::to_string`. -/
def TurnDeadlineError.toString : TurnDeadlineError → String
  | clockBeforeUnixEpoch => "clock precedes Unix epoch"
  | unixOverflow => "Unix deadline overflow"
  | instantOverflow => "monotonic deadline overflow"
  | durationMismatch => "request duration differs from its deadline anchor"

/-- `TurnError`. -/
inductive TurnError where
  | deadline (error : TurnDeadlineError)
  | noProgress (toolName : String)
  | boundaryControl (message : String)
  | invalidRequest (message : String)
  | step (error : StepError)
  | tool (error : ToolError)
  | cancelled
  | timedOut
  | maxSteps
  | toolBudgetExceeded
  deriving DecidableEq

/-- `TurnError::to_string`. -/
def TurnError.toString : TurnError → String
  | deadline error => "deadline failed: " ++ error.toString
  | noProgress toolName => "turn stopped for no progress: repeated tool " ++ toolName
  | boundaryControl message => "turn boundary control failed: " ++ message
  | invalidRequest message => "turn request is invalid: " ++ message
  | step error => "turn step failed: " ++ error.toString
  | tool error => "turn tool execution failed: " ++ error.toString
  | cancelled => "turn was cancelled"
  | timedOut => "turn timed out"
  | maxSteps => "turn reached its maximum step count"
  | toolBudgetExceeded => "turn reached its maximum tool call count"

/-- `CheckpointError`. -/
inductive CheckpointError where
  | invalid (message : String)
  | foreignScope
  | outputLimit
  | checkpointLimit
  deriving DecidableEq

/-- `CheckpointError::to_string`. -/
def CheckpointError.toString : CheckpointError → String
  | invalid message => "invalid checkpoint: " ++ message
  | foreignScope => "checkpoint scope differs from admitted scope"
  | outputLimit => "external result exceeds issued output limit"
  | checkpointLimit => "complete checkpoint exceeds 16 MiB encoded limit"

/-- `checkpoint_error`. -/
def checkpointError (error : CheckpointError) : TurnError := .invalidRequest error.toString

/-- `map_step_error`. -/
def mapStepError : StepError → TurnError
  | .cancelled => .cancelled
  | .timedOut => .timedOut
  | error => .step error

end Failures

section Outcomes

/-- `StepOutcome`. -/
inductive StepOutcome where
  | finalAnswer | toolCalls | refused | incomplete
  deriving DecidableEq

/-- `StepResult`. -/
structure StepResult where
  stepId : String
  response : ModelResponse
  outcome : StepOutcome
  deriving DecidableEq

/-- `TurnOutcome`. -/
inductive TurnOutcome where
  | finalAnswer (response : ModelResponse)
  | refused (response : ModelResponse)
  | incomplete (response : ModelResponse)
  | rejected (reason : String)
  | expired (reason : String)
  | maxSteps

/-- `TurnEndReason`. -/
inductive TurnEndReason where
  | finalAnswer | refused | incomplete | maxSteps | failed | cancelled | timedOut | approvalRejected
  | approvalExpired | noProgress
  deriving DecidableEq

/-- `outcome_from_step`. -/
def outcomeFromStep (step : StepResult) : TurnOutcome × TurnEndReason :=
  match step.outcome with
  | .finalAnswer => (.finalAnswer step.response, .finalAnswer)
  | .refused => (.refused step.response, .refused)
  | .incomplete => (.incomplete step.response, .incomplete)
  | .toolCalls => (.maxSteps, .maxSteps)

/-- `TurnResult`. -/
structure TurnResult where
  turnId : String
  outcome : TurnOutcome
  endReason : TurnEndReason
  steps : List StepResult

end Outcomes

section Tools

/-- `ExternalWait`. -/
structure ExternalWait where
  waitId : String
  kind : String
  schemaVersion : ℕ
  binding : Value
  deriving DecidableEq

/-- `ToolOutcome`. -/
inductive ToolOutcome where
  | completed (result : ToolResult)
  | awaitingExternal (wait : ExternalWait)
  deriving DecidableEq

/-- `ExternalResolution`. -/
structure ExternalResolution where
  callId : String
  wait : ExternalWait
  result : ToolResult

/-- `ToolInvocation`; its window is the deadline of the execution. -/
structure ToolInvocation where
  prepared : PreparedCall
  grant : PreparedGrant
  scope : ToolExecutionScope
  policyRevision : String
  window : ℕ

/-- `ToolDispatchMode`. -/
inductive ToolDispatchMode where
  | serial | parallel
  deriving DecidableEq

/-- `ToolErrorPolicy`. -/
inductive ToolErrorPolicy where
  | failTurn | continueBatch
  deriving DecidableEq

/-- `ToolDispatchPolicy`. -/
structure ToolDispatchPolicy where
  mode : ToolDispatchMode
  onError : ToolErrorPolicy
  deriving DecidableEq

/-- The feedback for a call that failed: an error result with the text of the
error. -/
def feedback (callId : String) (error : ToolError) : ToolResult :=
  { callId, content := error.toString, isError := true }

/-- An error that ends a Turn whatever its error policy says. -/
def ToolError.fatal : ToolError → Bool
  | uncertain _ | cancelled | timedOut | invalidBatch _ => true
  | _ => false

end Tools

section Checkpoints

/-- `IssuedToolAuthority`. -/
structure IssuedToolAuthority where
  prepared : PreparedCall
  grant : PreparedGrant
  scope : ToolExecutionScope
  policyRevision : String
  deriving DecidableEq

/-- `CheckpointCallState`. -/
inductive CheckpointCallState where
  | ready
  | completed (result : ToolResult) (issued : Option IssuedToolAuthority)
  | awaitingExternal (wait : ExternalWait) (issued : IssuedToolAuthority)
  deriving DecidableEq

/-- `CheckpointCall`. -/
structure CheckpointCall where
  call : ToolCall
  prepared : Option PreparedCall
  charged : Bool
  state : CheckpointCallState
  deriving DecidableEq

/-- `CheckpointApproval`. -/
structure CheckpointApproval where
  approvalId : String
  reason : String
  prepared : PreparedCall
  scope : ToolExecutionScope
  policyRevision : String
  evidenceId : Option String
  expiresAtMs : Option ℕ
  deriving DecidableEq

/-- `CheckpointBudget`. -/
structure CheckpointBudget where
  maxSteps : ℕ
  maxToolCalls : Option ℕ
  deadlineAtMs : Option ℕ
  toolTimeoutMs : Option ℕ
  priorToolCallsUsed : ℕ
  toolCallsUsed : ℕ
  deriving DecidableEq

/-- `TurnCheckpoint`. -/
structure TurnCheckpoint where
  schemaVersion : ℕ
  checkpointId : String
  scope : ToolExecutionScope
  modelRequest : ModelRequest
  inputMessageCount : ℕ
  steps : List StepResult
  nextStepIndex : ℕ
  calls : List CheckpointCall
  stages : List (List String)
  stageIndex : ℕ
  approvals : List CheckpointApproval
  budget : CheckpointBudget
  dispatch : ToolDispatchPolicy
  deriving DecidableEq

/-- The call waits to be run. -/
def CheckpointCall.isReady (item : CheckpointCall) : Bool :=
  match item.state with
  | .ready => true
  | _ => false

/-- The call has its result. -/
def CheckpointCall.isCompleted (item : CheckpointCall) : Bool :=
  match item.state with
  | .completed _ _ => true
  | _ => false

/-- The call waits for an external result. -/
def CheckpointCall.isAwaiting (item : CheckpointCall) : Bool :=
  match item.state with
  | .awaitingExternal _ _ => true
  | _ => false

/-- The result of a completed call. -/
def CheckpointCall.result? (item : CheckpointCall) : Option ToolResult :=
  match item.state with
  | .completed result _ => some result
  | _ => none

/-- The calls of the batch that count against the budget. -/
def charged (calls : List CheckpointCall) : ℕ := calls.countP (·.charged)

/-- `ApprovalRequest`. -/
structure ApprovalRequest where
  approvalId : String
  turnId : String
  callId : String
  toolName : String
  reason : String
  expiresAtMs : Option ℕ
  deriving DecidableEq

/-- `PendingExternalWait`. -/
structure PendingExternalWait where
  callId : String
  wait : ExternalWait
  deriving DecidableEq

/-- `SuspensionSummary`. -/
structure SuspensionSummary where
  approvals : List ApprovalRequest
  externalWaits : List PendingExternalWait
  deriving DecidableEq

/-- `TurnSuspension`. -/
structure TurnSuspension where
  checkpoint : TurnCheckpoint
  waiting : SuspensionSummary

/-- `ApprovalConfirmation`. -/
structure ApprovalConfirmation where
  approvalId : String
  preparedDigest : String
  policyRevision : String
  scope : ToolExecutionScope
  evidenceId : String

/-- `ResumeInput`. -/
inductive ResumeInput where
  | approvalConfirmed (confirmation : ApprovalConfirmation)
  | externalResolved (resolutions : List ExternalResolution)

end Checkpoints

section Requests

/-- `TurnConfig`. -/
structure TurnConfig where
  maxSteps : ℕ
  maxToolCalls : Option ℕ
  deadline : Option ℕ
  deriving DecidableEq

/-- `TurnRequest`. -/
structure TurnRequest where
  turnId : String
  modelRequest : ModelRequest
  config : TurnConfig

/-- `TurnDeadline`, without the clock sample that it was made from. -/
structure TurnDeadline where
  duration : Option ℕ
  instant : Option ℕ
  unixMs : Option ℕ

/-- `RunState`. -/
structure RunState where
  turnId : String
  modelRequest : ModelRequest
  inputMessageCount : ℕ
  steps : List StepResult
  config : TurnConfig
  deadline : Option ℕ
  deadlineAtMs : Option ℕ
  toolCallsUsed : ℕ
  dispatch : ToolDispatchPolicy
  toolTimeout : Option ℕ
  pending : Option TurnCheckpoint
  resumed : Bool
  resumeBoundary : Option String
  deriving DecidableEq

/-- `TurnExecutor`, without the ports that it calls: its model, its tools, its
boundary control and its recorder are what a Turn asks. -/
structure TurnExecutor where
  toolDispatch : ToolDispatchPolicy
  toolTimeout : Option ℕ
  policyEngine : Option PolicyEngine
  executionKey : Option ExecutionRef
  agentSnapshotDigest : Option String
  absoluteDeadlineAtMs : Option ℕ

/-- `ResumableTurn`. -/
inductive ResumableTurn where
  | completed (result : TurnResult)
  | suspended (suspension : TurnSuspension)

end Requests

section Observations

/-- `TurnEvent`. -/
inductive TurnEvent where
  | started (turnId : String)
  | stepStarted (turnId stepId : String)
  | stepCompleted (turnId : String) (step : StepResult)
  | toolCallRequested (turnId : String) (call : ToolCall)
  | toolExecutionStarted (turnId callId name : String)
  | toolResult (turnId : String) (result : ToolResult)
  | toolExecutionFailed (turnId callId name : String) (error : ToolError)
  | approvalRequested (turnId callId name : String)
  | toolAwaitingExternal (turnId callId : String) (wait : ExternalWait)
  | failed (turnId error : String)
  | cancelled (turnId : String)
  | timedOut (turnId : String)
  | completed (turnId : String) (outcome : TurnOutcome)

/-- `TurnBoundaryKind`. -/
inductive TurnBoundaryKind where
  | step (stepId : String)
  | tool (stepId callId : String)
  | awaitingApproval (approvalId : String)
  | resumeApproval (approvalId : String)
  | awaitingExternal (checkpointId : String) (waitIds : List String)
  | resumeCheckpoint (checkpointId : String)
  | terminal (reason : TurnEndReason)
  deriving DecidableEq

/-- `TurnBoundary`. -/
structure TurnBoundary where
  turnId : String
  kind : TurnBoundaryKind

/-- `terminal_event`. -/
def terminalEvent (turnId : String) : TurnError → TurnEvent
  | .cancelled | .tool .cancelled => .cancelled turnId
  | .timedOut | .tool .timedOut => .timedOut turnId
  | error => .failed turnId error.toString

end Observations

end Turn
end Kolyan
