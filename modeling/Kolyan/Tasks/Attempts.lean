/-
# Attempt transitions

`crates/kolyan-server/src/tasks/reducer/attempts.rs`: start, observation,
resumption and retry authorization of one attempt.
-/

import Kolyan.Tasks.Topology

namespace Kolyan
namespace Tasks

open Checks Facts

/-- `safe_to_retry` in a failed observation. -/
def AttemptSnapshot.failedSafely (attempt : AttemptSnapshot) : Bool :=
  attempt.observation.any fun observation =>
    match observation.outcome with
    | .failed _ safeToRetry => safeToRetry
    | _ => false

/-- No token is left, or what was used is not known. -/
def tokensExhausted (state : TaskSnapshot) : Bool :=
  state.definition.limits.maxTokens.any fun limit =>
    state.usage.unreportedSteps > 0 || state.usage.total.all fun total => total ≥ limit

/-- A freshly started attempt. -/
def AttemptSnapshot.started (binding : AttemptBinding) : AttemptSnapshot where
  binding := binding
  state := .running
  observation := none
  waiting := none
  cancellationRequested := false
  retryAuthorized := false

/-- The states an attempt may start from. -/
def checkStartable (state : TaskSnapshot) (inv : InvocationSnapshot) : Except TaskError Unit :=
  match inv.state with
  | .admitted => .ok ()
  | .failed =>
      reject (¬(inv.attempts.getLast?.bind fun id => state.attempts[id]?).any fun attempt =>
          attempt.retryAuthorized || attempt.failedSafely)
        (.transition "no explicit safe-retry evidence")
  | _ => .error (.transition "invocation is not startable")

/-- `start`. -/
def start (state : TaskSnapshot) (binding : AttemptBinding) : Except TaskError TaskSnapshot := do
  availableId state binding.attemptId
  availableId state binding.execution.executionId
  reject (binding.attemptId = binding.execution.executionId)
    (.invalid "attempt and execution must be distinct")
  identity binding.execution.sessionId
  identity binding.execution.turnId
  let inv ← expect state.invocations[binding.invocationId]? (.invalid "unknown invocation")
  reject (inv.definition.agent ≠ binding.agent ∨
      inv.definition.constraintsDigest ≠ binding.constraintsDigest ∨
      inv.definition.inputSource ≠ binding.inputSource)
    (.transition "changed revision/instance/constraints require new admission")
  reject (state.attempts.size ≥ state.definition.limits.maxAttempts ∨ tokensExhausted state)
    (.transition "shared attempt/token budget exhausted")
  checkStartable state inv
  reject (inv.definition.dependencies.any fun id => !hasConsumed inv id)
    (.transition "dependencies require explicit result consumption before execution")
  pure { state with
    invocations := state.invocations.insert binding.invocationId
      { inv with
        state := .running, terminalFact := none, attempts := inv.attempts ++ [binding.attemptId] }
    attempts := state.attempts.insert binding.attemptId (.started binding) }

/-- `validate_source`. -/
def validateSource (source : ExecutionEvidence) (binding : AttemptBinding) :
    Except TaskError Unit := do
  identity source.eventId
  reject (source.cursor = 0 ∨ source.execution ≠ binding.execution)
    (.invalid "evidence is not bound to the admitted execution")

/-- The cursor of the last observation, `0` before the first. -/
def AttemptSnapshot.cursor (attempt : AttemptSnapshot) : ℕ :=
  attempt.observation.elim 0 (·.source.cursor)

/-- `Failed | RecoveryRequired`. -/
def InvocationState.isStopped : InvocationState → Bool
  | failed | recoveryRequired => true
  | _ => false

/-- `authorize_retry`. -/
def authorizeRetry (state : TaskSnapshot) (attemptId : String) (source : ExecutionEvidence)
    (why : String) : Except TaskError TaskSnapshot := do
  reason why
  let attempt ← expect state.attempts[attemptId]? (.invalid "unknown retry attempt")
  validateSource source attempt.binding
  let invocation ← expect state.invocations[attempt.binding.invocationId]? .panicked
  reject (¬attempt.state.isStopped ∨ attempt.cancellationRequested ∨
      invocation.cancellationRequested ∨ attempt.retryAuthorized ∨
      invocation.attempts.getLast? ≠ some attemptId ∨
      ¬invocation.state.isStopped ∨
      source.cursor ≤ attempt.cursor)
    (.transition
      "retry requires the latest stopped attempt and advancing reconciliation evidence")
  pure { state with
    attempts := state.attempts.insert attemptId
      { attempt with retryAuthorized := true, state := .failed, waiting := none }
    invocations := state.invocations.insert attempt.binding.invocationId
      { invocation with state := .failed } }

/-- One item of `validate_evidence`, after the criterion ids in `seen`. -/
def validateEvidenceItem (state : TaskSnapshot) (binding : AttemptBinding) (seen : List String)
    (item : CompletionEvidence) : Except TaskError Unit := do
  reject item.isGoalSatisfied (.invalid "GoalSatisfied is not physical attempt evidence")
  validateSource item.source binding
  reject (item.criterionId ∈ seen) (.invalid "duplicate criterion evidence")
  let criterion ← expect
    (state.definition.criteria.find? fun criterion => criterion.id = item.criterionId)
    (.invalid "unknown completion criterion")
  reject (criterion.invocationId ≠ binding.invocationId)
    (.invalid "criterion belongs to a different invocation")
  match criterion, item with
  | .executionCompleted _ _, .executionResult _ _ resultDigest => digest resultDigest
  | .artifactDigest _ _ expected, .verifiedArtifact _ _ sha256 _ =>
      if sha256 = expected then digest sha256
      else .error (.invalid "criterion evidence type/digest mismatch")
  | _, _ => .error (.invalid "criterion evidence type/digest mismatch")

/-- The items of `validate_evidence` in order. -/
def validateEvidenceItems (state : TaskSnapshot) (binding : AttemptBinding) (seen : List String) :
    List CompletionEvidence → Except TaskError Unit
  | [] => .ok ()
  | item :: rest => do
      validateEvidenceItem state binding seen item
      validateEvidenceItems state binding (item.criterionId :: seen) rest

/-- `validate_evidence`. -/
def validateEvidence (state : TaskSnapshot) (evidence : List CompletionEvidence)
    (binding : AttemptBinding) : Except TaskError Unit := do
  reject (evidence.length > 128) (.invalid "too much completion evidence")
  validateEvidenceItems state binding [] evidence

/-- The coordinates of one kind of wait: identities, each once. -/
def validateCoordinates (seen : List String) : List String → Except TaskError Unit
  | [] => .ok ()
  | id :: rest => do
      identity id
      reject (id ∈ seen) (.invalid "duplicate suspension coordinate")
      validateCoordinates (id :: seen) rest

/-- `validate_waiting`. -/
def validateWaiting (waiting : TaskSuspension) : Except TaskError Unit := do
  identity waiting.checkpointId
  reject (waiting.approvalIds = [] ∧ waiting.externalWaitIds = [])
    (.invalid "suspension has no pending waits")
  validateCoordinates [] waiting.approvalIds
  validateCoordinates [] waiting.externalWaitIds

/-- A partial merge keeps the checkpoint and introduces no waits. -/
def checkPartialMerge (attempt : AttemptSnapshot) (outcome : AttemptOutcome) :
    Except TaskError Unit :=
  match attempt.state, outcome, attempt.waiting with
  | .suspended, .suspended waiting, some (.suspension previous) =>
      reject (waiting.checkpointId ≠ previous.checkpointId ∨
          (waiting.approvalIds.any fun id => id ∉ previous.approvalIds) ∨
          waiting.externalWaitIds.any fun id => id ∉ previous.externalWaitIds)
        (.transition "partial merge cannot replace checkpoint or introduce waits")
  | .suspended, .suspended _, _ => .error (.invalid "suspended attempt lacks checkpoint coordinates")
  | _, _, _ => .ok ()

/-- The state an outcome leaves the attempt in, with the checks of each outcome. -/
def nextState (state : TaskSnapshot) (attempt : AttemptSnapshot)
    (observation : AttemptObservation) : Except TaskError InvocationState :=
  match observation.outcome with
  | .completed evidence => do
      validateEvidence state evidence attempt.binding
      reject (evidence.any fun item => item.source.cursor > observation.source.cursor)
        (.invalid "completion evidence is ahead of the observed execution")
      let inv ← expect state.invocations[attempt.binding.invocationId]? .panicked
      reject ((requiredResults state.invocations attempt.binding.invocationId).toList.any fun id =>
          !hasConsumed inv id)
        (.transition "child results must be consumed before parent completion")
      pure .completed
  | .suspended waiting => do
      validateWaiting waiting
      pure .suspended
  | .failed why _ => do
      reason why
      pure .failed
  | .cancelled why => do
      reason why
      pure .cancelled
  | .recoveryRequired why => do
      reason why
      pure .recoveryRequired

/-- The usage after an observation. -/
def addUsage (usage more : TaskUsage) : Except TaskError TaskUsage := do
  let inputTokens ← expect (checkedAdd usage.inputTokens more.inputTokens) (.invalid "usage overflow")
  let outputTokens ← expect (checkedAdd usage.outputTokens more.outputTokens)
    (.invalid "usage overflow")
  let unreportedSteps ← expect (checkedAdd usage.unreportedSteps more.unreportedSteps)
    (.invalid "usage overflow")
  pure ⟨inputTokens, outputTokens, unreportedSteps⟩

/-- What an attempt waits for after an outcome. -/
def AttemptOutcome.waiting : AttemptOutcome → Option WaitingReason
  | suspended waiting => some (.suspension waiting)
  | recoveryRequired reason => some (.recovery reason)
  | _ => none

/-- `observe`. -/
def observe (state : TaskSnapshot) (observation : AttemptObservation) (record : FactRecord) :
    Except TaskError TaskSnapshot := do
  let attempt ← expect state.attempts[observation.attemptId]? (.invalid "unknown attempt")
  reject (¬(attempt.state = .running ∨ attempt.state = .recoveryRequired ∨
      attempt.state = .suspended))
    (.transition "attempt already stopped; retry exact fact identity instead")
  reject (observation.execution ≠ attempt.binding.execution)
    (.invalid "observation execution mismatch")
  validateSource observation.source attempt.binding
  -- every outcome but a completion may end a suspended attempt
  reject (attempt.state = .suspended ∧ observation.outcome.isCompleted)
    (.transition "suspension must be explicitly resumed before execution completion")
  checkPartialMerge attempt observation.outcome
  reject (attempt.observation.any fun previous =>
      observation.source.cursor ≤ previous.source.cursor)
    (.transition "observation must advance durable execution evidence")
  let next ← nextState state attempt observation
  let usage ← addUsage state.usage observation.usage
  let total ← expect usage.total (.invalid "usage overflow")
  let inv ← expect state.invocations[attempt.binding.invocationId]? .panicked
  let terminalFact := if next.isTerminal then some (reference record) else inv.terminalFact
  let completionFact := if next = .completed then some (reference record) else inv.completionFact
  -- actual overspend is recorded, and fails a task that is still open
  let overspent := (state.definition.limits.maxTokens.any fun limit =>
    total > limit || usage.unreportedSteps > 0) && !state.state.isTerminal
  pure { state with
    usage := usage
    attempts := state.attempts.insert observation.attemptId
      { attempt with
        state := next, waiting := observation.outcome.waiting, observation := some observation }
    invocations := state.invocations.insert attempt.binding.invocationId
      { inv with state := next, terminalFact := terminalFact, completionFact := completionFact }
    state := if overspent then .failed else state.state }

/-- The attempt waits at a checkpoint. -/
def AttemptSnapshot.waitsAt (attempt : AttemptSnapshot) (checkpointId : String) : Bool :=
  match attempt.waiting with
  | some (.suspension waiting) => waiting.checkpointId = checkpointId
  | _ => false

/-- `resume`. -/
def resume (state : TaskSnapshot) (binding : AttemptBinding) (checkpointId : String) :
    Except TaskError TaskSnapshot := do
  identity checkpointId
  reject (tokensExhausted state)
    (.transition "shared token budget cannot admit checkpoint resumption")
  let attempt ← expect state.attempts[binding.attemptId]? (.invalid "unknown attempt")
  reject (attempt.binding ≠ binding ∨ attempt.state ≠ .suspended ∨
      ¬attempt.waitsAt checkpointId ∨ attempt.cancellationRequested)
    (.transition "checkpoint/binding/revision/constraints mismatch or cancelled")
  let inv ← expect state.invocations[binding.invocationId]? .panicked
  pure { state with
    attempts := state.attempts.insert binding.attemptId
      { attempt with state := .running, waiting := none }
    invocations := state.invocations.insert binding.invocationId { inv with state := .running } }

end Tasks
end Kolyan
