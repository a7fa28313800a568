/-
# The task reducer

`crates/kolyan-server/src/tasks/reducer.rs`, with `budget.rs` and
`reducer/completion.rs`: the execution budget, completion and cancellation of a
task, the recomputation of what it waits for, and `apply`, the one transition
function that command admission and replay share.
-/

import Kolyan.Tasks.Attempts

namespace Kolyan
namespace Tasks

open Checks Facts

/-- `TaskExecutionBudgetPolicy::validate`. -/
def TaskExecutionBudgetPolicy.validate (policy : TaskExecutionBudgetPolicy) :
    Except TaskError Unit := do
  identity policy.id
  identity policy.revision
  reject (policy.maxReservedSteps = 0 ∨ policy.deadlineAtMs = 0)
    (.invalid "execution budget needs positive Steps and absolute cutoff")

/-- The checked sum of the reserved steps. -/
def reservedSteps (sum : ℕ) : List TaskStepReservation → Except TaskError ℕ
  | [] => .ok sum
  | slot :: rest => do
      let sum ← expect (checkedAdd sum slot.maxSteps) (.invalid "Step reservation overflow")
      reservedSteps sum rest

/-- `TaskExecutionBudgetState::remaining_steps`. -/
def TaskExecutionBudgetState.remainingSteps (budget : TaskExecutionBudgetState) :
    Except TaskError ℕ := do
  budget.policy.validate
  let reserved ← reservedSteps 0 budget.reservations.values
  reject (budget.policy.maxReservedSteps < reserved)
    (.invalid "Step reservations exceed configured budget")
  pure (budget.policy.maxReservedSteps - reserved)

/-- `configure`. -/
def configure (state : TaskSnapshot) (policy : TaskExecutionBudgetPolicy) (record : FactRecord) :
    Except TaskError TaskSnapshot := do
  policy.validate
  reject (state.executionBudget.isSome ∨ ¬state.attempts.isEmpty)
    (.transition "execution budget already configured or work already started")
  pure { state with executionBudget := some ⟨policy, reference record, ∅⟩ }

/-- `reserve`. -/
def reserve (state : TaskSnapshot) (binding : AttemptBinding) (maxSteps : ℕ) (record : FactRecord) :
    Except TaskError TaskSnapshot := do
  let budget ← expect state.executionBudget
    (.transition "budgeted start requires configured execution budget")
  reject (maxSteps = 0 ∨ maxSteps > state.definition.limits.maxStepsPerTurn)
    (.transition "invalid, duplicate or exhausted Step reservation")
  let remaining ← budget.remainingSteps
  reject (maxSteps > remaining ∨ budget.reservations.contains binding.attemptId ∨
      budget.policyReference ∉ record.draft.causes)
    (.transition "invalid, duplicate or exhausted Step reservation")
  pure { state with
    executionBudget := some { budget with
      reservations := budget.reservations.insert binding.attemptId ⟨binding, maxSteps⟩ } }

/-- The evidence `complete` may cite: what completed attempts reported, then
the satisfied goals. -/
def availableEvidence (state : TaskSnapshot) : List CompletionEvidence :=
  (state.attempts.values.flatMap fun attempt => attempt.completedEvidence.getD []) ++
    (state.goalAssessments.filter (·.assessment.verdict = .satisfied)).map fun record =>
      .goalSatisfied record.assessment.criterionId record.assessment.source record.reference
        record.assessmentDigest

/-- `complete`. -/
def complete (state : TaskSnapshot) (evidence : List CompletionEvidence) :
    Except TaskError TaskSnapshot := do
  let root ← expect (state.invocations.values.find? fun inv => inv.definition.role = .root)
    (.transition "missing root invocation")
  reject (root.state ≠ .completed ∨ state.invocations.values.any fun inv => inv.state ≠ .completed)
    (.transition "all admitted invocations must complete before task success")
  let ids := (evidence.map (·.criterionId)).dedup
  reject (ids.length ≠ evidence.length ∨ ids.length ≠ state.definition.criteria.length ∨
      (state.definition.criteria.any fun criterion => criterion.id ∉ ids) ∨
      evidence.any fun item => item ∉ availableEvidence state)
    (.invalid "completion needs previously observed evidence for every criterion")
  pure { state with successEvidence := evidence, state := .completed }

/-- The invocations a cancellation selects. -/
def cancelSelects (state : TaskSnapshot) (inv : InvocationSnapshot) : Bool :=
  state.definition.cancellationPolicy = .allInvocations || inv.definition.role = .root

/-- A selected invocation after the cancellation request. -/
def InvocationSnapshot.cancelled (inv : InvocationSnapshot) : InvocationSnapshot :=
  { inv with
    cancellationRequested := true
    state := if inv.state = .admitted then .cancelled else inv.state }

/-- `cancel`. -/
def cancel (state : TaskSnapshot) (why : String) : Except TaskError TaskSnapshot := do
  reason why
  let selected := state.invocations.values.filter (cancelSelects state)
  let requested := selected.flatMap (·.attempts)
  reject (requested.any fun id => id ∉ state.attempts) .panicked
  pure { state with
    invocations := state.invocations.map fun _ inv =>
      if cancelSelects state inv then inv.cancelled else inv
    attempts := state.attempts.map fun id attempt =>
      if id ∈ requested then { attempt with cancellationRequested := true } else attempt
    state := .cancelled }

/-- `RecoveryNeeded` in `apply`. -/
def recover (state : TaskSnapshot) (attemptId why : String) : Except TaskError TaskSnapshot := do
  reason why
  let attempt ← expect state.attempts[attemptId]? (.transition "unknown attempt")
  reject (¬(attempt.state = .running ∨ attempt.state = .suspended ∨
      attempt.state = .recoveryRequired))
    (.transition "only running or waiting attempts can require recovery")
  let inv ← expect state.invocations[attempt.binding.invocationId]? .panicked
  pure { state with
    attempts := state.attempts.insert attemptId
      { attempt with state := .recoveryRequired, waiting := some (.recovery why) }
    invocations := state.invocations.insert attempt.binding.invocationId
      { inv with state := .recoveryRequired } }

/-- The results an invocation has still to consume, when there are any. -/
def pendingResults (invocations : BTreeMap InvocationSnapshot)
    (entry : String × InvocationSnapshot) : Option WaitingReason :=
  let pending := (requiredResults invocations entry.1).toList.filter fun child =>
    !hasConsumed entry.2 child
  if pending = [] then none else some (.childResults pending)

/-- The first half of `refresh`: suspended attempts, then pending results. -/
def refreshWaiting (state : TaskSnapshot) : TaskSnapshot :=
  { state with
    waiting := state.attempts.values.filterMap (·.waiting) ++
      state.invocations.toList.filterMap (pendingResults state.invocations) }

/-- The state of an open task; a terminal one keeps its own. -/
def nextTaskState (state : TaskSnapshot) : TaskState :=
  if state.state.isTerminal then state.state
  else if state.invocations.values.any (·.state = .recoveryRequired) then .recoveryRequired
  else if state.invocations.values.any (·.state = .running) then .active
  else if state.waiting ≠ [] then .waiting
  else .ready

/-- The second half of `refresh`. -/
def refreshState (state : TaskSnapshot) : TaskSnapshot := { state with state := nextTaskState state }

/-- `refresh`. -/
def refresh (state : TaskSnapshot) : TaskSnapshot := refreshState (refreshGoals (refreshWaiting state))

/-- The snapshot a registration starts from. -/
def TaskSnapshot.registered (definition : TaskDefinition) (position : ℕ) : TaskSnapshot where
  definition := definition
  position := position
  state := .ready
  usage := ⟨0, 0, 0⟩
  invocations := ∅
  attempts := ∅
  waiting := []
  successEvidence := []
  goalAssessments := []
  executionBudget := none

/-- A resumption the root-only cancellation of a task leaves open. -/
def detachedResume (state : TaskSnapshot) : TaskEvent → Bool
  | .attemptResumed binding _ =>
      state.state = .cancelled && state.definition.cancellationPolicy = .rootOnly &&
        (state.invocations[binding.invocationId]?).any fun inv => inv.definition.role ≠ .root
  | _ => false

/-- What a terminal task still accepts. -/
def stoppedObservation : TaskEvent → Bool
  | .attemptObserved _ | .recoveryNeeded _ _ => true
  | _ => false

section Digests

variable (sha256 : Value → String)

/-- The arms of `apply` for an event of a registered task. -/
def transition (state : TaskSnapshot) (record : FactRecord) :
    TaskEvent → Except TaskError TaskSnapshot
  | .executionBudgetConfigured policy => configure state policy record
  | .budgetedAttemptStarted binding maxSteps => do
      let state ← reserve state binding maxSteps record
      start state binding
  | .goalAssessed assessment => applyAssessment sha256 state assessment record
  | .invocationAdmitted definition => admitInvocation state definition
  | .dependencyAdmitted invocationId dependencyId => addDependency state invocationId dependencyId
  | .attemptStarted binding => do
      reject state.executionBudget.isSome
        (.transition "configured Task requires atomic budgeted start")
      start state binding
  | .attemptObserved observation => observe state observation record
  | .attemptResumed binding checkpointId => resume state binding checkpointId
  | .recoveryNeeded attemptId why => recover state attemptId why
  | .retryAuthorized attemptId source why => authorizeRetry state attemptId source why
  | .resultConsumed invocationId result => consume state invocationId result record
  | .terminalResultConsumed invocationId result => consumeTerminal state invocationId result record
  | .completed evidence => complete state evidence
  | .cancelled why => cancel state why
  | .failed why => do
      reason why
      pure { state with state := .failed }
  | .registered _ => .error .panicked

/-- `apply`: the snapshot after one event, at the position of its record. -/
def apply (snapshot : Option TaskSnapshot) (event : TaskEvent) (record : FactRecord) :
    Except TaskError TaskSnapshot :=
  match event, snapshot with
  | .registered _, some _ => .error (.transition "task already registered")
  | .registered definition, none => do
      validateDefinition sha256 definition
      pure (.registered definition record.position)
  | _, none => .error (.transition "missing task registration")
  | event, some state => do
      reject (state.state.isTerminal ∧ ¬detachedResume state event ∧ ¬stoppedObservation event)
        (.transition "task is terminal")
      let state ← transition sha256 state record event
      pure (refresh { state with position := record.position })

end Digests

def sampleTask : TaskDefinition where
  taskId := "task"
  objective := "demonstrate"
  criteria := [.executionCompleted "done" "root"]
  agent := ⟨"agent", "r1", "i1"⟩
  constraintsDigest := "00000000000000000000000000000000ffffffffffffffffffffffffffffffff"
  limits := ⟨3, 8, 8, none, 4⟩
  cancellationPolicy := .allInvocations

example : (apply (fun _ => "") none (.registered sampleTask)
    ⟨"task", 1, ⟨"f", ⟨"task.task", "task"⟩, "task.registered", 1, true, [], .null⟩⟩).toBool = true := by
  decide

end Tasks
end Kolyan
