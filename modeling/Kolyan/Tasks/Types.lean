/-
# Tasks: definitions, snapshots and events

`crates/kolyan-server/src/tasks/types.rs`, with the data of `budget.rs`,
`goals/types.rs` and `input.rs` that a snapshot or an event carries.

Maps keyed by an identity (`BTreeMap<String, _>`) are ordered maps of the
standard library, so that iteration is in key order as in the source.  Counters
(`u64`, `u32`) are natural numbers; where the source adds two of them with
`checked_add`, the reducer states the bound.
-/

import Kolyan.Facts.Journal

namespace Kolyan

/-- `BTreeMap<String, V>`. -/
abbrev BTreeMap (V : Type) := Std.ExtTreeMap String V

/-- `ExecutionRef`: the identity routed by the server (`ExecutionKey` in the
policy, runtime and core crates). -/
structure ExecutionRef where
  sessionId : String
  turnId : String
  executionId : String
  deriving DecidableEq

namespace Tasks

open Facts

/-- `AgentIdentity`. -/
structure AgentIdentity where
  definitionId : String
  revision : String
  instanceId : String
  deriving DecidableEq

/-- `TaskLimits`. -/
structure TaskLimits where
  maxDepth : ℕ
  maxInvocations : ℕ
  maxAttempts : ℕ
  maxTokens : Option ℕ
  maxStepsPerTurn : ℕ
  deriving DecidableEq

/-- `GoalCheckerKey`. -/
structure GoalCheckerKey where
  kind : String
  revision : String
  deriving DecidableEq

/-- `GoalCriterion`. -/
structure GoalCriterion where
  id : String
  invocationId : String
  checker : GoalCheckerKey
  predicate : Value
  predicateDigest : String
  deriving DecidableEq

/-- `GoalVerdict`. -/
inductive GoalVerdict where
  | satisfied | unsatisfied | indeterminate | checkerFailed
  deriving DecidableEq

/-- `CompletionCriterion`. -/
inductive CompletionCriterion where
  | goal (goal : GoalCriterion)
  | executionCompleted (id invocationId : String)
  | artifactDigest (id invocationId sha256 : String)
  deriving DecidableEq

namespace CompletionCriterion

/-- `CompletionCriterion::id`. -/
def id : CompletionCriterion → String
  | goal g => g.id
  | executionCompleted id _ | artifactDigest id _ _ => id

/-- `CompletionCriterion::invocation_id`. -/
def invocationId : CompletionCriterion → String
  | goal g => g.invocationId
  | executionCompleted _ invocationId | artifactDigest _ invocationId _ => invocationId

/-- `matches!(criterion, CompletionCriterion::Goal(_))`. -/
def isGoal : CompletionCriterion → Bool
  | goal _ => true
  | _ => false

end CompletionCriterion

/-- `CancellationPolicy`. -/
inductive CancellationPolicy where
  | allInvocations | rootOnly
  deriving DecidableEq

/-- `TaskDefinition`. -/
structure TaskDefinition where
  taskId : String
  objective : String
  criteria : List CompletionCriterion
  agent : AgentIdentity
  constraintsDigest : String
  limits : TaskLimits
  cancellationPolicy : CancellationPolicy
  deriving DecidableEq

/-- `InvocationRole`. -/
inductive InvocationRole where
  | root | selfCall | delegation | continuation
  deriving DecidableEq

/-- `InvocationInputKind`. -/
inductive InvocationInputKind where
  | standalone | derived
  deriving DecidableEq

/-- `InvocationInputSource`. -/
inductive InvocationInputSource where
  | standalone (fact : FactRef)
  | derived (fact : FactRef)
  deriving DecidableEq

namespace InvocationInputSource

/-- `InvocationInputSource::fact`. -/
def fact : InvocationInputSource → FactRef
  | standalone f | derived f => f

/-- `InvocationInputSource::kind`. -/
def kind : InvocationInputSource → InvocationInputKind
  | standalone _ => .standalone
  | derived _ => .derived

end InvocationInputSource

/-- `InvocationDefinition`. -/
structure InvocationDefinition where
  invocationId : String
  agent : AgentIdentity
  constraintsDigest : String
  role : InvocationRole
  parentInvocationId : Option String
  dependencies : List String
  inputSource : InvocationInputSource
  deriving DecidableEq

/-- `AttemptBinding`. -/
structure AttemptBinding where
  attemptId : String
  invocationId : String
  execution : ExecutionRef
  agent : AgentIdentity
  constraintsDigest : String
  inputSource : InvocationInputSource
  deriving DecidableEq

/-- `TaskUsage`. -/
structure TaskUsage where
  inputTokens : ℕ
  outputTokens : ℕ
  unreportedSteps : ℕ
  deriving DecidableEq

/-- `u64::MAX`. -/
def u64Max : ℕ := 2 ^ 64 - 1

/-- `u64::checked_add`. -/
def checkedAdd (a b : ℕ) : Option ℕ := if a + b ≤ u64Max then some (a + b) else none

/-- `TaskUsage::total`. -/
def TaskUsage.total (usage : TaskUsage) : Option ℕ := checkedAdd usage.inputTokens usage.outputTokens

/-- `ExecutionEvidence`. -/
structure ExecutionEvidence where
  execution : ExecutionRef
  eventId : String
  cursor : ℕ
  deriving DecidableEq

/-- `CompletionEvidence`. -/
inductive CompletionEvidence where
  | goalSatisfied (criterionId : String) (source : ExecutionEvidence) (assessment : FactRef)
      (assessmentDigest : String)
  | executionResult (criterionId : String) (source : ExecutionEvidence) (resultDigest : String)
  | verifiedArtifact (criterionId : String) (source : ExecutionEvidence) (sha256 : String)
      (byteLen : ℕ)
  deriving DecidableEq

namespace CompletionEvidence

/-- `CompletionEvidence::criterion_id`. -/
def criterionId : CompletionEvidence → String
  | goalSatisfied id _ _ _ | executionResult id _ _ | verifiedArtifact id _ _ _ => id

/-- `CompletionEvidence::source`. -/
def source : CompletionEvidence → ExecutionEvidence
  | goalSatisfied _ s _ _ | executionResult _ s _ | verifiedArtifact _ s _ _ => s

/-- `matches!(item, CompletionEvidence::GoalSatisfied { .. })`. -/
def isGoalSatisfied : CompletionEvidence → Bool
  | goalSatisfied .. => true
  | _ => false

end CompletionEvidence

/-- `TaskSuspension`. -/
structure TaskSuspension where
  checkpointId : String
  approvalIds : List String
  externalWaitIds : List String
  deriving DecidableEq

/-- `WaitingReason`. -/
inductive WaitingReason where
  | goalAssessment (criterionId invocationId : String)
  | goalUnmet (criterionId : String) (verdict : GoalVerdict) (reason : String)
  | suspension (waiting : TaskSuspension)
  | childResults (invocationIds : List String)
  | recovery (reason : String)

/-- `AttemptOutcome`. -/
inductive AttemptOutcome where
  | suspended (waiting : TaskSuspension)
  | completed (evidence : List CompletionEvidence)
  | failed (reason : String) (safeToRetry : Bool)
  | cancelled (reason : String)
  | recoveryRequired (reason : String)
  deriving DecidableEq

/-- `AttemptObservation`. -/
structure AttemptObservation where
  attemptId : String
  execution : ExecutionRef
  source : ExecutionEvidence
  usage : TaskUsage
  outcome : AttemptOutcome
  deriving DecidableEq

/-- `TaskState`. -/
inductive TaskState where
  | ready | active | waiting | recoveryRequired | completed | failed | cancelled
  deriving DecidableEq

/-- `TaskState::is_terminal`. -/
def TaskState.isTerminal : TaskState → Bool
  | completed | failed | cancelled => true
  | _ => false

/-- `InvocationState`. -/
inductive InvocationState where
  | admitted | running | suspended | completed | failed | cancelled | recoveryRequired
  deriving DecidableEq

/-- `AttemptSnapshot`. -/
structure AttemptSnapshot where
  binding : AttemptBinding
  state : InvocationState
  observation : Option AttemptObservation
  waiting : Option WaitingReason
  cancellationRequested : Bool
  retryAuthorized : Bool

/-- `ConsumedResult`. -/
structure ConsumedResult where
  childInvocationId : String
  completionFact : FactRef
  evidence : List CompletionEvidence
  deriving DecidableEq

/-- `TerminalResultDisposition`. -/
inductive TerminalResultDisposition where
  | completed (evidence : List CompletionEvidence)
  | failed (reason : String)
  | cancelled (reason : String)
  deriving DecidableEq

/-- `ConsumedTerminalResult`. -/
structure ConsumedTerminalResult where
  parent : AttemptBinding
  child : AttemptBinding
  terminalFact : FactRef
  source : ExecutionEvidence
  disposition : TerminalResultDisposition
  deriving DecidableEq

/-- `InvocationSnapshot`. -/
structure InvocationSnapshot where
  definition : InvocationDefinition
  state : InvocationState
  attempts : List String
  consumedResults : BTreeMap ConsumedResult
  terminalConsumedResults : BTreeMap ConsumedTerminalResult
  terminalFact : Option FactRef
  completionFact : Option FactRef
  cancellationRequested : Bool

/-- `GoalAssessment`. -/
structure GoalAssessment where
  criterionId : String
  predicateDigest : String
  checker : GoalCheckerKey
  attempt : AttemptBinding
  source : ExecutionEvidence
  verdict : GoalVerdict
  reason : String
  proof : Value
  deriving DecidableEq

/-- `GoalAssessmentRecord`. -/
structure GoalAssessmentRecord where
  assessment : GoalAssessment
  reference : FactRef
  assessmentDigest : String

/-- `TaskExecutionBudgetPolicy`. -/
structure TaskExecutionBudgetPolicy where
  id : String
  revision : String
  maxReservedSteps : ℕ
  deadlineAtMs : ℕ
  deriving DecidableEq

/-- `TaskStepReservation`. -/
structure TaskStepReservation where
  binding : AttemptBinding
  maxSteps : ℕ

/-- `TaskExecutionBudgetState`. -/
structure TaskExecutionBudgetState where
  policy : TaskExecutionBudgetPolicy
  policyReference : FactRef
  reservations : BTreeMap TaskStepReservation

/-- `TaskSnapshot`. -/
structure TaskSnapshot where
  executionBudget : Option TaskExecutionBudgetState
  goalAssessments : List GoalAssessmentRecord
  definition : TaskDefinition
  position : ℕ
  state : TaskState
  usage : TaskUsage
  invocations : BTreeMap InvocationSnapshot
  attempts : BTreeMap AttemptSnapshot
  waiting : List WaitingReason
  successEvidence : List CompletionEvidence

/-- `TaskError`.  `panicked` is not an error of the source: it is the model of
an `unwrap` or an index whose entry is missing, which unwinds the command. -/
inductive TaskError where
  | goalSource (message : String)
  | journal (error : FactError)
  | invalid (message : String)
  | notFound (taskId : String)
  | transition (message : String)
  | panicked
  deriving DecidableEq

/-- `TaskEvent`. -/
inductive TaskEvent where
  | executionBudgetConfigured (policy : TaskExecutionBudgetPolicy)
  | budgetedAttemptStarted (binding : AttemptBinding) (maxSteps : ℕ)
  | goalAssessed (assessment : GoalAssessment)
  | registered (definition : TaskDefinition)
  | invocationAdmitted (definition : InvocationDefinition)
  | dependencyAdmitted (invocationId dependencyId : String)
  | attemptStarted (binding : AttemptBinding)
  | attemptObserved (observation : AttemptObservation)
  | attemptResumed (binding : AttemptBinding) (checkpointId : String)
  | recoveryNeeded (attemptId reason : String)
  | retryAuthorized (attemptId : String) (source : ExecutionEvidence) (reason : String)
  | resultConsumed (invocationId : String) (result : ConsumedResult)
  | terminalResultConsumed (invocationId : String) (result : ConsumedTerminalResult)
  | completed (evidence : List CompletionEvidence)
  | cancelled (reason : String)
  | failed (reason : String)
  deriving DecidableEq

end Tasks
end Kolyan
