/-
# Validation of task definitions, goals and identities

`crates/kolyan-server/src/tasks/reducer/validation.rs`, the identity helpers of
`reducer.rs` and the checks of `goals/types.rs`.  `sha256` is the digest of a
document's compact encoding, as lower-case hexadecimal (the `sha2` crate).
-/

import Kolyan.Tasks.Encoding

namespace Kolyan
namespace Tasks

open Checks Facts

/-- `identity`. -/
def identity (value : String) : Except TaskError Unit :=
  reject (trimEmpty value ∨ value.utf8ByteSize > 256) (.invalid "empty or oversized identity")

/-- `reference`: the coordinates of a record. -/
def reference (record : FactRecord) : FactRef :=
  ⟨record.streamId, record.position, record.draft.factId⟩

/-- `digest`. -/
def digest (value : String) : Except TaskError Unit :=
  reject (¬isHexDigest value) (.invalid "expected a SHA-256 hex digest")

/-- `agent`. -/
def agent (value : AgentIdentity) : Except TaskError Unit := do
  identity value.definitionId
  identity value.revision
  identity value.instanceId

/-- `reason`. -/
def reason (value : String) : Except TaskError Unit :=
  reject (trimEmpty value ∨ value.utf8ByteSize > 8192)
    (.invalid "empty or oversized reason/objective")

/-- `MAX_GOAL_PREDICATE_BYTES`. -/
def maxGoalPredicateBytes : ℕ := 64 * 1024

/-- `MAX_GOAL_PROOF_BYTES`. -/
def maxGoalProofBytes : ℕ := 64 * 1024

/-- `bounded_serialized_bytes`. -/
def boundedSerializedBytes (value : Value) (limit : ℕ) : Except TaskError ℕ := do
  reject (value.encodedLen > limit) (.invalid "goal payload exceeds byte ceiling")
  pure value.encodedLen

/-- `GoalCheckerKey::validate`. -/
def GoalCheckerKey.validate (key : GoalCheckerKey) : Except TaskError Unit := do
  identity key.kind
  identity key.revision

section Digests

variable (sha256 : Value → String)

/-- `goal_value_digest`. -/
def goalValueDigest (value : Value) (limit : ℕ) : Except TaskError String := do
  let _ ← boundedSerializedBytes value limit
  pure (sha256 value)

/-- `GoalCriterion::validate`. -/
def GoalCriterion.validate (goal : GoalCriterion) : Except TaskError Unit := do
  identity goal.id
  identity goal.invocationId
  goal.checker.validate
  let digest ← goalValueDigest sha256 goal.predicate maxGoalPredicateBytes
  reject (goal.predicateDigest ≠ digest) (.invalid "goal predicate digest differs")

/-- `GoalAssessment::digest`. -/
def GoalAssessment.digest (assessment : GoalAssessment) : Except TaskError String := do
  assessment.checker.validate
  identity assessment.criterionId
  reject (trimEmpty assessment.reason ∨ assessment.reason.utf8ByteSize > 8192)
    (.invalid "empty or oversized goal reason")
  let _ ← boundedSerializedBytes assessment.proof maxGoalProofBytes
  let _ ← boundedSerializedBytes assessment.toValue (128 * 1024)
  pure (sha256 assessment.toValue)

/-- `goal.validate()` of a goal criterion. -/
def CompletionCriterion.validateGoal : CompletionCriterion → Except TaskError Unit
  | goal g => g.validate sha256
  | _ => .ok ()

/-- The digest of an artifact criterion. -/
def CompletionCriterion.validateArtifact : CompletionCriterion → Except TaskError Unit
  | artifactDigest _ _ sha256 => Tasks.digest sha256
  | _ => .ok ()

/-- One criterion of `validate_definition`, after the criterion ids in `seen`. -/
def validateCriterion (seen : List String) (criterion : CompletionCriterion) :
    Except TaskError Unit := do
  criterion.validateGoal sha256
  identity criterion.id
  identity criterion.invocationId
  reject (criterion.id ∈ seen) (.invalid "duplicate criterion")
  criterion.validateArtifact

/-- The criteria in order, each after the ids before it. -/
def validateCriteria (seen : List String) : List CompletionCriterion → Except TaskError Unit
  | [] => .ok ()
  | criterion :: rest => do
      validateCriterion sha256 seen criterion
      validateCriteria (criterion.id :: seen) rest

/-- `validate_definition`. -/
def validateDefinition (definition : TaskDefinition) : Except TaskError Unit := do
  identity definition.taskId
  reason definition.objective
  agent definition.agent
  Tasks.digest definition.constraintsDigest
  reject (definition.criteria = [] ∨ definition.criteria.length > 128)
    (.invalid "criteria count must be 1..128")
  validateCriteria sha256 [] definition.criteria
  let limits := definition.limits
  reject (limits.maxInvocations = 0 ∨ limits.maxInvocations > 4096 ∨ limits.maxAttempts = 0 ∨
      limits.maxAttempts > 16384 ∨ limits.maxTokens = some 0 ∨ limits.maxDepth > 128 ∨
      limits.maxStepsPerTurn = 0)
    (.invalid "invalid bounded task limits")

end Digests

/-- `available_id`. -/
def availableId (state : TaskSnapshot) (id : String) : Except TaskError Unit := do
  identity id
  reject (id = state.definition.taskId ∨ id ∈ state.invocations ∨ id ∈ state.attempts ∨
      state.attempts.values.any fun attempt => attempt.binding.execution.executionId = id)
    (.invalid "task/invocation/attempt/execution identity collision")

end Tasks
end Kolyan
