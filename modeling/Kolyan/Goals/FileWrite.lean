/-
# The goal that a file was written

`kolyan-agent/src/goals`: a goal may say that a file write of a given content was
committed to a given place.  `FileWriteCommittedChecker` judges it from the effects of
a verified source, none of which it executes or trusts by name: it counts those of
another tool or revision as unrelated, checks every other one against its own
preparation, and takes the first that wrote what the goal says as its witness.

A source comes from one reader, which has verified its effects one by one; what it
promises of them are the fields of `VerifiedGoalSource`.  The texts of serde's errors
are left out.
-/

import Kolyan.Driver.Evidence
import Kolyan.Tasks.Validation
import Kolyan.Tools.Receipts

namespace Kolyan
namespace Goals

open Paths Checks Policy Tasks Tools

section Predicates

/-- `FileWriteCommittedPredicateV1`. -/
structure FileWriteCommittedPredicateV1 where
  schemaVersion : ℕ
  toolRevision : String
  workspace : ExactDirectoryBinding
  parent : ExactDirectoryBinding
  leaf : Name
  expectedBytes : ℕ
  expectedSha256 : String
  deriving DecidableEq

/-- `bad`. -/
def bad (message : String) : TaskError := .invalid message

/-- `revision`. -/
def revision (value : String) : Except TaskError Unit :=
  reject (trimEmpty value ∨ value.utf8ByteSize > 1024) (bad "file adapter revision must be 1..1024 bytes")

/-- `physical`. -/
def physical (path : List Name) : Except TaskError Unit :=
  reject ((∃ name ∈ path, Char.ofNat 0 ∈ name) ∨ path.length + 1 > 128 ∨ ¬∀ name ∈ path, Proper name)
    (bad "physical path is not a bounded normalized absolute path")

/-- One directory of `directories`. -/
def directory (binding : ExactDirectoryBinding) : Except TaskError Unit := do
  physical binding.physicalPath
  reject (binding.identityChain.length ≠ binding.physicalPath.length + 1)
    (bad "physical directory identity chain length differs")

/-- `directories`. -/
def directories (workspace parent : ExactDirectoryBinding) : Except TaskError Unit := do
  forEach directory [workspace, parent]
  reject (workspace.physicalPath = [] ∨ ¬workspace.physicalPath <+: parent.physicalPath ∨
      ¬workspace.identityChain <+: parent.identityChain)
    (bad "parent does not retain workspace path and identity prefix")

/-- `leaf`. -/
def leaf (name : Name) : Except TaskError Unit :=
  reject (Char.ofNat 0 ∈ name ∨ ¬Proper name) (bad "leaf must be one ordinary UTF-8 filename")

/-- `FileWriteCommittedPredicateV1::validate`. -/
def FileWriteCommittedPredicateV1.validate (p : FileWriteCommittedPredicateV1) : Except TaskError Unit := do
  reject (p.schemaVersion ≠ 1 ∨ ¬canonicalSha256 p.expectedSha256) (bad "unsupported file goal schema or invalid SHA-256")
  revision p.toolRevision
  directories p.workspace p.parent
  Goals.leaf p.leaf

end Predicates

section Sources

/-- `GoalSourceCoverage`. -/
inductive GoalSourceCoverage where
  | complete | exhausted | uncertain
  deriving DecidableEq

/-- `GoalSourceCoverage`. -/
def GoalSourceCoverage.toValue : GoalSourceCoverage → Value
  | complete => .string "Complete"
  | exhausted => .string "Exhausted"
  | uncertain => .string "Uncertain"

/-- `EffectProofCoordinate`. -/
structure EffectProofCoordinate where
  eventId : String
  cursor : ℕ

/-- A coordinate of a decision's proof. -/
def EffectProofCoordinate.toValue (c : EffectProofCoordinate) : Value :=
  .object [("event_id", .string c.eventId), ("cursor", .nat c.cursor)]

/-- `EffectProofSources`. -/
structure EffectProofSources where
  admission : EffectProofCoordinate
  prepared : EffectProofCoordinate
  authorized : EffectProofCoordinate
  started : EffectProofCoordinate
  receipt : EffectProofCoordinate
  terminal : EffectProofCoordinate

/-- `VerifiedEffectProof`. -/
structure VerifiedEffectProof where
  prepared : PreparedCall
  scope : ToolExecutionScope
  result : Except Turn.ToolError ToolResult
  status : Driver.ReceiptStatus
  sources : EffectProofSources

/-- `VerifiedGoalSource`, as far as a checker of effects reads it.  The reader compares
the scope of each effect with the attempt and refuses a second start of one effect,
whose receipt has an id of its own. -/
structure VerifiedGoalSource where
  binding : AttemptBinding
  coverage : GoalSourceCoverage
  effects : List VerifiedEffectProof
  through : ℕ
  inScope : ∀ effect ∈ effects, effect.scope.execution = binding.execution ∧
    effect.scope.agentSnapshotDigest = some binding.constraintsDigest
  receipts : (effects.map fun effect => effect.sources.receipt.eventId).Nodup

end Sources

section Checker

/-- `FileWriteCommittedChecker`. -/
structure FileWriteCommittedChecker where
  key : GoalCheckerKey
  trustedToolRevisions : List String

/-- `ComputedGoalDecision`. -/
structure ComputedGoalDecision where
  verdict : GoalVerdict
  reason : String
  proof : Value
  deriving DecidableEq

/-- What a checker hashes and what serde reads for it. -/
structure GoalCodec extends FileCodec where
  sha256 : Value → String
  predicate : Value → Except String FileWriteCommittedPredicateV1

variable (codec : GoalCodec) (checker : FileWriteCommittedChecker)

/-- `FileWriteCommittedChecker::predicate`. -/
def FileWriteCommittedChecker.predicate (criterion : GoalCriterion) : Except TaskError FileWriteCommittedPredicateV1 := do
  criterion.validate codec.sha256
  reject (criterion.checker ≠ checker.key) (bad "file checker key differs")
  let predicate ← mapError bad (codec.predicate criterion.predicate)
  predicate.validate
  reject (predicate.toolRevision ∉ checker.trustedToolRevisions) (bad "file goal adapter revision is not trusted")
  return predicate

/-- `GoalChecker::validate_predicate`. -/
def FileWriteCommittedChecker.validatePredicate (criterion : GoalCriterion) : Except TaskError Unit := do
  let _ ← checker.predicate codec criterion

/-- The claim and the path of a write, in `match_write`. -/
def checkClaim (prepared : PreparedCall) (binding : ExactFileBinding) (path : String) : Except TaskError Unit := do
  directories binding.workspace binding.parent
  leaf binding.leaf
  forEach (fun root => do
    physical root
    reject (root <+: binding.target ∨ root <+: binding.workspace.physicalPath)
      (bad "historical file binding overlaps protected root")) binding.protectedRoots
  reject (prepared.claim.capabilities ≠ [.filesystemWrite] ∨ prepared.claim.effects ≠ [.create, .update] ∨
      prepared.claim.idempotency ≠ .nonIdempotent ∨
      prepared.claim.resource.path ≠ some (physicalText binding.target) ∨ ¬prepared.requirements.processSandbox)
    (bad "historical write claim/resource/sandbox differs")
  reject (path.toList.head? = some '/' ∨ Char.ofNat 0 ∈ path.toList ∨ components path.toList = [] ∨
      (components path.toList).any fun
        | .normal _ => false
        | _ => true)
    (bad "historical write model path is not workspace-relative")

/-- The result of a write, in `match_write`: whether there is one without an error. -/
def checkResult (prepared : PreparedCall) (path content : String) :
    Except Turn.ToolError ToolResult → Except TaskError Bool
  | .error _ => .ok false
  | .ok result => do
      reject (result.callId ≠ prepared.call.id) (bad "write result call ID differs")
      if result.isError then return false
      else do
        let receipt ← mapError bad (codec.result result.content)
        reject (receipt.path ≠ path ∨ receipt.content.isSome ∨ ¬canonicalSha256 receipt.sha256 ∨
            receipt.bytes ≠ content.utf8ByteSize ∨ receipt.sha256 ≠ codec.contentSha256 content)
          (bad "historical write result does not match prepared content")
        return true

/-- `target_matches`, in `match_write`. -/
def targetMatches (predicate : FileWriteCommittedPredicateV1) (binding : ExactFileBinding) (content : String) : Bool :=
  predicate.workspace = binding.workspace && predicate.parent = binding.parent && predicate.leaf = binding.leaf &&
    predicate.expectedBytes = content.utf8ByteSize && predicate.expectedSha256 = codec.contentSha256 content

/-- `match_write`. -/
def matchWrite (predicate : FileWriteCommittedPredicateV1) (effect : VerifiedEffectProof) : Except TaskError Bool := do
  let operation ← mapError bad (codec.operation effect.prepared.call)
  match operation with
  | .write path content => do
      let binding ← expect (ExactFileBinding.ofValue effect.prepared.executionBinding) (bad "invalid file binding")
      checkClaim effect.prepared binding path
      let written ← checkResult codec effect.prepared path content effect.result
      return written && targetMatches codec predicate binding content
  | _ => .error (bad "write witness operation differs")

/-- What the loop of `assess` has found. -/
structure Tally where
  witnesses : List VerifiedEffectProof
  failed : ℕ
  unrelated : ℕ
  mismatched : ℕ

/-- An effect that the predicate is about. -/
def related (predicate : FileWriteCommittedPredicateV1) (effect : VerifiedEffectProof) : Bool :=
  effect.prepared.call.name = "file.write" && effect.prepared.toolRevision = predicate.toolRevision

/-- A completed receipt of a result without an error. -/
def VerifiedEffectProof.completed (effect : VerifiedEffectProof) : Bool :=
  effect.status = .completed && match effect.result with
    | .ok result => !result.isError
    | .error _ => false

/-- One effect, in the loop of `assess`. -/
def tallyEffect (predicate : FileWriteCommittedPredicateV1) (binding : AttemptBinding) (tally : Tally)
    (effect : VerifiedEffectProof) : Except TaskError Tally := do
  reject (effect.scope.execution.sessionId ≠ binding.execution.sessionId ∨
      effect.scope.execution.turnId ≠ binding.execution.turnId ∨
      effect.scope.execution.executionId ≠ binding.execution.executionId ∨
      effect.scope.agentSnapshotDigest ≠ some binding.constraintsDigest)
    (bad "file witness scope differs from source binding")
  if related predicate effect then do
    let found ← matchWrite codec predicate effect
    return (
      if ¬effect.completed then { tally with failed := tally.failed + 1 }
      else if found then { tally with witnesses := tally.witnesses ++ [effect] }
      else { tally with mismatched := tally.mismatched + 1 })
  else return { tally with unrelated := tally.unrelated + 1 }

/-- The order of witnesses: by the coordinate of the receipt. -/
def receiptLe (a b : VerifiedEffectProof) : Bool :=
  a.sources.receipt.cursor < b.sources.receipt.cursor ||
    (a.sources.receipt.cursor = b.sources.receipt.cursor && a.sources.receipt.eventId ≤ b.sources.receipt.eventId)

/-- The proof of a witness. -/
def witnessProof (predicate : FileWriteCommittedPredicateV1) (witness : VerifiedEffectProof) (result : ToolResult) : Value :=
  let s := witness.sources
  .object [("schema_version", .nat 1),
    ("coordinates", .list EffectProofCoordinate.toValue
      [s.admission, s.prepared, s.authorized, s.started, s.receipt, s.terminal]),
    ("prepared_digest", .string witness.prepared.digest),
    ("tool_result_digest", .string (codec.sha256 result.toValue)),
    ("bytes", .nat predicate.expectedBytes), ("sha256", .string predicate.expectedSha256)]

/-- The decision over what the loop of `assess` has found. -/
def verdictOf (predicate : FileWriteCommittedPredicateV1) (source : VerifiedGoalSource) (tally : Tally) :
    Except TaskError ComputedGoalDecision :=
  if source.coverage ≠ .complete then
    .ok {
      verdict := .indeterminate
      reason := "historical source coverage is incomplete"
      proof := .object [("schema_version", .nat 1), ("through", .nat source.through),
        ("coverage", source.coverage.toValue), ("checked", .nat source.effects.length)] }
  else match (tally.witnesses.mergeSort receiptLe).head? with
  | some witness => do
      let result ← mapError (fun error => bad error.toString) witness.result
      return {
        verdict := .satisfied
        reason := "verified historical governed write committed"
        proof := witnessProof codec predicate witness result }
  | none =>
      .ok {
        verdict := .unsatisfied
        reason := "complete historical source has no matching committed write"
        proof := .object [("schema_version", .nat 1), ("through", .nat source.through),
          ("checked", .nat source.effects.length), ("failed", .nat tally.failed), ("unrelated", .nat tally.unrelated),
          ("mismatched", .nat tally.mismatched)] }

/-- `FileWriteCommittedChecker::assess`. -/
def FileWriteCommittedChecker.assess (criterion : GoalCriterion) (source : VerifiedGoalSource) :
    Except TaskError ComputedGoalDecision := do
  let predicate ← checker.predicate codec criterion
  reject (criterion.invocationId ≠ source.binding.invocationId) (bad "goal source invocation differs")
  let tally ← source.effects.foldlM (tallyEffect codec predicate source.binding) ⟨[], 0, 0, 0⟩
  verdictOf codec predicate source tally

end Checker

end Goals
end Kolyan
