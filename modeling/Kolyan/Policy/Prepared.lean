/-
# Prepared calls and the authority to execute them

`kolyan-policy`: a tool adapter turns a model's call into a `PreparedCall` with
a claim about what it touches; the policy host issues a `PreparedGrant` for
exactly one preparation, scope and policy revision, and the executor checks it
again with `validate` before any effect.  `issue_eq_ok` is what connects the
two: a grant that was issued is a grant that the executor accepts.
-/

import Kolyan.Messages
import Kolyan.Tasks.Encoding
import Kolyan.Lib.Checks

namespace Kolyan
namespace Policy

open Checks

/-- `Capability`. -/
inductive Capability where
  | filesystemRead | filesystemWrite | processInspect | processExecute | networkConnect | secretUse
  | agentDelegate | skillRead
  deriving DecidableEq

/-- `Effect`. -/
inductive Effect where
  | read | create | update | delete | execute | externalNetwork | credentialUse | delegate
  deriving DecidableEq

/-- `Idempotency`. -/
inductive Idempotency where
  | idempotent | nonIdempotent | unknown
  deriving DecidableEq

/-- `ResourceClaim`. -/
structure ResourceClaim where
  path : Option String
  deriving DecidableEq

/-- `InvocationClaim`; the two sets are lists in their order. -/
structure InvocationClaim where
  toolName : String
  capabilities : List Capability
  effects : List Effect
  resource : ResourceClaim
  idempotency : Idempotency
  deriving DecidableEq

/-- `PolicyDecisionKind`. -/
inductive PolicyDecisionKind where
  | allow | allowWithConstraints | requireApproval | deny
  deriving DecidableEq

/-- `ExecutionConstraints`. -/
structure ExecutionConstraints where
  maxOutputBytes : Option ℕ
  timeoutMs : Option ℕ
  deriving DecidableEq

/-- `PolicyDecision`. -/
structure PolicyDecision where
  kind : PolicyDecisionKind
  reason : String
  policyVersion : String
  constraints : ExecutionConstraints

/-- `PreparedError`. -/
inductive PreparedError where
  | invalid (message : String)
  | denied (message : String)
  | bindingMismatch
  deriving DecidableEq

/-- `PreparedError::to_string`. -/
def PreparedError.toString : PreparedError → String
  | invalid message => "invalid prepared call: " ++ message
  | denied message => "prepared grant denied: " ++ message
  | bindingMismatch => "prepared grant binding mismatch"

/-- `ToolExecutionScope`. -/
structure ToolExecutionScope where
  execution : ExecutionRef
  stepId : String
  agentSnapshotDigest : Option String
  deriving DecidableEq

/-- `ToolExecutionScope::validate`. -/
def ToolExecutionScope.validate (scope : ToolExecutionScope) : Except PreparedError Unit := do
  reject (¬(isIdentifier scope.execution.sessionId ∧ isIdentifier scope.execution.executionId ∧
      isIdentifier scope.execution.turnId ∧ isIdentifier scope.stepId))
    (.invalid "execution coordinates must be 1..256 ASCII identifier bytes")
  reject (scope.agentSnapshotDigest.any (!isHexDigest ·))
    (.invalid "Agent snapshot digest must be exactly 64 hex bytes")

/-- `ToolRequirements`. -/
structure ToolRequirements where
  processSandbox : Bool
  maxOutputBytes : ℕ
  timeoutMs : ℕ
  deriving DecidableEq

/-- `PreparedCall`. -/
structure PreparedCall where
  call : ToolCall
  toolRevision : String
  claim : InvocationClaim
  requirements : ToolRequirements
  executionBinding : Value
  digest : String
  deriving DecidableEq

/-- `PreparedGrant`. -/
structure PreparedGrant where
  scope : ToolExecutionScope
  callId : String
  toolName : String
  toolRevision : String
  preparedDigest : String
  policyRevision : String
  constraints : ExecutionConstraints
  approvalEvidenceId : Option String
  deriving DecidableEq

/-- `ApprovalEvidence`. -/
inductive ApprovalEvidence where
  | notConfirmed
  | confirmed (scope : ToolExecutionScope) (preparedDigest policyRevision evidenceId : String)

section Encoding

/-- `Capability`. -/
def Capability.toValue : Capability → Value
  | filesystemRead => .string "filesystem_read"
  | filesystemWrite => .string "filesystem_write"
  | processInspect => .string "process_inspect"
  | processExecute => .string "process_execute"
  | networkConnect => .string "network_connect"
  | secretUse => .string "secret_use"
  | agentDelegate => .string "agent_delegate"
  | skillRead => .string "skill_read"

/-- `Effect`. -/
def Effect.toValue : Effect → Value
  | read => .string "read"
  | create => .string "create"
  | update => .string "update"
  | delete => .string "delete"
  | execute => .string "execute"
  | externalNetwork => .string "external_network"
  | credentialUse => .string "credential_use"
  | delegate => .string "delegate"

/-- `Idempotency`. -/
def Idempotency.toValue : Idempotency → Value
  | idempotent => .string "idempotent"
  | nonIdempotent => .string "non_idempotent"
  | unknown => .string "unknown"

/-- `InvocationClaim`. -/
def InvocationClaim.toValue (c : InvocationClaim) : Value :=
  .object [("tool_name", .string c.toolName), ("capabilities", .list Capability.toValue c.capabilities),
    ("effects", .list Effect.toValue c.effects),
    ("resource", .object [("path", .option .string c.resource.path)]),
    ("idempotency", c.idempotency.toValue)]

/-- `ExecutionConstraints`. -/
def ExecutionConstraints.toValue (c : ExecutionConstraints) : Value :=
  .object [("max_output_bytes", .option .nat c.maxOutputBytes), ("timeout_ms", .option .nat c.timeoutMs)]

/-- `ToolExecutionScope`. -/
def ToolExecutionScope.toValue (s : ToolExecutionScope) : Value :=
  .object [("execution", s.execution.toValue), ("step_id", .string s.stepId),
    ("agent_snapshot_digest", .option .string s.agentSnapshotDigest)]

/-- `ToolRequirements`. -/
def ToolRequirements.toValue (r : ToolRequirements) : Value :=
  .object [("process_sandbox", .bool r.processSandbox), ("max_output_bytes", .nat r.maxOutputBytes),
    ("timeout_ms", .nat r.timeoutMs)]

/-- `PreparedCall`. -/
def PreparedCall.toValue (p : PreparedCall) : Value :=
  .object [("call", p.call.toValue), ("tool_revision", .string p.toolRevision),
    ("claim", p.claim.toValue), ("requirements", p.requirements.toValue),
    ("execution_binding", p.executionBinding), ("digest", .string p.digest)]

/-- `PreparedGrant`. -/
def PreparedGrant.toValue (g : PreparedGrant) : Value :=
  .object [("scope", g.scope.toValue), ("call_id", .string g.callId), ("tool_name", .string g.toolName),
    ("tool_revision", .string g.toolRevision), ("prepared_digest", .string g.preparedDigest),
    ("policy_revision", .string g.policyRevision), ("constraints", g.constraints.toValue),
    ("approval_evidence_id", .option .string g.approvalEvidenceId)]

end Encoding

section Authority

variable (sha256 : Value → String)

/-- `PreparedCall::validate_fields`. -/
def PreparedCall.validateFields (p : PreparedCall) : Except PreparedError Unit := do
  reject ([p.call.id, p.call.name, p.toolRevision].any fun identity =>
      trimEmpty identity || identity.utf8ByteSize > 1024)
    (.invalid "empty or oversized identity")
  reject (p.call.name ≠ p.claim.toolName ∨ ¬p.call.arguments.isObject ∨
      p.claim.capabilities.isEmpty ∨ p.claim.effects.isEmpty ∨
      p.requirements.maxOutputBytes = 0 ∨ p.requirements.timeoutMs = 0 ∨
      (¬p.executionBinding.isNull ∧ ¬p.executionBinding.isObject))
    (.invalid "inconsistent semantics or limits")

/-- `PreparedCall::compute_digest`: the canonical encoding may take 1 MiB. -/
def PreparedCall.computeDigest (p : PreparedCall) : Except PreparedError String := do
  let value := Value.canonical (.object [("schema_version", .nat 2), ("call", p.call.toValue),
    ("tool_revision", .string p.toolRevision), ("claim", p.claim.toValue),
    ("requirements", p.requirements.toValue), ("execution_binding", p.executionBinding)])
  reject (value.encodedLen > 1024 * 1024) (.invalid "prepared input exceeds byte limit")
  return sha256 value

/-- `PreparedCall::validate`. -/
def PreparedCall.validate (p : PreparedCall) : Except PreparedError Unit := do
  p.validateFields
  let digest ← p.computeDigest sha256
  reject (digest ≠ p.digest) (.invalid "digest mismatch")

/-- `PreparedCall::new`. -/
def PreparedCall.new (call : ToolCall) (toolRevision : String) (claim : InvocationClaim)
    (requirements : ToolRequirements) : Except PreparedError PreparedCall := do
  let prepared : PreparedCall := { call, toolRevision, claim, requirements, executionBinding := .null, digest := "" }
  prepared.validateFields
  let digest ← prepared.computeDigest sha256
  return { prepared with digest }

/-- `PreparedCall::with_execution_binding`. -/
def PreparedCall.withExecutionBinding (p : PreparedCall) (binding : Value) : Except PreparedError PreparedCall := do
  p.validate sha256
  let prepared : PreparedCall := { p with executionBinding := binding }
  prepared.validateFields
  let digest ← prepared.computeDigest sha256
  return { prepared with digest }

/-- The evidence of `issue`: a confirmation counts for its own preparation,
scope and revision only. -/
def checkEvidence (prepared : PreparedCall) (decision : PolicyDecision) (scope : ToolExecutionScope) :
    ApprovalEvidence → Except PreparedError (Option String)
  | .notConfirmed => .ok none
  | .confirmed approvalScope preparedDigest policyRevision evidenceId =>
      if approvalScope = scope ∧ preparedDigest = prepared.digest ∧
          policyRevision = decision.policyVersion ∧ trimEmpty evidenceId = false ∧
          evidenceId.utf8ByteSize ≤ 1024
      then .ok (some evidenceId) else .error .bindingMismatch

/-- A decision that lets a grant be issued, given the evidence. -/
def grantable (decision : PolicyDecision) (evidence : Option String) : Bool :=
  match decision.kind with
  | .allow | .allowWithConstraints => true
  | .requireApproval => evidence.isSome
  | .deny => false

/-- `PreparedGrant::issue`. -/
def PreparedGrant.issue (prepared : PreparedCall) (decision : PolicyDecision)
    (approval : ApprovalEvidence) (scope : ToolExecutionScope) : Except PreparedError PreparedGrant := do
  prepared.validate sha256
  scope.validate
  let approvalEvidenceId ← checkEvidence prepared decision scope approval
  reject (grantable decision approvalEvidenceId = false) (.denied decision.reason)
  reject (trimEmpty decision.policyVersion) (.invalid "empty policy revision")
  let maxOutputBytes := min (decision.constraints.maxOutputBytes.getD prepared.requirements.maxOutputBytes)
    prepared.requirements.maxOutputBytes
  let timeoutMs := min (decision.constraints.timeoutMs.getD prepared.requirements.timeoutMs)
    prepared.requirements.timeoutMs
  reject (maxOutputBytes = 0 ∨ timeoutMs = 0) (.invalid "zero execution limit")
  return {
    scope := scope
    callId := prepared.call.id
    toolName := prepared.call.name
    toolRevision := prepared.toolRevision
    preparedDigest := prepared.digest
    policyRevision := decision.policyVersion
    constraints := { maxOutputBytes := some maxOutputBytes, timeoutMs := some timeoutMs }
    approvalEvidenceId := approvalEvidenceId }

/-- A granted limit is present, positive and within the required one. -/
def withinLimit (granted : Option ℕ) (required : ℕ) : Bool :=
  granted.any fun limit => limit ≠ 0 && limit ≤ required

/-- `PreparedGrant::validate`. -/
def PreparedGrant.validate (grant : PreparedGrant) (prepared : PreparedCall)
    (currentPolicyRevision : String) (expectedScope : ToolExecutionScope) :
    Except PreparedError Unit := do
  prepared.validate sha256
  grant.scope.validate
  expectedScope.validate
  reject (grant.scope ≠ expectedScope ∨ grant.callId ≠ prepared.call.id ∨
      grant.toolName ≠ prepared.call.name ∨ grant.toolRevision ≠ prepared.toolRevision ∨
      grant.preparedDigest ≠ prepared.digest ∨ grant.policyRevision ≠ currentPolicyRevision ∨
      withinLimit grant.constraints.maxOutputBytes prepared.requirements.maxOutputBytes = false ∨
      withinLimit grant.constraints.timeoutMs prepared.requirements.timeoutMs = false)
    .bindingMismatch

variable {sha256}

/-- **What an issued grant rests on.**  It binds the preparation, the scope and
the revision of the decision; the decision was no denial, and one that requires
approval had evidence for exactly this preparation, scope and revision. -/
theorem issue_eq_ok {prepared : PreparedCall} {decision : PolicyDecision} {approval : ApprovalEvidence}
    {scope : ToolExecutionScope} {grant : PreparedGrant}
    (h : PreparedGrant.issue sha256 prepared decision approval scope = .ok grant) :
    decision.kind ≠ .deny ∧
      (decision.kind = .requireApproval → ∃ evidenceId,
        approval = .confirmed scope prepared.digest decision.policyVersion evidenceId) ∧
      grant.scope = scope ∧ grant.policyRevision = decision.policyVersion ∧
      grant.validate sha256 prepared decision.policyVersion scope = .ok () := by
  simp only [PreparedGrant.issue, bind_eq_ok, reject_eq_ok, pure_eq_ok] at h
  obtain ⟨_, hprepared, _, hscope, evidence, hevidence, _, hgrantable, _, _, _, hlimits, rfl⟩ := h
  rw [Bool.not_eq_false] at hgrantable
  have hkind : decision.kind ≠ .deny := by
    intro hdeny
    rw [grantable, hdeny] at hgrantable
    exact Bool.noConfusion hgrantable
  refine ⟨hkind, fun hrequire => ?_, rfl, rfl, ?_⟩
  · rw [grantable, hrequire] at hgrantable
    cases approval with
    | notConfirmed =>
      obtain rfl := Except.ok.inj hevidence
      exact Bool.noConfusion hgrantable
    | confirmed approvalScope digest revision evidenceId =>
      rw [checkEvidence] at hevidence
      split_ifs at hevidence with hbinding
      obtain ⟨rfl, rfl, rfl, -⟩ := hbinding
      exact ⟨evidenceId, rfl⟩
  · have hlimit : ∀ {granted : Option ℕ} {required : ℕ}, ¬min (granted.getD required) required = 0 →
        withinLimit (some (min (granted.getD required) required)) required = true := by
      intro granted required hne
      simp only [withinLimit, Option.any_some, Bool.and_eq_true, decide_eq_true_eq]
      exact ⟨hne, Nat.min_le_right _ _⟩
    simp only [not_or] at hlimits
    simp only [PreparedGrant.validate, bind_eq_ok, reject_eq_ok]
    refine ⟨(), hprepared, (), hscope, (), hscope, ?_⟩
    simp [hlimit hlimits.1, hlimit hlimits.2]

end Authority

end Policy
end Kolyan
