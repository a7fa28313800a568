/-
# The policy engine and its batch plan

`PolicyEngine` (`kolyan-policy/src/lib.rs`, `prepared_batch.rs`, `progress.rs`)
decides each prepared call of a batch against the manifest of its tool, and
orders the calls that may run into stages: a call comes after every earlier
call of the batch that it conflicts with.  `first_stage` is what a dispatcher
relies on that runs the first stage only: its members conflict with no earlier
call that is still to run.
-/

import Kolyan.Policy.Prepared
import Kolyan.Tasks.Types

namespace Kolyan
namespace Policy

open Checks

/-- `ApprovalMode`. -/
inductive ApprovalMode where
  | never | onRisk | always

/-- `PathScope`; its prefix ends in a slash. -/
structure PathScope where
  pathPrefix : String

/-- `str::starts_with`. -/
def startsWith (s start : String) : Bool := start.toList.isPrefixOf s.toList

/-- `PathScope::new`. -/
def PathScope.new (path : String) : PathScope :=
  if path.toList.getLast? = some '/' then ⟨path⟩ else ⟨path ++ "/"⟩

/-- `PathScope::contains`. -/
def PathScope.contains (scope : PathScope) (path : String) : Bool :=
  path.toList = (scope.pathPrefix.toList.reverse.dropWhile (· = '/')).reverse ||
    startsWith path scope.pathPrefix

/-- `ToolManifest`. -/
structure ToolManifest where
  toolName : String
  capabilities : List Capability
  effects : List Effect
  pathScopes : List PathScope
  idempotency : Idempotency
  approval : ApprovalMode

/-- `ToolManifest::allows_path`. -/
def ToolManifest.allowsPath (manifest : ToolManifest) (path : String) : Bool :=
  manifest.pathScopes.isEmpty || manifest.pathScopes.any (·.contains path)

/-- `ProgressPolicy`. -/
structure ProgressPolicy where
  repeatLimit : ℕ
  pollingTools : List String

/-- `PolicyContext`, without the fields that no decision reads. -/
structure PolicyContext where
  workspace : Option String
  remainingToolCalls : Option ℕ

/-- `PolicyEngine`. -/
structure PolicyEngine where
  manifests : BTreeMap ToolManifest
  deniedTools : List String
  workspace : Option PathScope
  progress : Option ProgressPolicy

/-- `BatchCallDecision`. -/
structure BatchCallDecision where
  callId : String
  claim : InvocationClaim
  decision : PolicyDecision

/-- `BatchExecutionPlan`. -/
structure BatchExecutionPlan where
  decisions : List BatchCallDecision
  stages : List (List String)

section Progress

/-- What `has_no_progress` has seen: open calls by id, the last completed
invocation, and how often it came in a row. -/
structure ProgressState where
  calls : List (String × ToolCall)
  last : Option (String × Value × String × Bool)
  repeats : ℕ

/-- One content block. -/
def ProgressState.next (s : ProgressState) : ContentBlock → ProgressState
  | .toolCall call => { s with calls := (call.id, call) :: s.calls.filter (·.1 ≠ call.id) }
  | .toolResult result =>
      match s.calls.lookup result.callId with
      | none => s
      | some call =>
          let signature := (call.name, call.arguments, result.content, result.isError)
          { calls := s.calls.filter (·.1 ≠ result.callId)
            last := some signature
            repeats := if s.last = some signature then s.repeats + 1 else 1 }
  | _ => s

/-- `PolicyEngine::has_no_progress`. -/
def PolicyEngine.hasNoProgress (engine : PolicyEngine) (next : ToolCall) (messages : List Message) : Bool :=
  engine.progress.any fun policy =>
    let seen := (messages.flatMap (·.content)).foldl ProgressState.next ⟨[], none, 0⟩
    !policy.pollingTools.contains next.name && policy.repeatLimit ≤ seen.repeats &&
      seen.last.any fun (name, arguments, _, _) => name = next.name && arguments = next.arguments

end Progress

section Encoding

/-- `ApprovalMode`. -/
def ApprovalMode.toValue : ApprovalMode → Value
  | never => .string "never"
  | onRisk => .string "on_risk"
  | always => .string "always"

/-- `PathScope`. -/
def PathScope.toValue (s : PathScope) : Value := .object [("prefix", .string s.pathPrefix)]

/-- `ToolManifest`. -/
def ToolManifest.toValue (m : ToolManifest) : Value :=
  .object [("tool_name", .string m.toolName), ("capabilities", .list Capability.toValue m.capabilities),
    ("effects", .list Effect.toValue m.effects), ("path_scopes", .list PathScope.toValue m.pathScopes),
    ("idempotency", m.idempotency.toValue), ("approval", m.approval.toValue)]

/-- `ProgressPolicy`. -/
def ProgressPolicy.toValue (p : ProgressPolicy) : Value :=
  .object [("repeat_limit", .nat p.repeatLimit), ("polling_tools", .strings p.pollingTools)]

end Encoding

section Decisions

variable (sha256 : Value → String)

/-- `PolicyEngine::revision`. -/
def PolicyEngine.revision (engine : PolicyEngine) : String :=
  "kolyan-policy-v3/" ++ sha256 (Value.canonical (.object [
    ("algorithm", .string "kolyan-policy-v3"),
    ("manifests", .list ToolManifest.toValue engine.manifests.values),
    ("denied_tools", .strings engine.deniedTools),
    ("workspace", .option PathScope.toValue engine.workspace),
    ("progress", .option ProgressPolicy.toValue engine.progress),
    ("default_output_bytes", .nat (1024 * 1024)),
    ("default_timeout_ms", .nat 30000)]))

/-- `PolicyEngine::stamp`. -/
def PolicyEngine.stamp (engine : PolicyEngine) (decision : PolicyDecision) : PolicyDecision :=
  { decision with policyVersion := engine.revision sha256 }

/-- `PolicyDecision::denied`. -/
def PolicyDecision.denied (reason : String) : PolicyDecision where
  kind := .deny
  reason := reason
  policyVersion := "v1"
  constraints := { maxOutputBytes := none, timeoutMs := none }

/-- A path that neither the manifest, the engine nor the invocation excludes. -/
def PolicyEngine.allowsPath (engine : PolicyEngine) (manifest : ToolManifest)
    (context : PolicyContext) (path : String) : Bool :=
  manifest.allowsPath path && engine.workspace.all (·.contains path) &&
    context.workspace.all fun workspace => (PathScope.new workspace).contains path

/-- The kind that a manifest asks for an invocation within its ceiling. -/
def ToolManifest.decisionKind (manifest : ToolManifest) (claim : InvocationClaim) : PolicyDecisionKind :=
  match manifest.approval with
  | .always => .requireApproval
  | .onRisk => if claim.effects.contains .delete then .requireApproval else .allow
  | .never => .allow

/-- `PolicyEngine::decide_claim`. -/
def PolicyEngine.decideClaim (engine : PolicyEngine) (claim : InvocationClaim)
    (context : PolicyContext) : PolicyDecision :=
  if context.remainingToolCalls = some 0 then .denied "tool-call budget is exhausted"
  else if engine.deniedTools.contains claim.toolName then .denied "tool is denied by runtime policy"
  else match engine.manifests[claim.toolName]? with
    | none => .denied "tool has no trusted manifest"
    | some manifest =>
        if ¬(claim.capabilities ⊆ manifest.capabilities ∧ claim.effects ⊆ manifest.effects) then
          .denied "invocation exceeds the tool capability ceiling"
        else if claim.resource.path.any fun path => !engine.allowsPath manifest context path then
          .denied "resource is outside the allowed path scope"
        else
          { kind := manifest.decisionKind claim
            reason := "manifest ceiling and runtime policy allow the invocation"
            policyVersion := "v1"
            constraints := { maxOutputBytes := some (1024 * 1024), timeoutMs := some 30000 } }

/-- `PolicyEngine::decide_prepared`. -/
def PolicyEngine.decidePrepared (engine : PolicyEngine) (call : PreparedCall)
    (context : PolicyContext) : PolicyDecision :=
  match call.validate sha256 with
  | .error error => engine.stamp sha256 (.denied error.toString)
  | .ok () => engine.stamp sha256 (engine.decideClaim call.claim context)

/-- `writes`, in `claims_conflict`. -/
def InvocationClaim.writes (claim : InvocationClaim) : Bool :=
  claim.effects.any fun
    | .create | .update | .delete | .execute | .delegate => true
    | _ => false

/-- `claims_conflict`. -/
def claimsConflict (left right : InvocationClaim) : Bool :=
  (left.writes || right.writes) &&
    match left.resource.path, right.resource.path with
    | some left, some right =>
        left = right || startsWith left (right ++ "/") || startsWith right (left ++ "/")
    | _, _ => true

/-- `executable`, in `execution_stages`. -/
def BatchCallDecision.executable (approved : List String) (item : BatchCallDecision) : Bool :=
  match item.decision.kind with
  | .allow | .allowWithConstraints => true
  | .requireApproval => approved.contains item.callId
  | .deny => false

/-- One stage later than an earlier executable call in conflict. -/
def stageAfter (approved : List String) (stages : List (List String)) (current : BatchCallDecision)
    (index : ℕ) (previous : BatchCallDecision) : ℕ :=
  if previous.executable approved && claimsConflict previous.claim current.claim then
    match stages.findIdx? (·.contains previous.callId) with
    | some stage => max index (stage + 1)
    | none => index
  else index

/-- The stage of a call: later than every earlier executable call in conflict. -/
def stageIndex (approved : List String) (stages : List (List String))
    (earlier : List BatchCallDecision) (current : BatchCallDecision) : ℕ :=
  earlier.foldl (stageAfter approved stages current) 0

/-- Put an id into a stage, with empty stages up to it. -/
def pushStage (stages : List (List String)) (index : ℕ) (id : String) : List (List String) :=
  (stages ++ List.replicate (index + 1 - stages.length) []).modify index (· ++ [id])

/-- The loop of `execution_stages`, after the calls `earlier`. -/
def stagesFrom (approved : List String) (earlier : List BatchCallDecision)
    (stages : List (List String)) : List BatchCallDecision → List (List String)
  | [] => stages
  | current :: rest =>
      stagesFrom approved (earlier ++ [current])
        (if current.executable approved then
          pushStage stages (stageIndex approved stages earlier current) current.callId
        else stages) rest

/-- `execution_stages`. -/
def executionStages (decisions : List BatchCallDecision) (approved : List String) : List (List String) :=
  stagesFrom approved [] [] decisions

/-- `BatchExecutionPlan::stages_with_approvals`. -/
def BatchExecutionPlan.stagesWithApprovals (plan : BatchExecutionPlan) (approved : List String) :
    List (List String) :=
  executionStages plan.decisions approved

/-- The decision of one call of a batch. -/
def PolicyEngine.planned (engine : PolicyEngine) (context : PolicyContext) (call : PreparedCall) :
    BatchCallDecision where
  callId := call.call.id
  claim := call.claim
  decision := engine.decidePrepared sha256 call context

/-- The loop of `resolve_prepared_batch`, after the ids `identities`. -/
def PolicyEngine.resolveCalls (engine : PolicyEngine) (context : PolicyContext)
    (identities : List String) : List PreparedCall → Except PreparedError (List BatchCallDecision)
  | [] => .ok []
  | call :: calls => do
      call.validate sha256
      reject (identities.contains call.call.id) (.invalid "duplicate prepared call ID")
      let decisions ← engine.resolveCalls context (call.call.id :: identities) calls
      return engine.planned sha256 context call :: decisions

/-- `PolicyEngine::resolve_prepared_batch`. -/
def PolicyEngine.resolvePreparedBatch (engine : PolicyEngine) (context : PolicyContext)
    (calls : List PreparedCall) : Except PreparedError BatchExecutionPlan := do
  let decisions ← engine.resolveCalls sha256 context [] calls
  return { decisions, stages := executionStages decisions [] }

end Decisions

section Plans

variable {sha256 : Value → String} {engine : PolicyEngine} {context : PolicyContext}

theorem resolvePreparedBatch_eq_ok {calls : List PreparedCall} {plan : BatchExecutionPlan}
    (h : engine.resolvePreparedBatch sha256 context calls = .ok plan) :
    plan.decisions = calls.map (engine.planned sha256 context) ∧
      ∀ call ∈ calls, call.validate sha256 = .ok () := by
  have hloop : ∀ {calls : List PreparedCall} {identities : List String} {decisions : List BatchCallDecision},
      engine.resolveCalls sha256 context identities calls = .ok decisions →
        decisions = calls.map (engine.planned sha256 context) ∧
          ∀ call ∈ calls, call.validate sha256 = .ok () := by
    intro calls
    induction calls with
    | nil =>
      intro identities decisions h
      obtain rfl := Except.ok.inj h
      exact ⟨rfl, fun call hcall => nomatch hcall⟩
    | cons call calls ih =>
      intro identities decisions h
      simp only [PolicyEngine.resolveCalls, bind_eq_ok, reject_eq_ok, pure_eq_ok] at h
      obtain ⟨_, hvalid, _, -, decisions, hrest, rfl⟩ := h
      obtain ⟨rfl, hall⟩ := ih hrest
      exact ⟨rfl, List.forall_mem_cons.2 ⟨hvalid, hall⟩⟩
  simp only [PolicyEngine.resolvePreparedBatch, bind_eq_ok, pure_eq_ok] at h
  obtain ⟨decisions, hdecisions, rfl⟩ := h
  exact hloop hdecisions

theorem decidePrepared_policyVersion {call : PreparedCall} :
    (engine.decidePrepared sha256 call context).policyVersion = engine.revision sha256 := by
  unfold PolicyEngine.decidePrepared
  split <;> rfl

end Plans

end Policy
end Kolyan
