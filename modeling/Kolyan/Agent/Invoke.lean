/-
# Preparing an invocation of agents

`kolyan-agent/src/invoke.rs`, with the binding of the parent (`binding.rs`).  A call
of `agent.invoke` is decoded, each of its targets is resolved below the parent and
the host, and the intents are bound into a prepared call.  A saved preparation is
checked by preparing it again, over a catalog of the definitions that it holds.
What `serde` reads from JSON is a parameter.
-/

import Kolyan.Agent.Catalog
import Kolyan.Policy.Prepared

namespace Kolyan
namespace Agent

open Checks Tasks Policy

/-- `AGENT_INVOKE_NAME`. -/
def agentInvokeName : String := "agent.invoke"

/-- `MAX_PREPARED_BYTES`. -/
def maxPreparedBytes : ℕ := 64 * 1024

/-- `InvocationTarget`. -/
inductive InvocationTarget where
  | selfCall
  | named (key : AgentKey)
  | inline (definition : AgentDefinition)

/-- `ChildInvocationInput`. -/
structure ChildInvocationInput where
  target : InvocationTarget
  input : String
  permissions : AgentPermissions

/-- `AgentInvokeInput`. -/
structure AgentInvokeInput where
  children : List ChildInvocationInput
  parallel : Bool

/-- `InvokePrepareLimits`. -/
structure InvokePrepareLimits where
  maxChildren : ℕ
  maxParallel : ℕ
  maxChildInputBytes : ℕ
  maxOutputBytes : ℕ
  admissionTimeoutMs : ℕ

/-- `ResolvedChildIntent`. -/
structure ResolvedChildIntent where
  definition : AgentDefinition
  permissions : AgentPermissions
  input : String
  role : InvocationRole
  deriving DecidableEq

/-- `InvokePlan`. -/
structure InvokePlan where
  schemaVersion : ℕ
  taskId : String
  parentInvocationId : String
  parentSnapshotDigest : String
  execution : ExecutionRef
  limits : InvokePrepareLimits
  parallel : Bool
  children : List ResolvedChildIntent

/-- `PreparedAgentInvocation`. -/
structure PreparedAgentInvocation where
  prepared : PreparedCall
  children : List ResolvedChildIntent
  parallel : Bool
  deriving DecidableEq

/-- `InvokePrepareError`. -/
inductive InvokePrepareError where
  | invalid (message : String)
  | agent (error : AgentError)
  | prepared (error : PreparedError)
  deriving DecidableEq

/-- `BindingContextKind`. -/
inductive BindingContextKind where
  | root | child
  deriving DecidableEq

/-- `BindingError`, as far as a binding is validated. -/
inductive BindingError where
  | invalid (message : String)

/-- `BindingError::to_string`. -/
def BindingError.toString : BindingError → String
  | invalid message => "invalid invocation binding: " ++ message

/-- SHA-256 of the encoding of a value, and what `serde_json` reads from one. -/
structure InvokeCodec where
  sha256 : Value → String
  decodeInput : Value → Except String AgentInvokeInput
  decodePlan : Value → Except String InvokePlan

section Encoding

/-- `InvokePrepareLimits`. -/
def InvokePrepareLimits.toValue (limits : InvokePrepareLimits) : Value :=
  .object [("max_children", .nat limits.maxChildren), ("max_parallel", .nat limits.maxParallel),
    ("max_child_input_bytes", .nat limits.maxChildInputBytes), ("max_output_bytes", .nat limits.maxOutputBytes),
    ("admission_timeout_ms", .nat limits.admissionTimeoutMs)]

/-- `ResolvedChildIntent`. -/
def ResolvedChildIntent.toValue (intent : ResolvedChildIntent) : Value :=
  .object [("definition", intent.definition.toValue), ("permissions", intent.permissions.toValue),
    ("input", .string intent.input), ("role", intent.role.toValue)]

/-- `InvokePlan`. -/
def InvokePlan.toValue (plan : InvokePlan) : Value :=
  .object [("schema_version", .nat plan.schemaVersion), ("task_id", .string plan.taskId),
    ("parent_invocation_id", .string plan.parentInvocationId),
    ("parent_snapshot_digest", .string plan.parentSnapshotDigest), ("execution", plan.execution.toValue),
    ("limits", plan.limits.toValue), ("parallel", .bool plan.parallel),
    ("children", .list ResolvedChildIntent.toValue plan.children)]

end Encoding

section Bindings

variable (sha256 : Value → String)

/-- `AgentInvocationBinding`. -/
structure AgentInvocationBinding where
  taskId : String
  invocationId : String
  logicalSessionId : String
  privateSessionId : String
  contextKind : BindingContextKind
  snapshot : AgentSnapshot sha256

/-- `validate_id`. -/
def validateId (value : String) : Except BindingError Unit :=
  mapError (fun error => .invalid error.toString) (identity value)

/-- `child_private_session_id`. -/
def childPrivateSessionId (logicalSessionId taskId invocationId : String) : Except BindingError String := do
  forEach validateId [logicalSessionId, taskId, invocationId]
  return "agent.child.v1." ++ sha256 (.array [.string "kolyan.agent.child.context.v1", .string logicalSessionId,
    .string taskId, .string invocationId])

variable {sha256}

/-- `AgentInvocationBinding::validate`. -/
def AgentInvocationBinding.validate (binding : AgentInvocationBinding sha256) : Except BindingError Unit := do
  forEach validateId [binding.taskId, binding.invocationId, binding.logicalSessionId, binding.privateSessionId]
  reject (binding.contextKind = .root ∧ binding.privateSessionId ≠ binding.logicalSessionId)
    (.invalid "root private Session must equal its logical Session")
  match binding.contextKind with
  | .root => .ok ()
  | .child => do
    let message := "child private Session must equal its exact derived invocation context"
    reject (binding.privateSessionId = binding.logicalSessionId) (.invalid message)
    let derived ← childPrivateSessionId sha256 binding.logicalSessionId binding.taskId binding.invocationId
    reject (binding.privateSessionId ≠ derived) (.invalid message)
  -- a snapshot is written and read again, which validates it once more
  mapError (fun error => .invalid error.toString) (binding.snapshot.input.validate sha256)

end Bindings

/-- `InvokePrepareLimits::validate`. -/
def InvokePrepareLimits.validate (limits : InvokePrepareLimits) : Except InvokePrepareError Unit :=
  reject (¬(1 ≤ limits.maxChildren ∧ limits.maxChildren ≤ 8) ∨ ¬(1 ≤ limits.maxParallel ∧ limits.maxParallel ≤ 8) ∨
      limits.maxChildInputBytes = 0 ∨ limits.maxChildInputBytes > 16 * 1024 ∨ limits.maxOutputBytes = 0 ∨
      limits.maxOutputBytes > 1024 * 1024 ∨ limits.admissionTimeoutMs = 0 ∨ limits.admissionTimeoutMs > 30000)
    (.invalid "invalid bounded host limits")

/-- The longest start of a text within a number of bytes. -/
def takeBytes (limit : ℕ) : List Char → List Char
  | [] => []
  | c :: cs => if c.utf8Size ≤ limit then c :: takeBytes (limit - c.utf8Size) cs else []

/-- The error text of `input::decode`, cut to its bound. -/
def boundedMessage (message : String) : String :=
  let truncation := " [truncated]"
  if message.utf8ByteSize > 1024 then
    String.ofList (takeBytes (1024 - truncation.utf8ByteSize) message.toList) ++ truncation
  else message

/-- An agent error converts. -/
def agentCheck {α : Type} (x : Except AgentError α) : Except InvokePrepareError α := mapError .agent x

/-- An error of the preparation converts. -/
def preparedCheck {α : Type} (x : Except PreparedError α) : Except InvokePrepareError α := mapError .prepared x

section Preparation

variable (codec : InvokeCodec)

/-- `input::decode`. -/
def decodeInvoke (value : Value) : Except InvokePrepareError AgentInvokeInput :=
  mapError (fun message => .invalid (boundedMessage message)) (codec.decodeInput value)

variable (parent : AgentInvocationBinding codec.sha256) (execution : ExecutionRef) (catalog : AgentCatalog)
  (host : AgentPermissions) (limits : InvokePrepareLimits)

/-- The definition that a target selects. -/
def resolveTarget (permissions : AgentPermissions) : InvocationTarget → Except AgentError AgentDefinition
  | .selfCall => resolveSelfDefinition parent.snapshot host permissions
  | .named key => catalog.resolveChildDefinition parent.snapshot (.named key) host permissions
  | .inline definition => catalog.resolveChildDefinition parent.snapshot (.inline definition) host permissions

/-- One round of the loop over the children. -/
def resolveIntent (child : ChildInvocationInput) : Except InvokePrepareError ResolvedChildIntent := do
  reject (trimEmpty child.input ∨ child.input.utf8ByteSize > limits.maxChildInputBytes)
    (.invalid "empty or oversized child input")
  let definition ← agentCheck (resolveTarget codec parent catalog host child.permissions child.target)
  let role := if definition.key = parent.snapshot.definition.key then InvocationRole.selfCall else .delegation
  return { definition, permissions := child.permissions, input := child.input, role }

/-- The loop over the children. -/
def resolveIntents : List ChildInvocationInput → Except InvokePrepareError (List ResolvedChildIntent)
  | [] => .ok []
  | child :: children => do
    let intent ← resolveIntent codec parent catalog host limits child
    let intents ← resolveIntents children
    return intent :: intents

/-- The plan that a preparation binds. -/
def invokePlan (input : AgentInvokeInput) (children : List ResolvedChildIntent) : InvokePlan where
  schemaVersion := 1
  taskId := parent.taskId
  parentInvocationId := parent.invocationId
  parentSnapshotDigest := parent.snapshot.digest
  execution := execution
  limits := limits
  parallel := input.parallel
  children := children

/-- The call that carries a plan. -/
def bindPlan (call : ToolCall) (plan : InvokePlan) : Except InvokePrepareError PreparedCall := do
  let prepared ← preparedCheck (PreparedCall.new codec.sha256 call
    ("kolyan-agent-invoke-v1/" ++ codec.sha256 plan.limits.toValue)
    { toolName := agentInvokeName, capabilities := [.agentDelegate], effects := [.delegate],
      resource := { path := none }, idempotency := .nonIdempotent }
    { processSandbox := false, maxOutputBytes := plan.limits.maxOutputBytes,
      timeoutMs := plan.limits.admissionTimeoutMs })
  let prepared ← preparedCheck (prepared.withExecutionBinding codec.sha256 plan.toValue.canonical)
  reject (prepared.toValue.encodedLen > maxPreparedBytes) (.invalid "complete prepared invocation exceeds byte limit")
  return prepared

/-- `prepare_agent_invocation`. -/
def prepareAgentInvocation (call : ToolCall) : Except InvokePrepareError PreparedAgentInvocation := do
  limits.validate
  mapError (fun error => .invalid error.toString) parent.validate
  agentCheck (forEach identity [execution.sessionId, execution.turnId, execution.executionId])
  reject (call.name ≠ agentInvokeName ∨ parent.privateSessionId ≠ execution.sessionId)
    (.invalid "tool name or parent execution ownership differs")
  reject (call.arguments.encodedLen > maxPreparedBytes) (.invalid "encoded invocation input exceeds byte limit")
  let input ← decodeInvoke codec call.arguments
  reject (input.children = [] ∨ input.children.length > limits.maxChildren)
    (.invalid "child count exceeds host ceiling")
  let children ← resolveIntents codec parent catalog host limits input.children
  let prepared ← bindPlan codec call (invokePlan codec parent execution limits input children)
  return { prepared, children, parallel := input.parallel }

/-- The definitions of a plan, each registered in turn. -/
def registerAll : AgentCatalog → List ResolvedChildIntent → Except AgentError AgentCatalog
  | catalog, [] => .ok catalog
  | catalog, child :: children => do
    let (_, catalog) ← catalog.register child.definition
    registerAll catalog children

/-- `verify_saved_agent_invocation`. -/
def verifySavedAgentInvocation (prepared : PreparedCall) : Except InvokePrepareError PreparedAgentInvocation := do
  let plan ← mapError .invalid (codec.decodePlan prepared.executionBinding)
  reject (plan.children = [] ∨ plan.children.length > 8) (.invalid "saved invoke plan has an invalid child count")
  let catalog ← agentCheck (AgentCatalog.new 8)
  let catalog ← agentCheck (registerAll catalog plan.children)
  let actual ← prepareAgentInvocation codec parent execution catalog host plan.limits prepared.call
  reject (actual.prepared ≠ prepared) (.invalid "saved invoke target/role/definition binding differs")
  return actual

end Preparation

end Agent
end Kolyan
