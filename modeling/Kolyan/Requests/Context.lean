/-
# Preparing the context of a request

`crates/kolyan-agent/src/context.rs` and `context/validation.rs`: a request is checked
against a policy (its bytes, its messages and blocks, the pairing of calls with
results), counted by the host's counter and given its output limit.  Digests are
parameters; what is digested and measured is the encoding of the request.
-/

import Kolyan.Requests.Types
import Kolyan.Agent.Permissions
import Kolyan.Lib.Checks
import Kolyan.Lib.Ranges

namespace Kolyan
namespace Requests

open Checks

section Encoding

/-- `ModelRef`. -/
def ModelRef.toValue (m : ModelRef) : Value := .object [("provider", .string m.provider), ("model", .string m.model)]

/-- `SystemInstruction`. -/
def SystemInstruction.toValue (s : SystemInstruction) : Value :=
  .object [("text", .string s.text), ("cache", .bool s.cache)]

/-- `ImageSource`. -/
def imageSourceValue : ImageSource → Value
  | .url url => .object [("type", .string "url"), ("url", .string url)]
  | .base64 mediaType data =>
    .object [("type", .string "base64"), ("media_type", .string mediaType), ("data", .string data)]

/-- `ContentBlock`. -/
def contentBlockValue : ContentBlock → Value
  | .text text => .object [("type", .string "text"), ("text", .string text)]
  | .image source => .object [("type", .string "image"), ("source", imageSourceValue source)]
  | .document source title =>
    .object [("type", .string "document"), ("source", imageSourceValue source), ("title", .option .string title)]
  | .toolCall call => .object [("type", .string "tool_call"), ("call", call.toValue)]
  | .toolResult result => .object [("type", .string "tool_result"), ("result", result.toValue)]
  | .reasoning text state =>
    .object [("type", .string "reasoning"), ("text", .string text), ("opaque", .option id state)]

/-- `Message`. -/
def messageValue (m : Message) : Value :=
  .object [("role", .string (match m.role with
    | .user => "user"
    | .assistant => "assistant")), ("content", .list contentBlockValue m.content)]

/-- `ToolDefinition`. -/
def ToolDefinition.toValue (t : ToolDefinition) : Value :=
  .object [("name", .string t.name), ("description", .option .string t.description), ("input_schema", t.inputSchema)]

/-- `OutputFormat`. -/
def OutputFormat.toValue (f : OutputFormat) : Value :=
  .object [("name", .string f.name), ("schema", f.schema), ("strict", .bool f.strict)]

/-- `PromptCacheConfig`. -/
def PromptCacheConfig.toValue (c : PromptCacheConfig) : Value :=
  .object [("key", .option .string c.key), ("retention", .option CacheRetention.toValue c.retention),
    ("breakpoints", .list CacheBreakpoint.toValue c.breakpoints)]

/-- `ReasoningConfig`. -/
def ReasoningConfig.toValue (c : ReasoningConfig) : Value :=
  .object [("effort", .option .string c.effort), ("budget_tokens", .option numberValue c.budgetTokens)]

/-- The extensions, as they are written. -/
def Extensions.toValue : Extensions → Value
  | null => .null
  | object fields => .object fields.toList
  | other value => value

/-- `ModelRequest`. -/
def ModelRequest.toValue (r : ModelRequest) : Value :=
  .object [("request_id", .string r.requestId), ("model", r.model.toValue),
    ("system", .list SystemInstruction.toValue r.system), ("messages", .list messageValue r.messages),
    ("tools", .list ToolDefinition.toValue r.tools), ("tool_choice", r.toolChoice.toValue),
    ("output_format", .option OutputFormat.toValue r.outputFormat),
    ("prompt_cache", .option PromptCacheConfig.toValue r.promptCache),
    ("reasoning", .option ReasoningConfig.toValue r.reasoning),
    ("max_output_tokens", .option numberValue r.maxOutputTokens), ("extensions", r.extensions.toValue)]

end Encoding

section Types

/-- `BudgetMode`. -/
inductive BudgetMode where
  | strict | inspect
  deriving DecidableEq

/-- `ContextPolicy`. -/
structure ContextPolicy where
  id : String
  revision : String
  mode : BudgetMode
  maxSerializedBytes : ℕ
  maxMessages : ℕ
  maxContentBlocks : ℕ
  contextLimitTokens : Option UInt32
  outputReserveTokens : UInt32

/-- `TokenMeasurement`. -/
inductive TokenMeasurement where
  | trusted (inputTokens : UInt64)
  | unknown (reason : String) (estimatedInputTokens : Option UInt64)

/-- `ContextTokenCounter`: the host's counter. -/
structure ContextTokenCounter where
  id : String
  revision : String
  count : ModelRequest → Value → Except String TokenMeasurement

/-- `ModelDescriptor`. -/
structure ModelDescriptor where
  reference : ModelRef
  contextWindow : Option UInt32
  maxOutputTokens : Option UInt32
  features : List ModelFeature

/-- `RetainedMessageRange`. -/
abbrev RetainedMessageRange := Ranges.Range

/-- `ContextChange`. -/
inductive ContextChange where
  | unchanged | outputLimitAdded
  deriving DecidableEq

/-- `BudgetStatus`. -/
inductive BudgetStatus where
  | verified (inputTokens : UInt64)
  | unverified (reason : String) (estimatedInputTokens : Option UInt64)

/-- `ContextProvenance`. -/
structure ContextProvenance where
  sourceDigest : String
  preparedDigest : String
  policyDigest : String
  policyId : String
  policyRevision : String
  counterId : String
  counterRevision : String
  sourceSerializedBytes : ℕ
  preparedSerializedBytes : ℕ
  retainedMessages : List RetainedMessageRange
  systemPreserved : Bool
  toolsPreserved : Bool
  cachePreserved : Bool
  contextLimitTokens : UInt32
  outputReserveTokens : UInt32
  deriving DecidableEq

/-- `PreparedContext`. -/
structure PreparedContext where
  request : ModelRequest
  change : ContextChange
  budget : BudgetStatus
  provenance : ContextProvenance

/-- `ContextError`. -/
inductive ContextError where
  | invalid (reason : String)
  | sizeLimit
  | unknownModelLimit
  | unknownBudget (reason : String) (estimatedInputTokens : Option UInt64) (provenance : ContextProvenance)
  | overflow (inputTokens : UInt64) (provenance : ContextProvenance)
  | counterFailed (reason : String) (provenance : ContextProvenance)
  deriving DecidableEq

/-- `ContextPolicy`, encoded. -/
def ContextPolicy.toValue (p : ContextPolicy) : Value :=
  .object [("id", .string p.id), ("revision", .string p.revision), ("mode", .string (match p.mode with
    | .strict => "Strict"
    | .inspect => "Inspect")), ("max_serialized_bytes", .nat p.maxSerializedBytes),
    ("max_messages", .nat p.maxMessages), ("max_content_blocks", .nat p.maxContentBlocks),
    ("context_limit_tokens", .option numberValue p.contextLimitTokens),
    ("output_reserve_tokens", numberValue p.outputReserveTokens)]

/-- `RetainedMessageRange`, encoded. -/
def rangeValue (r : RetainedMessageRange) : Value := .object [("start", .nat r.start), ("end", .nat r.stop)]

/-- The digests: of the bytes of a request, and of any other value. -/
structure Digests where
  bytesDigest : Value → String
  digest : Value → String

end Types

section Validation

/-- `crate::identity`, with its error as one of these. -/
def contextIdentity (value : String) : Except ContextError Unit :=
  mapError (fun error => .invalid error.toString) (Agent.identity value)

/-- `validation::policy`. -/
def ContextPolicy.check (policy : ContextPolicy) : Except ContextError Unit := do
  contextIdentity policy.id
  contextIdentity policy.revision
  reject (policy.maxSerializedBytes = 0 ∨ policy.maxSerializedBytes > 16 * 1024 * 1024 ∨ policy.maxMessages = 0 ∨
      policy.maxMessages > 4096 ∨ policy.maxContentBlocks = 0 ∨ policy.maxContentBlocks > 16384 ∨
      policy.contextLimitTokens = some 0 ∨ policy.outputReserveTokens = 0)
    (.invalid "invalid bounded context policy")

/-- `validation::serialize`. -/
def serialize (request : ModelRequest) (limit : ℕ) : Except ContextError Value := do
  reject (limit < request.toValue.encodedLen) .sizeLimit
  return request.toValue

/-- The calls that wait for their results. -/
abbrev Pending := Std.ExtTreeSet String

/-- One block in the loop of `messages`. -/
def checkBlock (role : MessageRole) (pending : Pending) (block : ContentBlock) : Except ContextError Pending :=
  match block with
  | .toolCall call => do
    reject (role ≠ .assistant ∨ trimEmpty call.id = true ∨ trimEmpty call.name = true ∨ call.id ∈ pending)
      (.invalid "invalid or duplicate assistant tool call")
    return pending.insert call.id
  | .toolResult result => do
    reject (role ≠ .user ∨ result.callId ∉ pending) (.invalid "dangling or duplicate tool result")
    return pending.erase result.callId
  | .reasoning _ _ => do
    reject (role ≠ .assistant) (.invalid "reasoning belongs to assistant content")
    return pending
  | .text _ | .image _ | .document _ _ => do
    reject (pending.isEmpty = false ∧ role = .user)
      (.invalid "non-result content interleaved with pending tool results")
    return pending

/-- The blocks of a message. -/
def checkBlocks (role : MessageRole) (pending : Pending) : List ContentBlock → Except ContextError Pending
  | [] => .ok pending
  | block :: blocks => do
    let pending ← checkBlock role pending block
    checkBlocks role pending blocks

/-- One message in the loop of `messages`: the blocks so far, and the calls that wait. -/
def checkMessage (maxBlocks : ℕ) (state : ℕ × Pending) (message : Message) : Except ContextError (ℕ × Pending) := do
  let total := state.1 + message.content.length
  reject (total > maxBlocks) (.invalid "content block count exceeds bound")
  reject (state.2.isEmpty = false ∧ message.role ≠ .user) (.invalid "assistant advanced before all tool results")
  let pending ← checkBlocks message.role state.2 message.content
  return (total, pending)

/-- The loop of `messages`. -/
def checkAll (maxBlocks : ℕ) (state : ℕ × Pending) : List Message → Except ContextError (ℕ × Pending)
  | [] => .ok state
  | message :: messages => do
    let state ← checkMessage maxBlocks state message
    checkAll maxBlocks state messages

/-- The section that a cache breakpoint refers to is there. -/
def breakpointExists (request : ModelRequest) : CacheBreakpoint → Bool
  | .system => request.system ≠ []
  | .tools => request.tools ≠ []
  | .messages => request.messages.any fun message => message.content ≠ []

/-- `validation::messages`. -/
def checkMessages (request : ModelRequest) (policy : ContextPolicy) : Except ContextError Unit := do
  reject (request.messages.length > policy.maxMessages) (.invalid "message count exceeds bound")
  let state ← checkAll policy.maxContentBlocks (0, ∅) request.messages
  reject (state.2.isEmpty = false) (.invalid "tool calls lack completed results")
  reject (request.promptCache.any fun cache => cache.breakpoints.any fun breakpoint =>
      !breakpointExists request breakpoint)
    (.invalid "cache breakpoint references an absent section")

end Validation

section Prepare

/-- What `prepare_context` checks of the policy, the model and the budgets: the limit of tokens. -/
def contextLimit (request : ModelRequest) (descriptor : ModelDescriptor) (policy : ContextPolicy)
    (counter : ContextTokenCounter) : Except ContextError UInt32 := do
  policy.check
  reject (request.model ≠ descriptor.reference) (.invalid "descriptor model mismatch")
  contextIdentity counter.id
  contextIdentity counter.revision
  let window ← expect (descriptor.contextWindow.filter fun window => 0 < window) .unknownModelLimit
  let limit := match policy.contextLimitTokens with
    | some tokens => min tokens window
    | none => window
  reject (limit ≤ policy.outputReserveTokens ∨
      (descriptor.maxOutputTokens.any fun max => max < policy.outputReserveTokens) = true)
    (.invalid "output reserve exceeds model limits")
  reject ((request.maxOutputTokens.any fun max => max = 0 ∨ policy.outputReserveTokens < max) = true ∨
      ((request.reasoning.bind (·.budgetTokens)).any fun budget => policy.outputReserveTokens < budget) = true)
    (.invalid "output or reasoning budget exceeds reserve")
  return limit

/-- What `prepare_context` makes of a count. -/
def admitTokens (policy : ContextPolicy) (limit : UInt32) (provenance : ContextProvenance) :
    Except String TokenMeasurement → Except ContextError BudgetStatus
  | .error reason => .error (.counterFailed reason provenance)
  | .ok (.trusted inputTokens) => do
    let sum := inputTokens.toNat + policy.outputReserveTokens.toNat
    reject (UInt64.size ≤ sum ∨ limit.toNat < sum) (.overflow inputTokens provenance)
    return .verified inputTokens
  | .ok (.unknown reason estimated) => do
    reject (policy.mode = .strict) (.unknownBudget reason estimated provenance)
    return .unverified reason estimated

/-- `prepare_context`. -/
def prepareContext (digests : Digests) (request : ModelRequest) (descriptor : ModelDescriptor)
    (policy : ContextPolicy) (counter : ContextTokenCounter) : Except ContextError PreparedContext := do
  let limit ← contextLimit request descriptor policy counter
  let source ← serialize request policy.maxSerializedBytes
  checkMessages request policy
  let prepared := match request.maxOutputTokens with
    | none => { request with maxOutputTokens := some policy.outputReserveTokens }
    | some _ => request
  let change := match request.maxOutputTokens with
    | none => ContextChange.outputLimitAdded
    | some _ => ContextChange.unchanged
  let bytes ← serialize prepared policy.maxSerializedBytes
  let provenance : ContextProvenance :=
    { sourceDigest := digests.bytesDigest source
      preparedDigest := digests.bytesDigest bytes
      policyDigest := digests.digest (.array [.string "kolyan.context.policy.v1", policy.toValue])
      policyId := policy.id
      policyRevision := policy.revision
      counterId := counter.id
      counterRevision := counter.revision
      sourceSerializedBytes := source.encodedLen
      preparedSerializedBytes := bytes.encodedLen
      retainedMessages := if request.messages = [] then [] else [⟨0, request.messages.length⟩]
      systemPreserved := true
      toolsPreserved := true
      cachePreserved := true
      contextLimitTokens := limit
      outputReserveTokens := policy.outputReserveTokens }
  let budget ← admitTokens policy limit provenance (counter.count prepared bytes)
  return { request := prepared, change, budget, provenance }

end Prepare

end Requests
end Kolyan
