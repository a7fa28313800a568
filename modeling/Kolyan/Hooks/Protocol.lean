/-
# Hook definitions, events and replies

`kolyan-agent/src/hooks.rs` and, below it, `definition.rs`, `policy.rs` and
`protocol.rs`: a hook is a script of the host under an exact key and revision, an
event is what one dispatch shows to the hooks that its binding selects, and a reply
is what a script may say about it.  What `serde_json` reads from a value or from the
bytes of a script is a parameter.
-/

import Kolyan.Agent.Invoke
import Kolyan.Artifacts.Store
import Kolyan.Facts.Contract

namespace Kolyan
namespace Hooks

open Checks Facts Artifacts Policy

/-- `HookError`. -/
inductive HookError where
  | invalid (message : String)
  | permission
  | revoked
  | conflict
  | integrity (message : String)
  | capacity
  | protocol (message : String)
  | native (message : String)
  | cancelled
  | expired
  | interrupted
  | journal (error : FactError)
  | artifact (error : ArtifactError)
  | io (message : String)
  deriving DecidableEq

/-- What `{0}` prints of a `FactError`. -/
def factMessage : FactError → String
  | .invalid message => "invalid coordination fact: " ++ message
  | .conflict factId => "coordination fact conflict: " ++ factId
  | .stalePosition expected actual =>
    "stale stream position: expected " ++ toString expected ++ ", actual " ++ toString actual
  | .missingCause factId => "causal reference does not resolve exactly: " ++ factId
  | .storage message => "coordination storage failed: " ++ message

/-- What `{0}` prints of an `ArtifactError`. -/
def artifactMessage : ArtifactError → String
  | .invalid message => "invalid artifact reference or bound: " ++ message
  | .integrity => "artifact integrity mismatch"
  | .required => "required artifact cannot be removed"
  | .io .notFound => "artifact I/O failed: not found"
  | .io .alreadyExists => "artifact I/O failed: already exists"
  | .io (.other message) => "artifact I/O failed: " ++ message

/-- `HookError::to_string`. -/
def HookError.toString : HookError → String
  | invalid message => "invalid hook contract: " ++ message
  | permission => "hook host policy denied access"
  | revoked => "hook version is revoked"
  | conflict => "immutable hook content conflicts"
  | integrity message => "hook provenance or integrity failed: " ++ message
  | capacity => "hook capacity exceeded"
  | protocol message => "hook protocol failed: " ++ message
  | native message => "hook native execution failed: " ++ message
  | cancelled => "hook execution cancelled"
  | expired => "hook execution window expired"
  | interrupted => "hook execution is interrupted; implicit replay is forbidden"
  | journal error => "hook journal failed: " ++ factMessage error
  | artifact error => "hook artifact failed: " ++ artifactMessage error
  | io message => "hook host I/O failed: " ++ message

/-- `id`. -/
def id (value : String) : Except HookError Unit :=
  mapError (fun error => .invalid error.toString) (Agent.identity value)

/-! ### Definitions -/

/-- `HookKey`. -/
structure HookKey where
  id : String
  revision : String
  deriving DecidableEq

namespace HookKey

/-- `Ord` of a key, by its fields in turn. -/
instance : Ord HookKey := ⟨compareLex (compareOn HookKey.id) (compareOn revision)⟩

instance : Std.TransOrd HookKey :=
  inferInstanceAs (Std.TransCmp (compareLex (compareOn HookKey.id) (compareOn revision)))

instance : Std.LawfulEqOrd HookKey where
  eq_of_compare := by
    rintro ⟨id, revision⟩ ⟨id', revision'⟩ h
    obtain ⟨hid, hrevision⟩ := Ordering.then_eq_eq.1 h
    obtain rfl : id = id' := Std.LawfulEqOrd.eq_of_compare hid
    obtain rfl : revision = revision' := Std.LawfulEqOrd.eq_of_compare hrevision
    rfl

/-- `HookKey::validate`. -/
def validate (key : HookKey) : Except HookError Unit := do
  Hooks.id key.id
  Hooks.id key.revision

/-- `HookKey`. -/
def toValue (key : HookKey) : Value := .object [("id", .string key.id), ("revision", .string key.revision)]

end HookKey

section Enumerations

/-- `HookPhase`. -/
inductive HookPhase where
  | beforeModel | beforeTool | afterTool
  deriving DecidableEq

/-- `HookPhase`. -/
def HookPhase.toValue : HookPhase → Value
  | beforeModel => .string "before_model"
  | beforeTool => .string "before_tool"
  | afterTool => .string "after_tool"

/-- `Ord` of a phase, by its place in the declaration. -/
instance : Ord HookPhase := ⟨compareOn HookPhase.ctorIdx⟩

instance : Std.TransOrd HookPhase := inferInstanceAs (Std.TransCmp (compareOn HookPhase.ctorIdx))

instance : Std.LawfulEqOrd HookPhase where
  eq_of_compare := by
    intro a b h
    have hplace : a.ctorIdx = b.ctorIdx := Std.LawfulEqOrd.eq_of_compare h
    cases a <;> cases b <;> first | rfl | exact absurd hplace (by decide)

/-- `Ord` of a capability, by its place in the declaration. -/
instance : Ord Capability := ⟨compareOn Capability.ctorIdx⟩

instance : Std.TransOrd Capability := inferInstanceAs (Std.TransCmp (compareOn Capability.ctorIdx))

instance : Std.LawfulEqOrd Capability where
  eq_of_compare := by
    intro a b h
    have hplace : a.ctorIdx = b.ctorIdx := Std.LawfulEqOrd.eq_of_compare h
    cases a <;> cases b <;> first | rfl | exact absurd hplace (by decide)

/-- `Ord` of an effect, by its place in the declaration. -/
instance : Ord Effect := ⟨compareOn Effect.ctorIdx⟩

instance : Std.TransOrd Effect := inferInstanceAs (Std.TransCmp (compareOn Effect.ctorIdx))

instance : Std.LawfulEqOrd Effect where
  eq_of_compare := by
    intro a b h
    have hplace : a.ctorIdx = b.ctorIdx := Std.LawfulEqOrd.eq_of_compare h
    cases a <;> cases b <;> first | rfl | exact absurd hplace (by decide)

end Enumerations

/-- `HookManifest`. -/
structure HookManifest where
  key : HookKey
  phases : BTreeSet HookPhase
  toolNames : BTreeSet String
  capabilities : BTreeSet Capability
  effects : BTreeSet Effect
  timeoutMs : ℕ
  maxInputBytes : ℕ
  maxOutputBytes : ℕ
  deriving DecidableEq

namespace HookManifest

/-- `HookManifest::validate`. -/
def validate (manifest : HookManifest) : Except HookError Unit := do
  manifest.key.validate
  reject (manifest.phases.isEmpty ∨ manifest.toolNames.size > 32) (.invalid "invalid event selection")
  forEach Hooks.id manifest.toolNames.toList
  reject (manifest.capabilities ≠ ((∅ : BTreeSet Capability).insert .processExecute).insert .filesystemRead ∨
      manifest.effects ≠ ((∅ : BTreeSet Effect).insert .execute).insert .read)
    .permission
  reject (¬(1 ≤ manifest.timeoutMs ∧ manifest.timeoutMs ≤ 5000) ∨
      ¬(1 ≤ manifest.maxInputBytes ∧ manifest.maxInputBytes ≤ 256 * 1024) ∨
      ¬(1 ≤ manifest.maxOutputBytes ∧ manifest.maxOutputBytes ≤ 64 * 1024))
    .capacity

/-- `HookManifest::matches`. -/
def matchesEvent (manifest : HookManifest) (phase : HookPhase) (name : Option String) : Bool :=
  manifest.phases.contains phase &&
    (phase = .beforeModel || manifest.toolNames.isEmpty || name.any manifest.toolNames.contains)

/-- `HookManifest`. -/
def toValue (manifest : HookManifest) : Value :=
  .object [("key", manifest.key.toValue), ("phases", .list HookPhase.toValue manifest.phases.toList),
    ("tool_names", .strings manifest.toolNames.toList),
    ("capabilities", .list Capability.toValue manifest.capabilities.toList),
    ("effects", .list Effect.toValue manifest.effects.toList), ("timeout_ms", .nat manifest.timeoutMs),
    ("max_input_bytes", .nat manifest.maxInputBytes), ("max_output_bytes", .nat manifest.maxOutputBytes)]

end HookManifest

/-! ### Scopes and the access policy -/

/-- `HookScope`. -/
structure HookScope where
  logicalSessionId : String
  taskId : String
  invocationId : String
  privateSessionId : String
  executionId : String
  turnId : String
  agentSnapshotDigest : String
  deriving DecidableEq

namespace HookScope

/-- `HookScope::validate`. -/
def validate (scope : HookScope) : Except HookError Unit := do
  forEach Hooks.id [scope.logicalSessionId, scope.taskId, scope.invocationId, scope.privateSessionId, scope.executionId,
    scope.turnId]
  reject (isDigest scope.agentSnapshotDigest = false) (.integrity "invalid snapshot digest")

/-- `HookScope::from_binding`. -/
def fromBinding {sha256 : Value → String} (binding : Agent.AgentInvocationBinding sha256) (executionId turnId : String) :
    Except HookError HookScope := do
  mapError (fun error => .integrity error.toString) binding.validate
  let value : HookScope :=
    { logicalSessionId := binding.logicalSessionId
      taskId := binding.taskId
      invocationId := binding.invocationId
      privateSessionId := binding.privateSessionId
      executionId
      turnId
      agentSnapshotDigest := binding.snapshot.digest }
  value.validate
  return value

/-- `HookScope`. -/
def toValue (scope : HookScope) : Value :=
  .object [("logical_session_id", .string scope.logicalSessionId), ("task_id", .string scope.taskId),
    ("invocation_id", .string scope.invocationId), ("private_session_id", .string scope.privateSessionId),
    ("execution_id", .string scope.executionId), ("turn_id", .string scope.turnId),
    ("agent_snapshot_digest", .string scope.agentSnapshotDigest)]

end HookScope

/-- `HookAccessRule`. -/
structure HookAccessRule where
  agent : Agent.AgentKey
  logicalSessionId : String
  taskId : Option String
  invocationId : Option String
  hooks : BTreeSet HookKey
  phases : BTreeSet HookPhase

/-- `HookAccessPolicy`. -/
structure HookAccessPolicy where
  revision : String
  rules : List HookAccessRule
  digest : String

/-- `HookAccessPolicy::permits`. -/
def HookAccessPolicy.permits (policy : HookAccessPolicy) (agent : Agent.AgentKey) (scope : HookScope) (key : HookKey)
    (phase : HookPhase) : Bool :=
  policy.rules.any fun r =>
    r.agent = agent && r.logicalSessionId = scope.logicalSessionId && r.taskId.all (· = scope.taskId) &&
      r.invocationId.all (· = scope.invocationId) && r.hooks.contains key && r.phases.contains phase

/-! ### Events and replies -/

/-- `HookPayload`. -/
inductive HookPayload where
  | beforeModel (opening : UInt64) (sourceDigest : String)
  | beforeTool (toolName preparedDigest argumentDigest : String) (scope : ToolExecutionScope)
  | afterTool (toolName preparedDigest : String) (scope : ToolExecutionScope) (receiptEventId : String)
      (receiptCursor : UInt64) (resultDigest : String)

/-- `HookEvent`. -/
structure HookEvent where
  schemaVersion : ℕ
  scope : HookScope
  payload : HookPayload

namespace HookEvent

/-- `HookEvent::phase`. -/
def phase (event : HookEvent) : HookPhase :=
  match event.payload with
  | .beforeModel .. => .beforeModel
  | .beforeTool .. => .beforeTool
  | .afterTool .. => .afterTool

/-- `HookEvent::tool_name`. -/
def toolName (event : HookEvent) : Option String :=
  match event.payload with
  | .beforeModel .. => none
  | .beforeTool name .. | .afterTool name .. => some name

/-- `HookEvent::validate_tool`. -/
def validateTool (event : HookEvent) (name digest : String) (scope : ToolExecutionScope) : Except HookError Unit := do
  Hooks.id name
  mapError (fun error => .invalid error.toString) scope.validate
  reject (isDigest digest = false ∨ scope.execution.sessionId ≠ event.scope.privateSessionId ∨
      scope.execution.executionId ≠ event.scope.executionId ∨ scope.execution.turnId ≠ event.scope.turnId ∨
      scope.agentSnapshotDigest ≠ some event.scope.agentSnapshotDigest)
    (.integrity "foreign tool scope or digest")

/-- `HookEvent::validate`. -/
def validate (event : HookEvent) : Except HookError Unit := do
  event.scope.validate
  reject (event.schemaVersion ≠ 1) (.invalid "unknown event schema")
  match event.payload with
  | .beforeModel opening sourceDigest =>
      reject (opening = 0 ∨ isDigest sourceDigest = false) (.invalid "invalid opening identity")
  | .beforeTool name preparedDigest argumentDigest scope => do
      reject (isDigest argumentDigest = false) (.invalid "invalid argument digest")
      event.validateTool name preparedDigest scope
  | .afterTool name preparedDigest scope receiptEventId receiptCursor resultDigest => do
      reject (receiptCursor = 0 ∨ receiptEventId = "" ∨ receiptEventId.utf8ByteSize > 4096 ∨ isDigest resultDigest = false)
        (.invalid "invalid committed receipt coordinates")
      event.validateTool name preparedDigest scope

/-- `HookEvent`; the payload is tagged with its phase. -/
def toValue (event : HookEvent) : Value :=
  let payload := match event.payload with
    | .beforeModel opening sourceDigest =>
      [("phase", event.phase.toValue), ("opening", .nat opening.toNat), ("source_digest", .string sourceDigest)]
    | .beforeTool name preparedDigest argumentDigest scope =>
      [("phase", event.phase.toValue), ("tool_name", .string name), ("prepared_digest", .string preparedDigest),
        ("argument_digest", .string argumentDigest), ("scope", scope.toValue)]
    | .afterTool name preparedDigest scope receiptEventId receiptCursor resultDigest =>
      [("phase", event.phase.toValue), ("tool_name", .string name), ("prepared_digest", .string preparedDigest),
        ("scope", scope.toValue), ("receipt_event_id", .string receiptEventId), ("receipt_cursor", .nat receiptCursor.toNat),
        ("result_digest", .string resultDigest)]
  .object [("schema_version", .nat event.schemaVersion), ("scope", event.scope.toValue), ("payload", .object payload)]

end HookEvent

/-- `HookDecision`. -/
inductive HookDecision where
  | proceed | deny
  deriving DecidableEq

/-- `HookReply`. -/
structure HookReply where
  schemaVersion : ℕ
  decision : HookDecision
  reason : String

/-- `HookReply`. -/
def HookReply.toValue (reply : HookReply) : Value :=
  .object [("schema_version", .nat reply.schemaVersion),
    ("decision", .string (match reply.decision with | .proceed => "continue" | .deny => "deny")),
    ("reason", .string reply.reason)]

/-- `NativeOutcome`: what a script that ran printed, or why it did not run to its end. -/
inductive NativeOutcome where
  | exited (exitCode : Option Int32) (stdout stderr : Bytes)
  | failed (kind message : String)

/-- `Vec<u8>`, an array of numbers. -/
def bytesValue (bytes : Bytes) : Value := .list (fun b => .nat b.toNat) bytes

/-- `NativeOutcome`, tagged with its status. -/
def NativeOutcome.toValue : NativeOutcome → Value
  | exited exitCode stdout stderr =>
    .object [("status", .string "exited"), ("exit_code", .option (fun code => .number (toString code)) exitCode),
      ("stdout", bytesValue stdout), ("stderr", bytesValue stderr)]
  | failed kind message => .object [("status", .string "failed"), ("kind", .string kind), ("message", .string message)]

/-! ### What the catalog saves -/

/-- `ArtifactRef`. -/
def artifactValue (reference : ArtifactRef) : Value :=
  .object [("digest", .string reference.digest), ("byte_length", .nat reference.byteLength),
    ("retention", .string (match reference.retention with | .required => "required" | .optional => "optional"))]

/-- `RegisteredHook`. -/
structure RegisteredHook where
  manifest : HookManifest
  body : ArtifactRef
  reference : FactRef
  deriving DecidableEq

/-- `RegisteredHook`. -/
def RegisteredHook.toValue (hook : RegisteredHook) : Value :=
  .object [("manifest", hook.manifest.toValue), ("body", artifactValue hook.body), ("reference", hook.reference.toValue)]

/-- `Registration`. -/
structure Registration where
  catalog : String
  manifest : HookManifest
  body : ArtifactRef

/-- `Registration`. -/
def Registration.toValue (payload : Registration) : Value :=
  .object [("namespace", .string payload.catalog), ("manifest", payload.manifest.toValue),
    ("body", artifactValue payload.body)]

/-- `Revocation`. -/
structure Revocation where
  key : HookKey
  registration : FactRef
  operationId : String
  reason : String
  deriving DecidableEq

/-- `Revocation`. -/
def Revocation.toValue (payload : Revocation) : Value :=
  .object [("key", payload.key.toValue), ("registration", payload.registration.toValue),
    ("operation_id", .string payload.operationId), ("reason", .string payload.reason)]

/-- `SavedBinding`. -/
structure SavedBinding where
  catalog : String
  scope : HookScope
  agent : Agent.AgentKey
  ownership : FactRef
  hooks : List RegisteredHook
  policyDigest : String
  nativeDigest : String
  deriving DecidableEq

/-- `SavedBinding`. -/
def SavedBinding.toValue (saved : SavedBinding) : Value :=
  .object [("namespace", .string saved.catalog), ("scope", saved.scope.toValue), ("agent", saved.agent.toValue),
    ("ownership", saved.ownership.toValue), ("hooks", .list RegisteredHook.toValue saved.hooks),
    ("policy_digest", .string saved.policyDigest), ("native_digest", .string saved.nativeDigest)]

/-- `VerifiedHookBinding`. -/
structure VerifiedHookBinding where
  saved : SavedBinding
  reference : FactRef
  deriving DecidableEq

/-- `HookDispatchResult`. -/
inductive HookDispatchResult where
  | continued (completed : List FactRef)
  | denied (reason : String) (completed : List FactRef)

/-! ### What `serde_json` writes and reads -/

/-- SHA-256 in hexadecimal, what `serde_json` writes of a value, and what it reads. -/
structure HookCodec where
  sha256 : Bytes → String
  bytes : Value → Bytes
  ownership : Value → Except String (Agent.AgentInvocationBinding fun value => sha256 (bytes value))
  registration : Value → Except String Registration
  revocation : Value → Except String Revocation
  binding : Value → Except String SavedBinding
  artifact : Value → Except String ArtifactRef
  /-- `SuccessOutput`: the exit code and both outputs of a script that ran. -/
  success : Bytes → Except String (Option Int32 × Bytes × Bytes)
  reply : Bytes → Except String HookReply

section Codec

variable (codec : HookCodec)

/-- `encode`. -/
def encode (value : Value) : Except HookError Bytes := do
  reject ((codec.bytes value).length > 64 * 1024) .capacity
  return codec.bytes value

/-- `hash`. -/
def hash (value : Value) : Except HookError String := do
  let bytes ← encode codec value
  return codec.sha256 bytes

/-- `HookReply::parse`. -/
def HookReply.parse (stdout : Bytes) (phase : HookPhase) : Except HookError HookReply := do
  reject (stdout.length > 64 * 1024) .capacity
  let reply ← mapError .protocol (codec.reply stdout)
  reject (reply.schemaVersion ≠ 1 ∨ reply.reason.utf8ByteSize > 1024 ∨
      (reply.decision = .deny ∧ (phase = .afterTool ∨ trimEmpty reply.reason)))
    (.protocol "invalid hook reply")
  return reply

/-- What `serde_json` guarantees: what was written is read back, and the length of the
bytes is that of the compact encoding. -/
structure HookCodec.Lawful : Prop where
  bytes_length : ∀ value, (codec.bytes value).length = value.encodedLen
  registration : ∀ payload : Registration, codec.registration payload.toValue.canonical = .ok payload
  revocation : ∀ payload : Revocation, codec.revocation payload.toValue.canonical = .ok payload
  artifact : ∀ reference, codec.artifact (artifactValue reference).canonical = .ok reference
  success : ∀ exitCode stdout stderr,
    codec.success (codec.bytes (NativeOutcome.exited exitCode stdout stderr).toValue) = .ok (exitCode, stdout, stderr)

end Codec

/-! ### The size of an event -/

section Sizes

theorem utf8ByteSize_le (s : String) : s.utf8ByteSize ≤ 4 * s.length := by
  rw [← String.ofList_toList (s := s), String.utf8ByteSize_ofList, String.length_ofList]
  induction s.toList with
  | nil => exact Nat.zero_le _
  | cons c cs ih =>
    have hc := c.utf8Size_le_four
    rw [String.utf8Len_cons, List.length_cons]
    omega

theorem stringBytes_le (s : String) : Value.stringBytes s ≤ 6 * s.utf8ByteSize + 2 := by
  have hchars : ∀ cs : List Char, (cs.map Value.charBytes).sum ≤ 6 * String.utf8Len cs := by
    intro cs
    induction cs with
    | nil => exact Nat.zero_le _
    | cons c cs ih =>
      have hpos := c.utf8Size_pos
      have hc : Value.charBytes c ≤ 6 * c.utf8Size := by
        unfold Value.charBytes
        split_ifs <;> omega
      rw [List.map_cons, List.sum_cons, String.utf8Len_cons]
      omega
  have h := hchars s.toList
  rw [← String.utf8ByteSize_ofList, String.ofList_toList] at h
  exact Nat.add_le_add_right h 2

theorem encodedLen_u64 (n : UInt64) : (Value.nat n.toNat).encodedLen ≤ 80 := by
  have hdigits := Nat.repr_length n.toNat 20 (by decide) (lt_of_lt_of_le n.toNat_lt (by norm_num))
  have hbytes := utf8ByteSize_le n.toNat.repr
  simp only [Value.nat, Value.encodedLen]
  show n.toNat.repr.utf8ByteSize ≤ 80
  omega

theorem id_le {value : String} (h : id value = .ok ()) : (Value.string value).encodedLen ≤ 1538 := by
  have hid : isIdentifier value = true := by
    rw [id, mapError_eq_ok, Agent.identity, reject_eq_ok, Bool.not_eq_false] at h
    exact h
  simp only [isIdentifier, Bool.and_eq_true, decide_eq_true_eq] at hid
  have hbytes := stringBytes_le value
  simp only [Value.encodedLen]
  omega

theorem digest_le {value : String} (h : isDigest value = true) : (Value.string value).encodedLen ≤ 386 := by
  simp only [isDigest, Bool.and_eq_true, decide_eq_true_eq] at h
  have hbytes := stringBytes_le value
  simp only [Value.encodedLen]
  omega

theorem HookScope.encodedLen_le {scope : HookScope} (h : scope.validate = .ok ()) : scope.toValue.encodedLen ≤ 10000 := by
  simp only [HookScope.validate, bind_eq_ok, forEach_eq_ok, reject_eq_ok, List.forall_mem_cons, Bool.not_eq_false] at h
  obtain ⟨_, ⟨h₁, h₂, h₃, h₄, h₅, h₆, -⟩, h₇⟩ := h
  have hnames : Value.stringBytes "logical_session_id" = 20 ∧ Value.stringBytes "task_id" = 9 ∧
      Value.stringBytes "invocation_id" = 15 ∧ Value.stringBytes "private_session_id" = 20 ∧
      Value.stringBytes "execution_id" = 14 ∧ Value.stringBytes "turn_id" = 9 ∧
      Value.stringBytes "agent_snapshot_digest" = 23 := by decide +kernel
  have h₁ := id_le h₁
  have h₂ := id_le h₂
  have h₃ := id_le h₃
  have h₄ := id_le h₄
  have h₅ := id_le h₅
  have h₆ := id_le h₆
  have h₇ := digest_le h₇
  simp only [HookScope.toValue, Value.encodedLen, Value.encodedFields, Value.commas, List.length_cons, List.length_nil, hnames]
    at h₁ h₂ h₃ h₄ h₅ h₆ h₇ ⊢
  omega

theorem HookEvent.validateTool_eq_ok {event : HookEvent} {name digest : String} {scope : ToolExecutionScope}
    (h : event.validateTool name digest scope = .ok ()) :
    (Value.string name).encodedLen ≤ 1538 ∧ (Value.string digest).encodedLen ≤ 386 ∧ scope.toValue.encodedLen ≤ 7000 := by
  simp only [HookEvent.validateTool, bind_eq_ok, mapError_eq_ok, reject_eq_ok, not_or, not_not, Bool.not_eq_false,
    ToolExecutionScope.validate] at h
  obtain ⟨_, hname, _, ⟨_, ⟨hsession, hexecution, hturn, hstep⟩, hdigest'⟩, hdigest, -⟩ := h
  have hids : ∀ value : String, isIdentifier value = true → (Value.string value).encodedLen ≤ 1538 := fun value hvalue =>
    id_le (by rw [id, mapError_eq_ok, Agent.identity, reject_eq_ok, hvalue]; decide)
  have hsnapshot : (Value.option .string scope.agentSnapshotDigest).encodedLen ≤ 386 := by
    cases hat : scope.agentSnapshotDigest with
    | none => simp [Value.option, Value.encodedLen]
    | some value =>
      rw [hat, Option.any_some, Bool.not_eq_true, Bool.not_eq_false'] at hdigest'
      simp only [isHexDigest, Bool.and_eq_true, decide_eq_true_eq] at hdigest'
      have hbytes := stringBytes_le value
      simp only [Value.option, Value.encodedLen]
      omega
  have hnames : Value.stringBytes "execution" = 11 ∧ Value.stringBytes "session_id" = 12 ∧ Value.stringBytes "turn_id" = 9 ∧
      Value.stringBytes "execution_id" = 14 ∧ Value.stringBytes "step_id" = 9 ∧
      Value.stringBytes "agent_snapshot_digest" = 23 := by decide +kernel
  have h₁ := hids _ hsession
  have h₂ := hids _ hexecution
  have h₃ := hids _ hturn
  have h₄ := hids _ hstep
  refine ⟨id_le hname, digest_le hdigest, ?_⟩
  simp only [ToolExecutionScope.toValue, ExecutionRef.toValue, Value.encodedLen, Value.encodedFields, Value.commas,
    List.length_cons, List.length_nil, hnames] at h₁ h₂ h₃ h₄ hsnapshot ⊢
  omega

theorem HookEvent.encodedLen_le {event : HookEvent} (h : event.validate = .ok ()) :
    event.toValue.encodedLen ≤ 64 * 1024 := by
  simp only [HookEvent.validate, bind_eq_ok, reject_eq_ok, not_not] at h
  obtain ⟨_, hscope, _, hversion, hpayload⟩ := h
  have hscope := HookScope.encodedLen_le hscope
  have hnames : Value.stringBytes "schema_version" = 16 ∧ Value.stringBytes "scope" = 7 ∧ Value.stringBytes "payload" = 9 ∧
      Value.stringBytes "phase" = 7 ∧ Value.stringBytes "opening" = 9 ∧ Value.stringBytes "source_digest" = 15 ∧
      Value.stringBytes "tool_name" = 11 ∧ Value.stringBytes "prepared_digest" = 17 ∧
      Value.stringBytes "argument_digest" = 17 ∧ Value.stringBytes "receipt_event_id" = 18 ∧
      Value.stringBytes "receipt_cursor" = 16 ∧ Value.stringBytes "result_digest" = 15 ∧
      Value.stringBytes "before_model" = 14 ∧ Value.stringBytes "before_tool" = 13 ∧
      Value.stringBytes "after_tool" = 12 := by decide +kernel
  have hone : (Value.nat 1).encodedLen = 1 := by decide +kernel
  cases hat : event.payload with
  | beforeModel opening sourceDigest =>
    rw [hat] at hpayload
    simp only [reject_eq_ok, not_or, Bool.not_eq_false] at hpayload
    have hopening := encodedLen_u64 opening
    have hdigest := digest_le hpayload.2
    simp only [HookEvent.toValue, HookEvent.phase, hat, hversion, HookPhase.toValue, Value.encodedLen, Value.encodedFields,
      Value.commas, List.length_cons, List.length_nil, hnames, hone] at hdigest ⊢
    omega
  | beforeTool name preparedDigest argumentDigest scope =>
    rw [hat] at hpayload
    simp only [bind_eq_ok, reject_eq_ok, Bool.not_eq_false] at hpayload
    obtain ⟨_, hargument, htool⟩ := hpayload
    obtain ⟨hname, hprepared, htool⟩ := HookEvent.validateTool_eq_ok htool
    have hdigest := digest_le hargument
    simp only [HookEvent.toValue, HookEvent.phase, hat, hversion, HookPhase.toValue, Value.encodedLen, Value.encodedFields,
      Value.commas, List.length_cons, List.length_nil, hnames, hone] at hname hprepared hdigest ⊢
    omega
  | afterTool name preparedDigest scope receiptEventId receiptCursor resultDigest =>
    rw [hat] at hpayload
    simp only [bind_eq_ok, reject_eq_ok, not_or, not_lt, Bool.not_eq_false] at hpayload
    obtain ⟨_, ⟨-, -, hreceipt, hresult⟩, htool⟩ := hpayload
    obtain ⟨hname, hprepared, htool⟩ := HookEvent.validateTool_eq_ok htool
    have hcursor := encodedLen_u64 receiptCursor
    have hdigest := digest_le hresult
    have hbytes := stringBytes_le receiptEventId
    simp only [HookEvent.toValue, HookEvent.phase, hat, hversion, HookPhase.toValue, Value.encodedLen, Value.encodedFields,
      Value.commas, List.length_cons, List.length_nil, hnames, hone] at hname hprepared hdigest ⊢
    omega

theorem HookEvent.encodes {codec : HookCodec} (hlawful : codec.Lawful) {event : HookEvent} (h : event.validate = .ok ()) :
    encode codec event.toValue = .ok (codec.bytes event.toValue) := by
  have hle := HookEvent.encodedLen_le h
  rw [← hlawful.bytes_length] at hle
  rw [encode, reject_of_not (not_lt.2 hle)]
  rfl

end Sizes

end Hooks
end Kolyan
