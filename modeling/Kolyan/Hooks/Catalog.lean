/-
# The hook catalog and saved bindings

`hooks/catalog.rs` and `hooks/binding.rs`: the catalog is one stream of
registrations and revocations, which every reader replays, and a binding is the one
fact of a stream of its own that saves which registrations a scope selected.  A call
is a program over the operations that it asks of the journal, of the artifact store
and of the host one after the other.
-/

import Kolyan.Agent.Bindings
import Kolyan.Hooks.Protocol
import Kolyan.Lib.Pools

namespace Kolyan
namespace Hooks

open Checks Facts Artifacts Threads

/-- What the hooks ask of the journal, the artifact store and the host. -/
inductive HookOp where
  | read (stream : String) (after limit : ℕ)
  | append (stream : String) (expected : ℕ) (batch : List FactDraft)
  /-- `ArtifactStore::put`, with `Retention::Required`. -/
  | put (bytes : Bytes)
  | get (reference : ArtifactRef) (maxBytes : ℕ)
  | cancelled
  /-- What is left of the window of a dispatch, in milliseconds. -/
  | remaining
  /-- `NativeHookHost::prepare`. -/
  | prepare (hook : RegisteredHook) (body stdin : Bytes) (timeoutMs : ℕ) (runId : String)
  /-- `InstalledHook::execute`, of the hook that is installed for a run. -/
  | execute (stream : String) (hook : RegisteredHook)

/-- What they answer. -/
@[reducible] def HookOp.Answer : HookOp → Type
  | read .. | append .. => Except FactError (List FactRecord)
  | put _ => Except ArtifactError ArtifactRef
  | get .. => Except ArtifactError Bytes
  | cancelled => Bool
  | remaining => Option ℕ
  | prepare .. => Except HookError Unit
  | execute .. => NativeOutcome

/-- A program of the hooks. -/
abbrev HookProg := Fallible HookOp HookOp.Answer HookError

section Operations

/-- `FactJournal::read`. -/
def readStream (stream : String) (after limit : ℕ) : HookProg (List FactRecord) :=
  Fallible.mapError .journal (Fallible.ofProg (.call (HookOp.read stream after limit)))

/-- `FactJournal::append`. -/
def appendTo (stream : String) (expected : ℕ) (batch : List FactDraft) : HookProg (List FactRecord) :=
  Fallible.mapError .journal (Fallible.ofProg (.call (HookOp.append stream expected batch)))

/-- `ArtifactStore::put`, with `Retention::Required`. -/
def putArtifact (bytes : Bytes) : HookProg ArtifactRef :=
  Fallible.mapError .artifact (Fallible.ofProg (.call (HookOp.put bytes)))

/-- `ArtifactStore::read`. -/
def getArtifact (reference : ArtifactRef) (maxBytes : ℕ) : HookProg Bytes :=
  Fallible.mapError .artifact (Fallible.ofProg (.call (HookOp.get reference maxBytes)))

end Operations

/-- `reference`. -/
def reference (row : FactRecord) : FactRef := ⟨row.streamId, row.position, row.draft.factId⟩

/-- `invalid`, in `catalog.rs`, of what could not be read. -/
def unreadable {α : Type} (x : Except String α) : Except HookError α := mapError .integrity x

variable (codec : HookCodec)

/-- The stream of a catalog. -/
def catalogStream (name : String) : Except HookError String := do
  id name
  let digest ← hash codec (.array [.string "kolyan.hooks.catalog.v1", .string name])
  return "agent.hooks.catalog." ++ digest

/-- `HookCatalog`, less its stores: its namespace and its stream. -/
structure HookCatalog where
  name : String
  stream : String
  named : catalogStream codec name = .ok stream

/-- `State`. -/
structure State where
  head : ℕ
  entries : Std.ExtTreeMap HookKey RegisteredHook
  revoked : Std.ExtTreeMap HookKey FactRef
  operations : Std.ExtTreeMap String (Revocation × FactRef)

/-- The state before the first row. -/
def State.empty : State := ⟨0, ∅, ∅, ∅⟩

section Ownership

/-- SHA-256 of the encoding of a value. -/
def HookCodec.digest (value : Value) : String := codec.sha256 (codec.bytes value)

/-- `binding_draft`. -/
def bindingDraft (saved : SavedBinding) (factId : String) : Except HookError FactDraft := do
  let payload := saved.toValue.canonical
  let _ ← encode codec payload
  return {
    factId
    subject := ⟨"agent.hook.binding", saved.scope.invocationId⟩
    kind := "agent.hook.bound"
    schemaVersion := 1
    critical := true
    causes := saved.ownership :: saved.hooks.map (·.reference)
    payload }

/-- What `owner` makes of the rows of an ownership. -/
def ownerOf (scope : HookScope) (rows : List FactRecord) : Except HookError (Agent.AgentKey × FactRef) := do
  let loaded ← mapError (fun error => .integrity error.toString)
    (Agent.loadOwnership codec.ownership scope.taskId scope.invocationId scope.logicalSessionId rows)
  let binding ← expect loaded (.integrity "ownership missing")
  let expected ← HookScope.fromBinding binding scope.executionId scope.turnId
  reject (expected ≠ scope) (.integrity "foreign private context")
  return (binding.snapshot.definition.key, Agent.ownershipReference codec.digest scope.taskId scope.invocationId)

/-- `owner`. -/
def owner (scope : HookScope) : HookProg (Agent.AgentKey × FactRef) := do
  Fallible.lift (mapError (fun error => .integrity error.toString)
    (forEach Agent.validateId [scope.taskId, scope.invocationId, scope.logicalSessionId]))
  let rows ← readStream (Agent.ownershipStream codec.digest scope.taskId scope.invocationId) 0 2
  Fallible.lift (ownerOf codec scope rows)

end Ownership

namespace HookCatalog

variable {codec} (catalog : HookCatalog codec)

/-! ### Replay -/

/-- `draft`. -/
def draft (kind : String) (key : HookKey) (causes : List FactRef) (payload : Value) : Except HookError FactDraft := do
  let _ ← encode codec payload
  let identity ← hash codec (.array [.string "kolyan.hooks.definition.v1", .string catalog.name, key.toValue])
  return {
    factId := "agent.hook.registration." ++ identity
    subject := ⟨"agent.hook", identity⟩
    kind
    schemaVersion := 1
    critical := true
    causes
    payload }

/-- The fact that registers a hook. -/
def registrationDraft (key : HookKey) (payload : Value) : Except HookError FactDraft :=
  catalog.draft "agent.hook.registered" key [] payload

/-- The fact that revokes a registration: its identity is that of the operation. -/
def revocationDraft (key : HookKey) (registration : FactRef) (operationId : String) (payload : Value) :
    Except HookError FactDraft := do
  let draft ← catalog.draft "agent.hook.revoked" key [registration] payload
  let identity ← hash codec (.array [.string catalog.name, .string operationId])
  return { draft with factId := "agent.hook.revocation." ++ identity }

/-- What `replay` does with a registration. -/
def replayRegistration (state : State) (row : FactRecord) : Except HookError State := do
  let payload ← unreadable (codec.registration row.draft.payload)
  payload.manifest.validate
  reject (payload.catalog ≠ catalog.name ∨ payload.body.retention ≠ .required ∨ isDigest payload.body.digest = false ∨
      ¬(1 ≤ payload.body.byteLength ∧ payload.body.byteLength ≤ 32 * 1024) ∨ state.entries.size ≥ 128 ∨
      state.entries[payload.manifest.key]?.isSome)
    (.integrity "invalid registration")
  let expected ← catalog.registrationDraft payload.manifest.key row.draft.payload
  reject (row.draft ≠ expected) (.integrity "invalid registration")
  return { state with
    entries := state.entries.insert payload.manifest.key ⟨payload.manifest, payload.body, reference row⟩ }

/-- What `replay` does with a revocation. -/
def replayRevocation (state : State) (row : FactRecord) : Except HookError State := do
  let payload ← unreadable (codec.revocation row.draft.payload)
  id payload.operationId
  reject (trimEmpty payload.reason ∨ payload.reason.utf8ByteSize > 1024) (.integrity "invalid revocation reason")
  let original ← expect state.entries[payload.key]? (.integrity "missing registration")
  let expected ← catalog.revocationDraft payload.key original.reference payload.operationId row.draft.payload
  reject (payload.registration ≠ original.reference ∨ expected ≠ row.draft ∨ state.revoked[payload.key]?.isSome ∨
      state.operations[payload.operationId]?.isSome)
    (.integrity "invalid revocation")
  return { state with
    revoked := state.revoked.insert payload.key (reference row)
    operations := state.operations.insert payload.operationId (payload, reference row) }

/-- What `replay` does with a row of a kind. -/
def replayFact (state : State) (row : FactRecord) : Except HookError State :=
  if row.draft.kind = "agent.hook.registered" then catalog.replayRegistration state row
  else if row.draft.kind = "agent.hook.revoked" then catalog.replayRevocation state row
  else .error (.integrity "unknown hook fact")

/-- One round of the loop of `replay`. -/
def replayRow (state : State) (row : FactRecord) : Except HookError State := do
  reject (row.position ≠ state.head + 1 ∨ row.streamId ≠ catalog.stream ∨ row.draft.schemaVersion ≠ 1 ∨
      row.draft.critical = false)
    (.integrity "invalid catalog envelope")
  let _ ← encode codec row.draft.payload
  let state ← catalog.replayFact state row
  reject (row.position > 256) .capacity
  return { state with head := row.position }

/-- The loop of `replay`. -/
def replayRows (rows : List FactRecord) : Except HookError State := rows.foldlM catalog.replayRow State.empty

/-- `replay`. -/
def replay : HookProg State := do
  let rows ← readStream catalog.stream 0 257
  Fallible.lift (catalog.replayRows rows)

/-- `body`. -/
def body (hook : RegisteredHook) : HookProg Bytes := getArtifact hook.body (32 * 1024)

/-- `append`: who loses the comparison reads the winner. -/
def appendFact (head : ℕ) (draft : FactDraft) : HookProg Unit := do
  let appended ← Fallible.attempt (Fallible.ofProg (.call (HookOp.append catalog.stream head [draft])) :
    Fallible HookOp HookOp.Answer FactError (List FactRecord))
  match appended with
  | .ok _ | .error (.conflict _) | .error (.stalePosition ..) => pure ()
  | .error error => throw (.journal error)

/-! ### Registration and revocation -/

/-- What `register` answers of a key that is registered. -/
def registered (payload : Registration) (old : RegisteredHook) : Except HookError RegisteredHook :=
  if old.manifest = payload.manifest ∧ old.body = payload.body then .ok old else .error .conflict

/-- What `register` does of a key that is not registered. -/
def registerNew (payload : Registration) (state : State) : HookProg RegisteredHook := do
  Fallible.lift (reject (state.entries.size ≥ 128) .capacity)
  let draft ← Fallible.lift (catalog.registrationDraft payload.manifest.key payload.toValue.canonical)
  catalog.appendFact state.head draft
  let state ← catalog.replay
  let saved ← Fallible.lift (expect state.entries[payload.manifest.key]? .conflict)
  Fallible.lift (registered payload saved)

/-- `register`; `bytes` are those of the body, which is a text. -/
def register (manifest : HookManifest) (bytes : Bytes) : HookProg RegisteredHook := do
  Fallible.lift manifest.validate
  Fallible.lift (reject (bytes = [] ∨ bytes.length > 32 * 1024 ∨ (0 : UInt8) ∈ bytes) .capacity)
  let body ← putArtifact bytes
  let payload : Registration := { catalog := catalog.name, manifest, body }
  let state ← catalog.replay
  match state.entries[manifest.key]? with
  | some old => Fallible.lift (registered payload old)
  | none => catalog.registerNew payload state

/-- What `revoke` answers of an operation that was carried out. -/
def revokedBy (payload : Revocation) (done : Revocation × FactRef) : Except HookError FactRef :=
  if done.1 = payload then .ok done.2 else .error .conflict

/-- What `revoke` does of a new operation. -/
def revokeNew (payload : Revocation) (state : State) : HookProg FactRef := do
  let saved ← Fallible.lift (expect state.entries[payload.key]? (.integrity "registration missing"))
  Fallible.lift (reject (saved.reference ≠ payload.registration) (.integrity "foreign registration"))
  Fallible.lift (reject (state.revoked[payload.key]?.isSome = true) .revoked)
  let draft ← Fallible.lift
    (catalog.revocationDraft payload.key payload.registration payload.operationId payload.toValue.canonical)
  catalog.appendFact state.head draft
  let state ← catalog.replay
  let done ← Fallible.lift (expect state.operations[payload.operationId]? .conflict)
  Fallible.lift (revokedBy payload done)

/-- `revoke`. -/
def revoke (key : HookKey) (registration : FactRef) (operationId reason : String) : HookProg FactRef := do
  Fallible.lift key.validate
  Fallible.lift (id operationId)
  Fallible.lift (reject (trimEmpty reason ∨ reason.utf8ByteSize > 1024) (.invalid "invalid revocation reason"))
  let payload : Revocation := { key, registration, operationId, reason }
  let state ← catalog.replay
  match state.operations[operationId]? with
  | some done => Fallible.lift (revokedBy payload done)
  | none => catalog.revokeNew payload state

/-! ### Bindings -/

/-- `binding_coordinates`. -/
def bindingCoordinates (scope : HookScope) : Except HookError (String × String) := do
  let digest ← hash codec (.array [.string "kolyan.hooks.binding.v1", .string catalog.name, scope.toValue])
  return ("agent.hooks.binding." ++ digest, "agent.hook.binding." ++ digest)

/-- What `restore_binding` makes of the rows of a binding. -/
def savedIn (fact : FactRef) (scope : HookScope) (factId : String) (rows : List FactRecord) :
    Except HookError SavedBinding := do
  let row ← expect (match rows with | [row] => some row | _ => none) (.integrity "missing/extra binding facts")
  let _ ← encode codec row.draft.payload
  let saved ← unreadable (codec.binding row.draft.payload)
  reject (saved.catalog ≠ catalog.name ∨ saved.scope ≠ scope ∨ saved.hooks.length > 8 ∨
      isDigest saved.policyDigest = false ∨ isDigest saved.nativeDigest = false)
    (.integrity "invalid binding envelope")
  let expected ← bindingDraft codec saved factId
  reject (row.draft ≠ expected ∨ reference row ≠ fact) (.integrity "invalid binding envelope")
  return saved

/-- The loop of `restore_binding` over the selected hooks. -/
def checkSelection (state : State) : Option HookKey → List RegisteredHook → Except HookError Unit
  | _, [] => .ok ()
  | previous, hook :: hooks => do
    reject (previous.any (fun old => compare old hook.manifest.key ≠ .lt) ∨
        state.entries[hook.manifest.key]? ≠ some hook)
      (.integrity "selection changed")
    checkSelection state (some hook.manifest.key) hooks

/-- `restore_binding`. -/
def restoreBinding (fact : FactRef) (scope : HookScope) : HookProg VerifiedHookBinding := do
  Fallible.lift scope.validate
  let (stream, factId) ← Fallible.lift (catalog.bindingCoordinates scope)
  Fallible.lift (reject (fact.streamId ≠ stream ∨ fact.position ≠ 1 ∨ fact.factId ≠ factId)
    (.integrity "foreign binding coordinates"))
  let rows ← readStream stream 0 2
  let saved ← Fallible.lift (catalog.savedIn fact scope factId rows)
  let (agent, ownership) ← owner codec scope
  Fallible.lift (reject (agent ≠ saved.agent ∨ ownership ≠ saved.ownership) (.integrity "ownership changed"))
  let state ← catalog.replay
  Fallible.lift (checkSelection state none saved.hooks)
  return { saved, reference := fact }

/-- What `validate_current` asks of one selected hook. -/
def hookCurrent (binding : VerifiedHookBinding) (policy : HookAccessPolicy) (state : State) (hook : RegisteredHook) :
    Except HookError Unit := do
  reject (state.revoked[hook.manifest.key]?.isSome = true) .revoked
  reject (hook.manifest.phases.toList.any fun phase =>
      !policy.permits binding.saved.agent binding.saved.scope hook.manifest.key phase)
    .permission

/-- `validate_current`. -/
def validateCurrent (binding : VerifiedHookBinding) (policy : HookAccessPolicy) (nativeDigest : String) :
    HookProg Unit := do
  let restored ← catalog.restoreBinding binding.reference binding.saved.scope
  Fallible.lift (reject (restored ≠ binding) (.integrity "binding changed"))
  Fallible.lift (reject (binding.saved.policyDigest ≠ policy.digest ∨ binding.saved.nativeDigest ≠ nativeDigest)
    .permission)
  let state ← catalog.replay
  Fallible.lift (forEach (hookCurrent binding policy state) binding.saved.hooks)

end HookCatalog

end Hooks
end Kolyan
