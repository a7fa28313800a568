/-
# Invocation input sources

`crates/kolyan-server/src/tasks/input.rs`: the immutable fact an invocation
takes its input from, published once on a stream of its own, and the check of
its causal closure that admission and replay make.  The journal is any
implementation of the trait `FactJournal`; `serde`, `sha2` and the goal verifier
are the fields of `TaskHost`.
-/

import Kolyan.Facts.Contract
import Kolyan.Tasks.Reducer

namespace Kolyan
namespace Tasks

open Checks Facts

/-- `MAX_BYTES`. -/
def maxBytes : ℕ := 16 * 1024 * 1024

/-- `MAX_CAUSAL_RECORDS`. -/
def maxCausalRecords : ℕ := 1024

/-- `KIND`. -/
def inputSourceKind : String := "task.invocation_input_source"

/-- `INVOCATION_INPUT_SOURCE_SUBJECT_KIND`. -/
def inputSourceSubjectKind : String := "task.invocation-input-source"

/-- `InvocationInputScope`. -/
structure InvocationInputScope where
  taskId : String
  invocationId : String
  agent : AgentIdentity
  constraintsDigest : String
  deriving DecidableEq

/-- `InvocationInputEnvelope`. -/
structure InvocationInputEnvelope where
  kind : InvocationInputKind
  scope : InvocationInputScope
  body : Value

/-- `VerifiedInvocationInputSource`. -/
structure VerifiedInvocationInputSource where
  reference : FactRef
  envelope : InvocationInputEnvelope
  causes : List FactRef

/-- `InvocationInputScope`. -/
def InvocationInputScope.toValue (s : InvocationInputScope) : Value :=
  .object [("task_id", .string s.taskId), ("invocation_id", .string s.invocationId),
    ("agent", s.agent.toValue), ("constraints_digest", .string s.constraintsDigest)]

/-- `InvocationInputEnvelope`. -/
def InvocationInputEnvelope.toValue (e : InvocationInputEnvelope) : Value :=
  .object [("kind", e.kind.toValue), ("scope", e.scope.toValue), ("body", e.body)]

/-- `VerifiedInvocationInputSource`. -/
def VerifiedInvocationInputSource.toValue (v : VerifiedInvocationInputSource) : Value :=
  .object [("reference", v.reference.toValue), ("envelope", v.envelope.toValue),
    ("causes", .list FactRef.toValue v.causes)]

/-- What the coordinator takes from outside the repository: the digest of a
document's compact encoding, `serde`'s decoders, and the verifier of the host. -/
structure TaskHost where
  sha256 : Value → String
  decodeEvent : Value → Except String TaskEvent
  decodeEnvelope : Value → Except String InvocationInputEnvelope
  goalVerifier : Option TaskGoalVerifier

/-- `event_source`. -/
def eventSource : TaskEvent → Option InvocationInputSource
  | .invocationAdmitted definition => some definition.inputSource
  | .attemptStarted binding | .budgetedAttemptStarted binding _ => some binding.inputSource
  | _ => none

/-- `coordinate`. -/
def coordinate (sha256 : Value → String) (scope : InvocationInputScope) : String :=
  "task.invocation-input-source." ++
    sha256 (.array [.string "kolyan.server.invocation-input-source.v1", .string scope.taskId,
      .string scope.invocationId])

/-- A lower-case hexadecimal digit. -/
def isLowerHexDigit (c : Char) : Bool := ('0' ≤ c && c ≤ '9') || ('a' ≤ c && c ≤ 'f')

/-- `validate_scope`. -/
def validateScope (scope : InvocationInputScope) : Except TaskError Unit := do
  forEach identity [scope.taskId, scope.invocationId, scope.agent.definitionId,
    scope.agent.revision, scope.agent.instanceId]
  reject (scope.constraintsDigest.utf8ByteSize ≠ 64 ∨
      ¬scope.constraintsDigest.toList.all isLowerHexDigit)
    (.invalid "invalid input constraints digest")

/-- `bound`. -/
def bound (value : Value) (limit : ℕ) : Except TaskError Unit :=
  reject (value.encodedLen > limit) (.invalid "input source evidence exceeds host ceiling")

section Causes

variable {J : Type} (journal : FactJournal J) (j : J)

/-- A read of the journal by the coordinator. -/
def readFacts (stream : String) (after limit : ℕ) : Except TaskError (List FactRecord) :=
  mapError .journal (journal.read j stream after limit)

/-- `Walk`. -/
inductive Walk where
  | enter (reference : FactRef)
  | exit (key : FactRef)

/-- The state of the causal scan.  A `CausalKey` has the fields of a reference. -/
structure CausalScan where
  black : List FactRef
  gray : List FactRef
  bytes : ℕ
  stack : List Walk

/-- A list of causes repeats none. -/
def hasDuplicate (causes : List FactRef) : Bool := decide ¬causes.Nodup

/-- What a cause's own record must look like. -/
def checkCausalRecord (reference : FactRef) (record : FactRecord) : Except TaskError Unit :=
  reject (record.streamId ≠ reference.streamId ∨ record.position ≠ reference.position ∨
      record.draft.factId ≠ reference.factId ∨ ¬record.draft.critical ∨
      record.draft.causes.length > 32)
    (.invalid "foreign or noncritical input cause")

/-- The record at a cause's coordinates. -/
def readCause (reference : FactRef) : Except TaskError FactRecord := do
  let rows ← readFacts journal j reference.streamId (reference.position - 1) 1
  match rows with
  | [record] => .ok record
  | _ => .error (.invalid "missing or ambiguous input cause")

/-- `Walk::Enter` of a reference that was not seen before. -/
def expandCause (scan : CausalScan) (reference : FactRef) : Except TaskError CausalScan := do
  reject (scan.black.length + scan.gray.length ≥ maxCausalRecords)
    (.invalid "input causal scan count exceeded")
  let record ← readCause journal j reference
  checkCausalRecord reference record
  let bytes ← expect (checkedAdd scan.bytes record.toValue.encodedLen)
    (.invalid "input causal byte overflow")
  reject (bytes > maxBytes) (.invalid "input causal scan byte ceiling exceeded")
  reject (hasDuplicate record.draft.causes ∨ record.draft.causes.any fun cause =>
      cause.streamId = record.streamId && cause.position ≥ record.position)
    (.invalid "duplicate or nonhistorical causal reference")
  pure { scan with
    gray := reference :: scan.gray
    bytes := bytes
    stack := record.draft.causes.map .enter ++ .exit reference :: scan.stack }

/-- `Walk::Enter`. -/
def enterCause (stream : String) (scan : CausalScan) (reference : FactRef) :
    Except TaskError CausalScan := do
  reject (reference.position = 0 ∨ reference.streamId = stream)
    (.invalid "cyclic or nonhistorical input cause")
  identity reference.streamId
  identity reference.factId
  reject (reference ∈ scan.gray) (.invalid "cyclic input cause")
  if reference ∈ scan.black then .ok scan else expandCause journal j scan reference

/-- The loop over the stack.  Every visit but the first 32 was pushed with one of
at most `maxCausalRecords` records, so `causalFuel` visits are enough. -/
def scanCauses (stream : String) : ℕ → CausalScan → Except TaskError Unit
  | 0, _ => .error .panicked
  | fuel + 1, scan =>
      match scan.stack with
      | [] => .ok ()
      | .exit key :: stack =>
          scanCauses stream fuel
            { scan with gray := scan.gray.erase key, black := key :: scan.black, stack := stack }
      | .enter reference :: stack => do
          let scan ← enterCause journal j stream { scan with stack := stack } reference
          scanCauses stream fuel scan

/-- A bound on the visits of one scan. -/
def causalFuel : ℕ := 32 + maxCausalRecords * 33 + 1

/-- `validate_causes`. -/
def validateCauses (causes : List FactRef) (stream : String) : Except TaskError Unit := do
  reject (causes = [] ∨ causes.length > 32) (.invalid "missing or oversized input causes")
  reject (hasDuplicate causes) (.invalid "duplicate input cause")
  scanCauses journal j stream causalFuel ⟨[], [], 0, causes.map .enter⟩

variable (host : TaskHost)

/-- The subject of an input source. -/
def inputSourceSubject (invocationId : String) : FactSubject := ⟨inputSourceSubjectKind, invocationId⟩

/-- The fact envelope an input source must have. -/
def checkSourceRecord (stream : String) (expected : InvocationInputScope) (record : FactRecord) :
    Except TaskError Unit :=
  reject (record.streamId ≠ stream ∨ record.position ≠ 1 ∨ record.draft.factId ≠ stream ∨
      record.draft.kind ≠ inputSourceKind ∨ record.draft.schemaVersion ≠ 1 ∨
      ¬record.draft.critical ∨ record.draft.subject ≠ inputSourceSubject expected.invocationId)
    (.invalid "invalid input source fact envelope")

/-- The only record of an input source stream. -/
def readSource (stream : String) : Except TaskError FactRecord := do
  let rows ← readFacts journal j stream 0 2
  match rows with
  | [record] => .ok record
  | _ => .error (.invalid "missing or ambiguous input source")

/-- `load_verified_invocation_input_source`. -/
def loadVerifiedInvocationInputSource (source : InvocationInputSource)
    (expected : InvocationInputScope) (limit : ℕ) :
    Except TaskError VerifiedInvocationInputSource := do
  reject (limit = 0 ∨ limit > maxBytes) (.invalid "invalid input source host ceiling")
  validateScope expected
  let stream := coordinate host.sha256 expected
  reject (source.fact ≠ ⟨stream, 1, stream⟩) (.invalid "foreign input source coordinate")
  let record ← readSource journal j stream
  bound record.toValue limit
  checkSourceRecord stream expected record
  let envelope ← mapError .invalid (host.decodeEnvelope record.draft.payload)
  reject (envelope.scope ≠ expected ∨ envelope.kind ≠ source.kind ∨
      envelope.toValue ≠ record.draft.payload)
    (.invalid "input source scope/kind or known fields differ")
  validateCauses journal j record.draft.causes stream
  let value : VerifiedInvocationInputSource := ⟨source.fact, envelope, record.draft.causes⟩
  bound value.toValue limit
  pure value

/-- The invocation a source event is about, with the agent and constraints it claims. -/
def sourceScope (taskId : String) : TaskEvent → Option InvocationInputScope
  | .invocationAdmitted definition =>
      some ⟨taskId, definition.invocationId, definition.agent, definition.constraintsDigest⟩
  | .attemptStarted binding | .budgetedAttemptStarted binding _ =>
      some ⟨taskId, binding.invocationId, binding.agent, binding.constraintsDigest⟩
  | _ => none

/-- A continuation's source must be caused by the completion of its predecessor. -/
def checkPredecessor (state : TaskSnapshot) (invocation : InvocationSnapshot)
    (causes : List FactRef) : Except TaskError Unit :=
  if invocation.definition.role = .continuation then do
    let parent ← expect (invocation.definition.parentInvocationId.bind fun id =>
      state.invocations[id]?) (.invalid "source predecessor is absent")
    let completed ← expect parent.completionFact (.invalid "source predecessor completion is absent")
    reject (completed ∉ causes)
      (.invalid "Continuation source lacks exact predecessor completion cause")
  else .ok ()

/-- `verify_input_event`, after the event was applied. -/
def verifyInputEvent (taskId : String) (event : TaskEvent) (record : FactRecord)
    (snapshot : TaskSnapshot) : Except TaskError Unit :=
  match eventSource event with
  | none => .ok ()
  | some source => do
      let scope ← expect (sourceScope taskId event) (.invalid "unsupported source event")
      reject (source.fact ∉ record.draft.causes)
        (.invalid "Task input source causal binding is missing")
      let verified ← loadVerifiedInvocationInputSource journal j host source scope maxBytes
      let invocation ← expect snapshot.invocations[scope.invocationId]?
        (.invalid "source invocation is absent")
      reject (invocation.definition.inputSource ≠ source)
        (.invalid "attempt source differs from admitted source")
      checkPredecessor snapshot invocation verified.causes

def inputSourceDraft (stream : String) (envelope : InvocationInputEnvelope)
    (causes : List FactRef) : FactDraft where
  factId := stream
  subject := inputSourceSubject envelope.scope.invocationId
  kind := inputSourceKind
  schemaVersion := 1
  critical := true
  causes := causes
  payload := envelope.toValue

/-- The checks of `publish_invocation_input_source` before it touches the journal. -/
def checkPublication (envelope : InvocationInputEnvelope) (causes : List FactRef) :
    Except TaskError Unit := do
  validateScope envelope.scope
  let stream := coordinate host.sha256 envelope.scope
  validateCauses journal j causes stream
  bound (FactRecord.toValue ⟨stream, 1, inputSourceDraft stream envelope causes⟩) maxBytes

/-- The exact winner, read back after the append. -/
def finishPublication (envelope : InvocationInputEnvelope) (causes : List FactRef)
    (rows : List FactRecord) : Except TaskError VerifiedInvocationInputSource := do
  let stream := coordinate host.sha256 envelope.scope
  reject (rows ≠ [⟨stream, 1, inputSourceDraft stream envelope causes⟩])
    (.invalid "invocation input source content conflicts")
  let fact : FactRef := ⟨stream, 1, stream⟩
  let source : InvocationInputSource :=
    match envelope.kind with
    | .standalone => .standalone fact
    | .derived => .derived fact
  loadVerifiedInvocationInputSource journal j host source envelope.scope maxBytes

/-- The append of a publication whose stream was empty, and the read after it. -/
def appendPublication (envelope : InvocationInputEnvelope) (causes : List FactRef) :
    Except TaskError VerifiedInvocationInputSource × J :=
  let stream := coordinate host.sha256 envelope.scope
  let (appended, j) := journal.append j stream 0 [inputSourceDraft stream envelope causes]
  (do
    let rows ← readFacts journal j stream 0 2
    if rows = [] then do
      let _ ← mapError .journal appended
      .error (.invalid "source append has no durable record")
    else finishPublication journal j host envelope causes rows, j)

/-- `publish_invocation_input_source`. -/
def publishInvocationInputSource (envelope : InvocationInputEnvelope) (causes : List FactRef) :
    Except TaskError VerifiedInvocationInputSource × J :=
  match checkPublication journal j host envelope causes with
  | .error e => (.error e, j)
  | .ok () =>
      match readFacts journal j (coordinate host.sha256 envelope.scope) 0 2 with
      | .error e => (.error e, j)
      | .ok [] => appendPublication journal j host envelope causes
      | .ok rows => (finishPublication journal j host envelope causes rows, j)

end Causes

end Tasks
end Kolyan
