/-
# Retry authorization

`kolyan-server/src/task_driver/retry.rs`: before a task may start another attempt,
`TaskExecutionService::authorize_retry` reads the ledger of the stopped execution,
commits a proof that embeds what it read, reads the ledger again and only then
gives the retry to the coordinator of the task.  The service is a program over the
ledger and over its host, which keeps the task journal and the active set of the
coordinator; `planProof` is what it concludes from one read.
-/

import Kolyan.Driver.Ports
import Kolyan.Lib.OrderedMaps
import Kolyan.Tasks.Coordinator

namespace Kolyan
namespace TaskDriver

open Checks Threads Ledger Tasks Driver

section Host

/-- What the host of a task service is asked: the active set of its coordinator
and the task journal behind `TaskCoordinator`. -/
inductive TaskOp where
  | isActive (executionId : String)
  | snapshot (taskId : String)
  | command (taskId factId : String) (event : TaskEvent)

/-- What it answers.  A page loop of the journal that does not end answers
nothing. -/
@[reducible] def TaskOp.Answer : TaskOp → Type
  | isActive _ => Bool
  | snapshot _ => Option (Except TaskError TaskSnapshot)
  | command _ _ _ => Option (Except TaskError TaskSnapshot)

/-- The state of the host. -/
structure TaskHostState (J : Type) where
  journal : J
  active : List String

variable {J : Type} (journal : Facts.FactJournal J) (host : TaskHost) (pages : ℕ)

/-- One operation of the host. -/
def taskStep (_ : ℕ) (state : TaskHostState J) : (o : TaskOp) → o.Answer × TaskHostState J
  | .isActive executionId => (state.active.contains executionId, state)
  | .snapshot taskId => (Tasks.snapshot journal host state.journal pages taskId, state)
  | .command taskId factId event =>
      match Tasks.command journal host state.journal pages taskId factId event with
      | some (answer, j) => (some answer, { state with journal := j })
      | none => (none, state)

/-- Programs of a task service. -/
abbrev TaskProg := Fallible (Op TaskOp) (Op.Answer TaskOp.Answer) TaskError

/-- A ledger call; its error converts. -/
def onLedger {α : Type} (p : LedgerProg TaskOp.Answer α) : TaskProg α :=
  Fallible.mapError (fun error => .invalid (ledgerText error)) p

/-- What the coordinator of the task answers. -/
def answered : Option (Except TaskError TaskSnapshot) → TaskProg TaskSnapshot
  | some answer => Fallible.lift answer
  | none => Fallible.ofProg .halt

/-- `coordinator.snapshot`. -/
def taskSnapshot (taskId : String) : TaskProg TaskSnapshot := do
  answered (← Fallible.ofProg (.ask (.host (.snapshot taskId)) fun a => .done (.ok a)))

/-- `TaskCoordinator::command`. -/
def taskCommand (taskId factId : String) (event : TaskEvent) : TaskProg TaskSnapshot := do
  answered (← Fallible.ofProg (.ask (.host (.command taskId factId event)) fun a => .done (.ok a)))

/-- `require_idle`. -/
def requireIdle (executionId : String) : TaskProg Unit := do
  let active ← Fallible.ofProg (.ask (.host (.isActive executionId)) fun a : Bool => .done (.ok a))
  Fallible.lift (reject (active = true) (.invalid "active execution cannot authorize retry"))

end Host

section Evidence

/-- What a retry is hashed and decoded by; a decoder fails with a text. -/
structure RetryCodec where
  sha256 : Value → String
  prepared : Value → Except String EffectRequest
  grant : Value → Except String EffectGrant
  request : Value → Except String ReconciliationRequest
  resolution : Value → Except String ReconciliationResolution

/-- `source_ref`. -/
def sourceRef (binding : AttemptBinding) (event : LedgerEvent) : ExecutionEvidence where
  execution := binding.execution
  eventId := event.eventId
  cursor := event.cursor

/-- `ExecutionBinding` of an attempt. -/
def executionLink (taskId : String) (binding : AttemptBinding) : Value :=
  .object [("task_id", .string taskId), ("invocation_id", .string binding.invocationId),
    ("attempt_id", .string binding.attemptId), ("session_id", .string binding.execution.sessionId),
    ("turn_id", .string binding.execution.turnId), ("execution_id", .string binding.execution.executionId)]

/-- The fact that admitted the execution. -/
def isAdmission (binding : AttemptBinding) (event : LedgerEvent) : Bool :=
  event.eventId = binding.execution.executionId ++ "/execution-started" && event.kind = .executionStarted &&
    event.payload = binding.execution.toValue

/-- The fact that bound the execution to the attempt. -/
def isLink (taskId : String) (binding : AttemptBinding) (event : LedgerEvent) : Bool :=
  event.eventId = binding.execution.executionId ++ "/task-binding" && event.kind = .executionBound &&
    event.payload = .object [("binding", executionLink taskId binding)]

/-- A cancellation, or a completion with a final answer. -/
def closesRetry (event : LedgerEvent) : Bool :=
  event.kind = .turnCancelled || event.kind = .executionCancelled ||
    (event.kind = .turnCompleted && field "reason" event.payload = .string "FinalAnswer")

/-- `validate_membership`. -/
def validateMembership (taskId : String) (binding : AttemptBinding) (facts : List LedgerEvent) :
    Except TaskError Unit := do
  reject (facts.any fun event => event.executionId ≠ binding.execution.executionId ||
      event.turnId ≠ binding.execution.turnId)
    (.invalid "foreign execution evidence")
  reject (facts.any (isAdmission binding) = false) (.invalid "missing exact admitted execution identity")
  reject (facts.any (isLink taskId binding) = false)
    (.invalid "execution is not bound to this task/invocation/attempt")
  reject (facts.any closesRetry) (.invalid "cancelled or successfully completed execution cannot retry")

/-- `required`. -/
def required (facts : List LedgerEvent) (id : String) (kind : LedgerEventKind) : Except TaskError LedgerEvent :=
  expect (facts.find? fun event => event.eventId = id && event.kind = kind)
    (.invalid ("missing effect fact " ++ id))

/-- The effect that an `EffectStarted` fact names. -/
def startedId (event : LedgerEvent) : Option String :=
  (asStr (field "effect_id" event.payload)).filter fun id => !trimEmpty id

/-- The effects that were started, each once. -/
def startedEffects : BTreeMap LedgerEvent → List LedgerEvent → Except TaskError (BTreeMap LedgerEvent)
  | started, [] => .ok started
  | started, event :: events =>
      if event.kind = .effectStarted then do
        let id ← expect (startedId event) (.invalid "started effect lacks identity")
        reject (id ∈ started) (.invalid "duplicate started effect")
        startedEffects (started.insert id event) events
      else startedEffects started events

/-- A reconciliation decision about an effect. -/
def decides (effectId : String) (event : LedgerEvent) : Bool :=
  event.kind = .effectReconciled && field "effect_id" (field "request" event.payload) = .string effectId

/-- The latest decision about an effect. -/
def latestDecision (facts : List LedgerEvent) (effectId : String) : Option LedgerEvent :=
  facts.reverse.find? (decides effectId)

/-- The prefix of the ids of an effect's facts. -/
def effectRoot (binding : AttemptBinding) (effectId : String) : String :=
  binding.execution.executionId ++ "/effect/" ++ effectId

variable (codec : RetryCodec) (binding : AttemptBinding) (facts : List LedgerEvent)

/-- The preparation and the authorization of a started effect. -/
def checkAuthorized (effectId : String) : Except TaskError Unit := do
  let preparedFact ← required facts (effectRoot binding effectId ++ "/prepared") .effectPrepared
  let prepared ← mapError .invalid (codec.prepared preparedFact.payload)
  let grantFact ← required facts (effectRoot binding effectId ++ "/authorized") .effectAuthorized
  let grant ← mapError .invalid (codec.grant grantFact.payload)
  reject (prepared.effectId ≠ effectId ∨ grant.effectId ≠ effectId ∨ prepared.inputDigest ≠ grant.inputDigest ∨
      prepared.policyRevision ≠ grant.authorityRevision ∨
      grant.authorizationId ≠ effectRoot binding effectId ++ "/authorized")
    (.invalid "reconciliation has no exact prepared/authorized effect binding")

/-- The evidence of a decision that the effect was not committed. -/
def notCommitted : ReconciliationResolution → Except TaskError String
  | .notCommitted evidence => .ok evidence
  | _ => .error (.invalid "inspection does not prove NotCommitted")

/-- The decision about a started effect. -/
def checkDecision (effectId : String) (start : LedgerEvent) : Except TaskError LedgerEvent := do
  let decision ← expect (latestDecision facts effectId) (.invalid "started effect has no trusted inspection")
  let request ← mapError .invalid (codec.request (field "request" decision.payload))
  let resolution ← mapError .invalid (codec.resolution (field "resolution" decision.payload))
  reject (request.execution.toValue ≠ binding.execution.toValue ∨ request.effectId ≠ effectId ∨
      trimEmpty request.reconciliationId ∨
      decision.eventId ≠ effectRoot binding effectId ++ "/reconciliation/" ++ request.reconciliationId ∨
      decision.cursor ≤ start.cursor)
    (.invalid "foreign or stale reconciliation evidence")
  let evidence ← notCommitted resolution
  reject (trimEmpty evidence ∨ evidence.utf8ByteSize > 16384)
    (.invalid "missing or oversized executor inspection evidence")
  return decision

/-- The proof of one started effect. -/
def proveEffect (effectId : String) (start : LedgerEvent) : Except TaskError ExecutionEvidence := do
  reject (start.eventId ≠ effectRoot binding effectId ++ "/started")
    (.invalid "noncanonical started effect identity")
  checkAuthorized codec binding facts effectId
  let decision ← checkDecision codec binding facts effectId start
  return sourceRef binding decision

/-- The proofs of the started effects, in order. -/
def proveEffects : List (String × LedgerEvent) → Except TaskError (List ExecutionEvidence)
  | [] => .ok []
  | (effectId, start) :: rest => do
      let proof ← proveEffect codec binding facts effectId start
      let proofs ← proveEffects rest
      return proof :: proofs

/-- `validate_effects`. -/
def validateEffects : Except TaskError (List ExecutionEvidence) := do
  reject (facts.any (·.kind = .effectReceipt)) (.invalid "a committed effect receipt blocks whole-attempt retry")
  let started ← startedEffects ∅ facts
  proveEffects codec binding facts started.toList

end Evidence

section Proof

/-- `RetryProof`. -/
structure RetryProof where
  taskId : String
  factId : String
  binding : AttemptBinding
  reason : String
  observedSource : Option ExecutionEvidence
  inspectedThrough : ExecutionEvidence
  reconciliations : List ExecutionEvidence

/-- `RetryProof`. -/
def RetryProof.toValue (p : RetryProof) : Value :=
  .object [("task_id", .string p.taskId), ("fact_id", .string p.factId), ("binding", p.binding.toValue),
    ("reason", .string p.reason), ("observed_source", .option ExecutionEvidence.toValue p.observedSource),
    ("inspected_through", p.inspectedThrough.toValue),
    ("reconciliations", .list ExecutionEvidence.toValue p.reconciliations)]

variable (codec : RetryCodec) (taskId factId attemptId reason : String)

/-- The id of the proof. -/
def proofId : String :=
  "retry/" ++ codec.sha256 (.array [.string taskId, .string factId, .string attemptId])

/-- The fact of a proof. -/
def proofFact (proof : RetryProof) : LedgerEvent where
  eventId := proofId codec taskId factId attemptId
  turnId := proof.binding.execution.turnId
  executionId := proof.binding.execution.executionId
  cursor := 0
  kind := .executionRetryAuthorized
  idempotencyKey := proofId codec taskId factId attemptId
  payload := .object [("proof", proof.toValue)]

/-- The same fact wherever it was committed. -/
def sameProof (candidate stored : LedgerEvent) : Bool := { stored with cursor := 0 } = candidate

/-- The bounds of the arguments. -/
def checkArguments : Except TaskError Unit :=
  reject (trimEmpty factId ∨ factId.utf8ByteSize > 256 ∨ trimEmpty reason ∨ reason.utf8ByteSize > 8192)
    (.invalid "retry requires bounded fact identity and reason")

/-- The checks of the task and of its attempt. -/
def checkRetryable (snapshot : TaskSnapshot) : Except TaskError AttemptSnapshot := do
  let attempt ← expect snapshot.attempts[attemptId]? (.invalid "unknown attempt")
  reject (snapshot.state.isTerminal ∨ attempt.cancellationRequested ∨ attempt.state.isStopped = false)
    (.invalid "retry requires a nonterminal task and a failed/recovery attempt")
  return attempt

/-- The facts of the execution but for the proof. -/
def inspected (all : List LedgerEvent) : List LedgerEvent :=
  all.filter fun event => event.eventId ≠ proofId codec taskId factId attemptId

/-- The proof that is there already. -/
def storedProof (all : List LedgerEvent) : Option LedgerEvent :=
  all.find? fun event => event.eventId = proofId codec taskId factId attemptId

/-- The original observation of the attempt is one of the facts. -/
def checkObservation (attempt : AttemptSnapshot) (facts : List LedgerEvent) : Except TaskError Unit :=
  reject (attempt.observation.any fun observation =>
      facts.all fun event => sourceRef attempt.binding event ≠ observation.source)
    (.invalid "original observation is not backed by actual execution evidence")

/-- What the facts of an execution prove about an attempt. -/
def proveRetry (attempt : AttemptSnapshot) (facts : List LedgerEvent) : Except TaskError LedgerEvent := do
  validateMembership taskId attempt.binding facts
  checkObservation attempt facts
  let last ← expect facts.getLast? (.invalid "execution has no inspection evidence")
  let reconciliations ← validateEffects codec attempt.binding facts
  return proofFact codec taskId factId attemptId {
    taskId
    factId
    binding := attempt.binding
    reason
    observedSource := attempt.observation.map (·.source)
    inspectedThrough := sourceRef attempt.binding last
    reconciliations }

/-- What the service concludes from its first read. -/
def planProof (attempt : AttemptSnapshot) (all : List LedgerEvent) : Except TaskError LedgerEvent := do
  reject (attempt.retryAuthorized ∧ (storedProof codec taskId factId attemptId all).isNone)
    (.invalid "attempt already has another retry decision")
  proveRetry codec taskId factId attemptId reason attempt (inspected codec taskId factId attemptId all)

/-- The proof that another call committed. -/
def conflictingProof (candidate : LedgerEvent) : TaskProg LedgerEvent := do
  let found ← onLedger (eventById candidate.eventId)
  let stored ← Fallible.lift (expect found (.invalid "conflicting retry proof unavailable"))
  Fallible.lift (reject (sameProof candidate stored = false) (.invalid "conflicting retry proof differs"))
  return stored

/-- The answer to the append of the proof. -/
def appendedProof (candidate : LedgerEvent) : Except LedgerError LedgerEvent → TaskProg LedgerEvent
  | .ok event => pure event
  | .error (.conflict _) => conflictingProof candidate
  | .error error => throw (.invalid (ledgerText error))

/-- The proof in the ledger. -/
def commitProof (executionId : String) (candidate : LedgerEvent) : Option LedgerEvent → TaskProg LedgerEvent
  | some stored => do
      Fallible.lift (reject (sameProof candidate stored = false)
        (.invalid "retry proof changed source, binding or reason"))
      return stored
  | none => do
      requireIdle executionId
      let answer ← Fallible.attempt (appendUnlessCancelled candidate)
      appendedProof candidate answer

variable (fuel : ℕ)

/-- The facts of an execution. -/
def executionFacts (executionId : String) : TaskProg (List LedgerEvent) :=
  onLedger (executionEventsAfter fuel executionId 0)

/-- `TaskExecutionService::authorize_retry`. -/
def authorizeRetry : TaskProg TaskSnapshot := do
  Fallible.lift (checkArguments factId reason)
  let snapshot ← taskSnapshot taskId
  let attempt ← Fallible.lift (checkRetryable attemptId snapshot)
  let executionId := attempt.binding.execution.executionId
  requireIdle executionId
  let all ← executionFacts fuel executionId
  let candidate ← Fallible.lift (planProof codec taskId factId attemptId reason attempt all)
  let committed ← commitProof executionId candidate (storedProof codec taskId factId attemptId all)
  requireIdle executionId
  -- whatever was committed since the first read takes the proof back
  let current ← executionFacts fuel executionId
  Fallible.lift (reject (current ≠ inspected codec taskId factId attemptId all ++ [committed])
    (.invalid "execution changed while authorizing retry"))
  taskCommand taskId factId (.retryAuthorized attemptId (sourceRef attempt.binding committed) reason)

end Proof

end TaskDriver
end Kolyan
