/-
# The task coordinator

`crates/kolyan-server/src/tasks/coordinator.rs`: the page loop over a task
stream, `replay`, and `command`, split where the source touches the journal:
reading the stream (`records`), the local decision on what was read
(`planCommand`) and the one append (`finishAppend`).
-/

import Kolyan.Tasks.Input

namespace Kolyan
namespace Tasks

open Checks Facts

/-- `PAGE_SIZE`. -/
def pageSize : ℕ := 512

/-- `VERSION`. -/
def version : ℕ := 1

/-- A `task.*` subject. -/
def taskSubject (kind id : String) : FactSubject := ⟨"task." ++ kind, id⟩

/-- `envelope`: the kind and subject of an event. -/
def envelope (taskId : String) : TaskEvent → String × FactSubject
  | .executionBudgetConfigured _ =>
      ("task.execution_budget_configured", taskSubject "budget" taskId)
  | .budgetedAttemptStarted binding _ =>
      ("task.budgeted_attempt_started", taskSubject "attempt" binding.attemptId)
  | .goalAssessed assessment => ("task.goal_assessed", taskSubject "goal" assessment.criterionId)
  | .registered _ => ("task.registered", taskSubject "task" taskId)
  | .invocationAdmitted definition =>
      ("task.invocation_admitted", taskSubject "invocation" definition.invocationId)
  | .dependencyAdmitted invocationId _ =>
      ("task.dependency_admitted", taskSubject "invocation" invocationId)
  | .attemptStarted binding => ("task.attempt_started", taskSubject "attempt" binding.attemptId)
  | .attemptObserved observation =>
      ("task.attempt_observed", taskSubject "attempt" observation.attemptId)
  | .attemptResumed binding _ => ("task.attempt_resumed", taskSubject "attempt" binding.attemptId)
  | .recoveryNeeded attemptId _ => ("task.recovery_needed", taskSubject "attempt" attemptId)
  | .retryAuthorized attemptId _ _ => ("task.retry_authorized", taskSubject "attempt" attemptId)
  | .resultConsumed invocationId _ =>
      ("task.result_consumed", taskSubject "invocation" invocationId)
  | .terminalResultConsumed invocationId _ =>
      ("task.terminal_result_consumed", taskSubject "invocation" invocationId)
  | .completed _ => ("task.completed", taskSubject "task" taskId)
  | .cancelled _ => ("task.cancelled", taskSubject "task" taskId)
  | .failed _ => ("task.failed", taskSubject "task" taskId)

/-- The kinds `replay` knows. -/
def knownKinds : List String :=
  ["task.registered", "task.execution_budget_configured", "task.budgeted_attempt_started",
    "task.goal_assessed", "task.invocation_admitted", "task.dependency_admitted",
    "task.attempt_started", "task.attempt_observed", "task.attempt_resumed", "task.recovery_needed",
    "task.retry_authorized", "task.result_consumed", "task.terminal_result_consumed",
    "task.completed", "task.cancelled", "task.failed"]

theorem envelope_kind_known (taskId : String) (event : TaskEvent) :
    (envelope taskId event).1 ∈ knownKinds := by
  cases event <;> simp [envelope, knownKinds]

/-- A task transition, which replay applies: a known kind at the known version. -/
def isTransition (draft : FactDraft) : Bool := draft.kind ∈ knownKinds && draft.schemaVersion = version

section Coordinator

variable {J : Type} (journal : FactJournal J) (host : TaskHost) (j : J)

/-! ### Reading the stream -/

/-- The records of one page, each right after the one before. -/
def absorbPage (taskId : String) :
    ℕ → List FactRecord → List FactRecord → Except TaskError (ℕ × List FactRecord)
  | after, acc, [] => .ok (after, acc)
  | after, acc, record :: page => do
      reject (record.streamId ≠ taskId)
        (.invalid "journal returned noncontiguous or foreign records")
      let next ← expect (checkedAdd after 1) (.invalid "position overflow")
      reject (record.position ≠ next) (.invalid "journal returned noncontiguous or foreign records")
      absorbPage taskId record.position (acc ++ [record]) page

/-- The page read of one round of `records`. -/
def readPage (taskId : String) (after : ℕ) (acc : List FactRecord) :
    Except TaskError (ℕ × List FactRecord) := do
  let page ← readFacts journal j taskId after pageSize
  reject (page.length > pageSize) (.invalid "journal returned oversized page")
  absorbPage taskId after acc page

/-- The tail read of one round: whether there is more. -/
def readTail (taskId : String) (after : ℕ) : Except TaskError Bool := do
  let tail ← readFacts journal j taskId after 1
  match tail with
  | [] => .ok false
  | [record] => do
      reject (record.streamId ≠ taskId ∨ record.position ≠ after + 1)
        (.invalid "journal did not advance")
      .ok true
  | _ => .error (.invalid "journal did not advance")

/-- The loop of `records`.  `none` is a loop that has not ended within `fuel`
rounds. -/
def recordsFrom (taskId : String) : ℕ → ℕ → List FactRecord → Option (Except TaskError (List FactRecord))
  | 0, _, _ => none
  | fuel + 1, after, acc =>
      match readPage journal j taskId after acc with
      | .error e => some (.error e)
      | .ok (after, acc) =>
          match readTail journal j taskId after with
          | .error e => some (.error e)
          | .ok false => some (.ok acc)
          | .ok true => recordsFrom taskId fuel after acc

/-- `records`. -/
def records (fuel : ℕ) (taskId : String) : Option (Except TaskError (List FactRecord)) :=
  match identity taskId with
  | .error e => some (.error e)
  | .ok () => recordsFrom journal j taskId fuel 0 []

/-! ### Replay -/

/-- The variables of the loop of `replay`. -/
structure ReplayState where
  snapshot : Option TaskSnapshot
  previous : Option FactRef

/-- `ReplayState` before the first record. -/
def ReplayState.initial : ReplayState := ⟨none, none⟩

/-- The stream a registration belongs to. -/
def checkRegistration (taskId : String) : TaskEvent → Except TaskError Unit
  | .registered definition =>
      reject (definition.taskId ≠ taskId) (.invalid "registration belongs to another task stream")
  | _ => .ok ()

/-- A known transition in the loop of `replay`. -/
def replayTransition (taskId : String) (state : ReplayState) (record : FactRecord) :
    Except TaskError TaskSnapshot := do
  reject (¬record.draft.critical) (.invalid "task transitions must be critical")
  let event ← mapError .invalid (host.decodeEvent record.draft.payload)
  reject ((envelope taskId event).1 ≠ record.draft.kind ∨
      (envelope taskId event).2 ≠ record.draft.subject ∨
      state.previous.any fun cause => cause ∉ record.draft.causes)
    (.invalid "task envelope/subject/causal predecessor mismatch")
  checkRegistration taskId event
  verifyEvent host.sha256 host.goalVerifier state.snapshot event record
  let snapshot ← apply host.sha256 state.snapshot event record
  verifyInputEvent journal j host taskId event record snapshot
  pure snapshot

/-- The snapshot after one record, before its position is stored. -/
def replaySnapshot (taskId : String) (state : ReplayState) (record : FactRecord) :
    Except TaskError (Option TaskSnapshot) :=
  if isTransition record.draft then do
    let snapshot ← replayTransition journal host j taskId state record
    pure (some snapshot)
  else do
    reject record.draft.critical (.invalid "unknown critical kind or version")
    pure state.snapshot

/-- A snapshot at the position of the record it was replayed to. -/
def TaskSnapshot.moveTo (state : TaskSnapshot) (position : ℕ) : TaskSnapshot :=
  { state with position := position }

/-- One round of `replay`. -/
def replayRecord (taskId : String) (state : ReplayState) (record : FactRecord) :
    Except TaskError ReplayState := do
  let snapshot ← replaySnapshot journal host j taskId state record
  pure ⟨snapshot.map fun state => state.moveTo record.position, some (reference record)⟩

/-- The loop of `replay`. -/
def replayFrom (taskId : String) : ReplayState → List FactRecord → Except TaskError ReplayState
  | state, [] => .ok state
  | state, record :: rest => do
      let state ← replayRecord journal host j taskId state record
      replayFrom taskId state rest

/-- `replay`. -/
def replay (taskId : String) (records : List FactRecord) : Except TaskError (Option TaskSnapshot) := do
  let state ← replayFrom journal host j taskId .initial records
  pure state.snapshot

/-- `snapshot`. -/
def snapshot (fuel : ℕ) (taskId : String) : Option (Except TaskError TaskSnapshot) :=
  (records journal j fuel taskId).map fun read => do
    let records ← read
    let state ← replay journal host j taskId records
    expect state (.notFound taskId)

/-! ### Commands -/

/-- `if !causes.contains(c) { causes.push(c) }`. -/
def addCause (causes : List FactRef) (cause : FactRef) : List FactRef :=
  if cause ∈ causes then causes else causes ++ [cause]

/-- The fact an event names as its source, if any. -/
def namedCause : TaskEvent → Option FactRef
  | .resultConsumed _ result => some result.completionFact
  | .terminalResultConsumed _ result => some result.terminalFact
  | event => (eventSource event).map (·.fact)

/-- The policy a budgeted start must cite. -/
def budgetCause (snapshot : Option TaskSnapshot) : TaskEvent → Except TaskError (List FactRef)
  | .budgetedAttemptStarted _ _ => do
      let policy ← expect (snapshot.bind (·.executionBudget))
        (.invalid "budgeted start has no saved policy")
      pure [policy.policyReference]
  | _ => .ok []

/-- The causes `command` gives a fact, the last record of the stream first. -/
def commandCauses (records : List FactRecord) (snapshot : Option TaskSnapshot) (event : TaskEvent) :
    Except TaskError (List FactRef) := do
  let causes := (records.getLast?.map reference).toList
  let causes := (namedCause event).toList.foldl addCause causes
  let goals ← goalCauses host.sha256 snapshot event
  let causes := goals.foldl addCause causes
  let budget ← budgetCause snapshot event
  pure (budget.foldl addCause causes)

/-- The checks of the payload before the stream is looked at. -/
def checkPayload : TaskEvent → Except TaskError Unit
  | .goalAssessed assessment => do
      let _ ← assessment.digest host.sha256
      pure ()
  | .registered definition =>
      forEach (fun criterion => criterion.validateGoal host.sha256) definition.criteria
  | _ => .ok ()

/-- What `command` decides after reading the stream. -/
inductive Plan where
  | done (snapshot : TaskSnapshot)
  | append (expected : ℕ) (candidate : FactRecord) (next : TaskSnapshot)

/-- A fact id that is in the stream already must carry the same command. -/
def checkExisting (taskId : String) (event : TaskEvent) (existing : FactRecord) :
    Except TaskError Unit :=
  reject (existing.draft.kind ≠ (envelope taskId event).1 ∨
      existing.draft.subject ≠ (envelope taskId event).2 ∨
      existing.draft.schemaVersion ≠ version ∨ ¬existing.draft.critical ∨
      existing.draft.payload ≠ event.toValue)
    (.invalid "fact identity reused with a different command")

/-- The draft of a command. -/
def commandDraft (taskId factId : String) (event : TaskEvent) (causes : List FactRef) : FactDraft where
  factId := factId
  subject := (envelope taskId event).2
  kind := (envelope taskId event).1
  schemaVersion := version
  critical := true
  causes := causes
  payload := event.toValue

/-- The position of the last record, `0` before the first. -/
def lastPosition (records : List FactRecord) : ℕ := records.getLast?.elim 0 (·.position)

/-- A new fact: built, verified and applied as replay will. -/
def planAppendFact (taskId factId : String) (event : TaskEvent) (records : List FactRecord)
    (snapshot : Option TaskSnapshot) : Except TaskError Plan := do
  let causes ← commandCauses host records snapshot event
  let position ← expect (checkedAdd (lastPosition records) 1) (.invalid "position overflow")
  let candidate : FactRecord := ⟨taskId, position, commandDraft taskId factId event causes⟩
  verifyEvent host.sha256 host.goalVerifier snapshot event candidate
  let next ← apply host.sha256 snapshot event candidate
  verifyInputEvent journal j host taskId event candidate next
  pure (.append (lastPosition records) candidate next)

/-- The local part of `command`. -/
def planCommand (taskId factId : String) (event : TaskEvent) (records : List FactRecord) :
    Except TaskError Plan := do
  let snapshot ← replay journal host j taskId records
  checkPayload host event
  match records.find? fun record => record.draft.factId = factId with
  | some existing => do
      checkExisting taskId event existing
      let snapshot ← expect snapshot (.notFound taskId)
      pure (.done snapshot)
  | none => planAppendFact journal host j taskId factId event records snapshot

/-- What `command` answers after its append. -/
def finishAppend (candidate : FactRecord) (next : TaskSnapshot)
    (appended : Except FactError (List FactRecord)) : Except TaskError TaskSnapshot := do
  let committed ← mapError .journal appended
  reject (committed ≠ [candidate]) (.invalid "journal committed a different fact")
  pure next

/-- Carry out a plan, with at most one append. -/
def executePlan (taskId : String) : Except TaskError Plan → Except TaskError TaskSnapshot × J
  | .error e => (.error e, j)
  | .ok (.done snapshot) => (.ok snapshot, j)
  | .ok (.append expected candidate next) =>
      let (appended, j) := journal.append j taskId expected [candidate.draft]
      (finishAppend candidate next appended, j)

/-- `command`.  `none` is a page loop that has not ended within `fuel` rounds. -/
def command (fuel : ℕ) (taskId factId : String) (event : TaskEvent) :
    Option (Except TaskError TaskSnapshot × J) :=
  match identity factId with
  | .error e => some (.error e, j)
  | .ok () =>
      match records journal j fuel taskId with
      | none => none
      | some (.error e) => some (.error e, j)
      | some (.ok records) =>
          some (executePlan journal j taskId (planCommand journal host j taskId factId event records))

/-- The events the public methods pass to `command` for a task: `register_task`
takes the stream from the definition it registers. -/
def Submits (taskId : String) : TaskEvent → Prop
  | .registered definition => definition.taskId = taskId
  | _ => True

end Coordinator

end Tasks
end Kolyan
