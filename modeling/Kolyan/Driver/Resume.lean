/-
# Resuming a suspended execution

`kolyan-runtime/src/driver/resume.rs` and `recovery.rs`.  A resume verifies what
the host decided, merges it into the saved checkpoint, commits the receipts and
the merged checkpoint, and then drives it as a new attempt.  A committed merge
that was not driven is resumed from the ledger alone: the effects of the
checkpoint that have started take their results or their waits from their facts.
-/

import Kolyan.Driver.Attempts

namespace Kolyan
namespace Driver

open Checks Threads Ledger Policy Turn

section Resumable

variable (fuel : ℕ)

/-- The checks of `check_resumable`. -/
def resumable (events : List LedgerEvent) : Except RuntimeError Unit := do
  reject (events.any fun event => event.kind = .executionCancelled ∨ event.kind = .turnCancelled)
    (.turn .cancelled)
  reject (events.any (endsTurn ·.kind)) (.driver "terminal execution cannot resume")

/-- `DurableTurnDriver::check_resumable`. -/
def checkResumable (key : ExecutionRef) : DriverProg Unit := do
  let events ← executionEvents fuel key.executionId
  Fallible.lift (resumable events)

/-- What a refused publication is to the driver. -/
def publicationError : RuntimeError → RuntimeError
  | .ledger (.cancelled _) => .turn .cancelled
  | error => error

/-- `DurableTurnDriver::atomic_publication`. -/
def atomicPublication (key : ExecutionRef) (id : String) (kind : LedgerEventKind) (payload : Value) :
    DriverProg Unit := do
  checkResumable fuel key
  match ← ledgerCall (eventById id) with
  | some event => do
      Fallible.lift (invalid ToolError.toString (checkEvent event key id kind))
      refuse (event.payload ≠ payload) "conflicting result publication"
  | none => do
      let _ ← Fallible.mapError publicationError
        (ledgerCall (appendUnlessCancelled (identified key id kind payload)))

end Resumable

section Merging

variable (codec : DriverCodec) (fuel : ℕ)

/-- `ExternalWaitContext::validate`. -/
def validateContext (issued : IssuedToolAuthority) (wait : ExternalWait) (scope : ToolExecutionScope) :
    Except ToolError Unit :=
  mapError (fun error => .policyDenied ("invalid external wait binding: " ++ CheckpointError.toString error))
    (do issued.validate codec.turn scope; wait.validate)

/-- `ExternalWaitContext::validate_result`. -/
def validateContextResult (issued : IssuedToolAuthority) (wait : ExternalWait) (scope : ToolExecutionScope)
    (result : ToolResult) : Except ToolError Unit := do
  validateContext codec issued wait scope
  mapError (fun error => .policyDenied ("invalid external result binding: " ++ CheckpointError.toString error))
    (issued.validateResult result)

/-- The authority under which a call of a checkpoint waits. -/
def awaitedAuthority (checkpoint : TurnCheckpoint) (resolution : ExternalResolution) :
    Except RuntimeError (ExternalWait × IssuedToolAuthority) := do
  let call ← expect (checkpoint.calls.find? (·.call.id = resolution.callId))
    (.driver "resolution references unknown call")
  match call.state with
  | .awaitingExternal wait issued => do
      reject (wait ≠ resolution.wait) (.driver "resolution differs from saved wait")
      return (wait, issued)
  | _ => .error (.driver "resolution call is not awaiting external work")

/-- `DurableTurnDriver::verify_resolution`. -/
def verifyResolution (key : ExecutionRef) (checkpoint : TurnCheckpoint) (resolution : ExternalResolution) :
    DriverProg Unit := do
  let (wait, issued) ← Fallible.lift (awaitedAuthority checkpoint resolution)
  Fallible.lift (invalid ToolError.toString
    (validateContextResult codec issued wait checkpoint.scope resolution.result))
  let bound ← Fallible.lift (IssuedToolAuthority.evidence codec issued key)
  validateEffectAuthority bound key
  let verified ← host (.verifyResult issued wait resolution.result)
  Fallible.lift (invalid ToolError.toString verified)

/-- The resolutions of a resume, verified. -/
def verifyResolutions (key : ExecutionRef) (checkpoint : TurnCheckpoint) :
    List ExternalResolution → DriverProg Unit
  | [] => return ()
  | resolution :: resolutions => do
      verifyResolution codec key checkpoint resolution
      verifyResolutions key checkpoint resolutions

/-- `approval_decision_payload`. -/
def approvalDecisionPayload (checkpointId : String) (confirmation : ApprovalConfirmation)
    (decision : String) : Value :=
  .object [("schema_version", .nat 1), ("checkpoint_id", .string checkpointId),
    ("approval_id", .string confirmation.approvalId), ("decision", .string decision),
    ("prepared_digest", .string confirmation.preparedDigest),
    ("policy_revision", .string confirmation.policyRevision), ("scope", confirmation.scope.toValue),
    ("evidence_id", .string confirmation.evidenceId)]

/-- The durable evidence of a confirmed approval. -/
def verifyConfirmation (key : ExecutionRef) (checkpointId : String) (confirmation : ApprovalConfirmation) :
    DriverProg Unit := do
  let event ← requireFact key confirmation.evidenceId "missing affirmative approval evidence"
    .approvalResolved
  refuse (event.payload ≠ approvalDecisionPayload checkpointId confirmation "approve")
    "approval evidence is not an exact affirmative decision"

/-- The evidence of what the host decided. -/
def verifyInput (key : ExecutionRef) (checkpointId : String) (checkpoint : TurnCheckpoint) :
    ResumeInput → DriverProg Unit
  | .approvalConfirmed confirmation => verifyConfirmation key checkpointId confirmation
  | .externalResolved resolutions => verifyResolutions codec key checkpoint resolutions

/-- The waits of a checkpoint, as the host still proves them. -/
def verifyWaits : List CheckpointCall → DriverProg Unit
  | [] => return ()
  | item :: items => do
      match item.state with
      | .awaitingExternal wait issued => do
          let verified ← host (.verifyWait issued wait)
          Fallible.lift (invalid ToolError.toString verified)
      | _ => pure ()
      verifyWaits items

/-- The result and the authority that a resolution has left in a checkpoint. -/
def mergedAuthority (merged : TurnCheckpoint) (resolution : ExternalResolution) :
    Except RuntimeError (ToolResult × IssuedToolAuthority) := do
  let call ← expect (merged.calls.find? (·.call.id = resolution.callId)) (.driver "merged call missing")
  match call.state with
  | .completed result (some issued) => return (result, issued)
  | _ => .error (.driver "merged resolution lacks authority")

/-- `DurableTurnDriver::commit_resolution`. -/
def commitResolution (key : ExecutionRef) (merged : TurnCheckpoint) (resolution : ExternalResolution) :
    DriverProg Unit := do
  let (result, issued) ← Fallible.lift (mergedAuthority merged resolution)
  let bound ← Fallible.lift (IssuedToolAuthority.evidence codec issued key)
  let payload ← Fallible.lift (invalid ToolError.toString
    (bound.receiptPayload codec.evidence (.ok result)))
  atomicPublication fuel key (bound.root ++ "/receipt") .effectReceipt payload
  atomicPublication fuel key (bound.root ++ "/completed") .effectCompleted payload

/-- The receipts of a resume. -/
def commitResolutions (key : ExecutionRef) (merged : TurnCheckpoint) :
    List ExternalResolution → DriverProg Unit
  | [] => return ()
  | resolution :: resolutions => do
      commitResolution codec fuel key merged resolution
      commitResolutions key merged resolutions

/-- The receipts of what the host decided. -/
def commitInput (key : ExecutionRef) (merged : TurnCheckpoint) : ResumeInput → DriverProg Unit
  | .approvalConfirmed _ => return ()
  | .externalResolved resolutions => commitResolutions codec fuel key merged resolutions

/-- `DurableTurnDriver::commit_merged`. -/
def commitMerged (key : ExecutionRef) (checkpoint : TurnCheckpoint) : DriverProg Unit := do
  let admission ← InputAdmission.load codec key
  let _ ← Fallible.lift (admission.validateCheckpoint codec checkpoint)
  validateCheckpointEffects codec fuel key checkpoint
  let cursor ← publicationCursor fuel key.executionId
  let payload := publication cursor "checkpoint" (codec.checkpoint checkpoint)
  atomicPublication fuel key (publicationId codec key.executionId "merged" payload) .turnCheckpointMerged
    payload

end Merging

section Hydration

variable (codec : DriverCodec) (fuel : ℕ)

/-- `PreparedEvidence::from_facts`. -/
def fromFacts (key : ExecutionRef) (effect : String) (prepared authorized : Value) :
    Except ToolError PreparedEvidence := do
  let request ← mapError .failed (codec.readRequest prepared)
  let input := field "input" prepared
  let call ← mapError .failed (codec.readPrepared (field "prepared" input))
  let scope ← mapError .failed (codec.readScope (field "scope" input))
  let grant ← mapError .failed (codec.readGrant (field "prepared_grant" authorized))
  let bound ← PreparedEvidence.new codec.evidence call grant scope request.policyRevision key
  reject (bound.request.effectId ≠ effect ∨ bound.preparedPayload ≠ prepared ∨
    bound.authorizedPayload ≠ authorized) (.failed "prepared effect evidence binding mismatch")
  return bound

/-- The evidence of an effect that has started, against the saved call. -/
def recoveredEvidence (key : ExecutionRef) (checkpoint : TurnCheckpoint) (item : CheckpointCall)
    (effect root : String) : DriverProg PreparedEvidence := do
  let foundPrepared ← ledgerCall (eventById (root ++ "/prepared"))
  let prepared ← orRefuse foundPrepared "entered effect lacks preparation"
  let foundAuthorized ← ledgerCall (eventById (root ++ "/authorized"))
  let authorized ← orRefuse foundAuthorized "entered effect lacks authorization"
  Fallible.lift (invalid ToolError.toString (checkEvent prepared key (root ++ "/prepared") .effectPrepared))
  Fallible.lift (invalid ToolError.toString
    (checkEvent authorized key (root ++ "/authorized") .effectAuthorized))
  let bound ← Fallible.lift (invalid ToolError.toString
    (fromFacts codec key effect prepared.payload authorized.payload))
  refuse (bound.scope ≠ checkpoint.scope ∨ bound.prepared.call ≠ item.call ∨
    item.prepared ≠ some bound.prepared) "recovered authority differs from the saved call"
  validateEffectAuthority bound key
  match item.state with
  | .awaitingExternal _ saved => refuse (saved ≠ bound.issued) "recovered external authority differs"
  | _ => pure ()
  return bound

/-- An error that no resume goes on from. -/
def endsHydration : ToolError → Bool
  | .cancelled | .timedOut | .uncertain _ => true
  | _ => false

/-- The result of a started effect that has its receipt. -/
def hydrateReceipt (key : ExecutionRef) (checkpoint : TurnCheckpoint) (item : CheckpointCall)
    (bound : PreparedEvidence) (receipt : LedgerEvent) : DriverProg CheckpointCallState := do
  Fallible.lift (invalid ToolError.toString
    (checkEvent receipt key (bound.root ++ "/receipt") .effectReceipt))
  let outcome ← Fallible.lift (invalid ToolError.toString
    (bound.validateReceipt codec.evidence receipt.payload))
  let result ← match outcome with
    | .ok result => pure result
    | .error error => do
        atomicPublication fuel key (bound.root ++ "/failed") .effectFailed receipt.payload
        Fallible.lift (reject (checkpoint.dispatch.onError = .failTurn ∨ endsHydration error)
          (.turn (.tool error)))
        pure (feedback item.call.id error)
  Fallible.lift (invalid CheckpointError.toString (bound.issued.validateResult result))
  atomicPublication fuel key (bound.root ++ (if outcome.toBool then "/completed" else "/failed"))
    (if outcome.toBool then .effectCompleted else .effectFailed) receipt.payload
  return .completed result (some bound.issued)

/-- The wait of a started effect that has no receipt. -/
def hydrateWait (key : ExecutionRef) (checkpoint : TurnCheckpoint) (bound : PreparedEvidence) :
    DriverProg CheckpointCallState := do
  let wait ← match ← ledgerCall (eventById (bound.root ++ "/waiting")) with
    | some event => do
        Fallible.lift (invalid ToolError.toString
          (checkEvent event key (bound.root ++ "/waiting") .effectAwaitingExternal))
        Fallible.lift (invalid ToolError.toString (bound.validateWait codec.evidence event.payload))
    | none => do
        let answer ← host (.recoverWait bound.issued)
        let recovered ← Fallible.lift (invalid ToolError.toString answer)
        Fallible.lift (expect recovered (.turn (.tool (.uncertain
          "entered effect has no receipt or proven external admission; reconciliation required"))))
  Fallible.lift (invalid ToolError.toString (validateContext codec bound.issued wait checkpoint.scope))
  let verified ← host (.verifyWait bound.issued wait)
  Fallible.lift (invalid ToolError.toString verified)
  let payload ← Fallible.lift (invalid ToolError.toString (bound.waitPayload codec.evidence wait))
  atomicPublication fuel key (bound.root ++ "/waiting") .effectAwaitingExternal payload
  return .awaitingExternal wait bound.issued

/-- The checkpoint with a call settled from its facts, and charged. -/
def hydrated (checkpoint : TurnCheckpoint) (item : CheckpointCall) (state : CheckpointCallState) :
    Except RuntimeError TurnCheckpoint := do
  let used ← if item.charged then .ok checkpoint.budget.toolCallsUsed
    else expect (checkedAdd checkpoint.budget.toolCallsUsed 1) (.driver "recovered tool usage overflow")
  let settled := checkpoint.update item.call.id fun call => { call with charged := true, state := state }
  return { settled with budget := { settled.budget with toolCallsUsed := used } }

/-- One call of `hydrate_checkpoint`. -/
def hydrateCall (key : ExecutionRef) (checkpoint : TurnCheckpoint) (item : CheckpointCall) :
    DriverProg TurnCheckpoint := do
  let effect := checkpoint.scope.stepId ++ "/" ++ item.call.id
  let root := key.executionId ++ "/effect/" ++ effect
  if item.isCompleted then return checkpoint
  else
    match ← ledgerCall (eventById (root ++ "/started")) with
    | none => return checkpoint
    | some started => do
        Fallible.lift (invalid ToolError.toString
          (checkEvent started key (root ++ "/started") .effectStarted))
        let bound ← recoveredEvidence codec key checkpoint item effect root
        let state ← match ← ledgerCall (eventById (root ++ "/receipt")) with
          | some receipt => hydrateReceipt codec fuel key checkpoint item bound receipt
          | none => hydrateWait codec fuel key checkpoint bound
        Fallible.lift (hydrated checkpoint item state)

/-- The calls of `hydrate_checkpoint`. -/
def hydrateCalls (key : ExecutionRef) (checkpoint : TurnCheckpoint) :
    List CheckpointCall → DriverProg TurnCheckpoint
  | [] => return checkpoint
  | item :: items => do
      let checkpoint ← hydrateCall codec fuel key checkpoint item
      hydrateCalls key checkpoint items

/-- The approvals of the calls that still wait to run. -/
def TurnCheckpoint.retainApprovals (checkpoint : TurnCheckpoint) : TurnCheckpoint :=
  { checkpoint with
    approvals := checkpoint.approvals.filter fun approval =>
      checkpoint.calls.any fun item => item.call.id = approval.prepared.call.id && item.isReady }

/-- `DurableTurnDriver::hydrate_checkpoint`. -/
def hydrateCheckpoint (key : ExecutionRef) (checkpoint : TurnCheckpoint) : DriverProg TurnCheckpoint := do
  checkResumable fuel key
  let admission ← InputAdmission.load codec key
  let _ ← Fallible.lift (admission.validateCheckpoint codec checkpoint)
  let hydrated ← hydrateCalls codec fuel key checkpoint checkpoint.calls
  let retained := TurnCheckpoint.retainApprovals hydrated
  let _ ← Fallible.lift (admission.validateCheckpoint codec retained)
  validateCheckpointEffects codec fuel key retained
  return retained

end Hydration

section Resuming

variable (codec : DriverCodec) (fuel : ℕ) (executor : TurnExecutor) (effectHooks : Bool)

/-- `TurnDeadline::restore`, as the driver reports it. -/
def restoreDeadline (deadlineAtMs : Option ℕ) : DriverProg TurnDeadline :=
  Fallible.mapError RuntimeError.ofTurn (passOn (TurnDeadline.restore deadlineAtMs))

/-- `DurableTurnDriver::drive_checkpoint`. -/
def driveCheckpoint (key : ExecutionRef) (checkpoint : TurnCheckpoint) (deadline : TurnDeadline) :
    DriverProg DurableTurnResult := do
  checkResumable fuel key
  let admission ← InputAdmission.load codec key
  let scope ← Fallible.lift (admission.validateCheckpoint codec checkpoint)
  refuse (executor.agentSnapshotDigest ≠ admission.agentSnapshotDigest) "resume executor snapshot differs"
  let cursor ← publicationCursor fuel key.executionId
  let attempt := {
    key
    name := "resume/" ++ checkpoint.checkpointId ++ "/" ++ toString cursor
    resumeCursor := some cursor }
  let tools := { key, snapshotDigest := admission.agentSnapshotDigest, effectHooks }
  finish codec fuel attempt tools
    ((withExecutionKey executor key).resumeCheckpoint codec.turn fuel checkpoint scope deadline)

/-- The merge of a resume; a time-out of it is recorded. -/
def mergeInput (key : ExecutionRef) (suspension : TurnSuspension) (input : ResumeInput)
    (scope : ToolExecutionScope) (deadline : TurnDeadline) : DriverProg TurnCheckpoint := do
  match ← Fallible.attempt (passOn
    ((withExecutionKey executor key).mergeResume codec.turn suspension input scope deadline)) with
  | .ok merged => return merged
  | .error .timedOut => do
      persistError fuel key .timedOut
      throw (.turn .timedOut)
  | .error error => throw (.turn error)

/-- `DurableTurnDriver::resume`. -/
def resume (sessionId executionId checkpointId : String) (input : ResumeInput) :
    DriverProg DurableTurnResult := do
  let key ← executionKey codec executionId
  refuse (key.sessionId ≠ sessionId) "foreign resume Session"
  checkResumable fuel key
  let admission ← InputAdmission.load codec key
  refuse (executor.agentSnapshotDigest ≠ admission.agentSnapshotDigest)
    "resume executor differs from admitted Agent snapshot"
  let suspension ← loadSuspension codec fuel executionId checkpointId
  let scope ← Fallible.lift (admission.validateCheckpoint codec suspension.checkpoint)
  let deadline ← restoreDeadline suspension.checkpoint.budget.deadlineAtMs
  verifyInput codec key checkpointId suspension.checkpoint input
  verifyWaits suspension.checkpoint.calls
  let merged ← mergeInput codec fuel executor key suspension input scope deadline
  let _ ← Fallible.lift (admission.validateCheckpoint codec merged)
  commitInput codec fuel key merged input
  commitMerged codec fuel key merged
  driveCheckpoint codec fuel executor effectHooks key merged deadline

/-- An affirmative decision on the approval. -/
def isDecision (approvalId : String) (event : LedgerEvent) : Bool :=
  event.kind = .approvalResolved && field "approval_id" event.payload = .string approvalId &&
    field "schema_version" event.payload = .nat 1 && (asStr (field "evidence_id" event.payload)).isSome

/-- The confirmation that a decision encodes. -/
def decidedConfirmation (payload : Value) : Value :=
  .object [("approval_id", field "approval_id" payload),
    ("prepared_digest", field "prepared_digest" payload),
    ("policy_revision", field "policy_revision" payload), ("scope", field "scope" payload),
    ("evidence_id", field "evidence_id" payload)]

/-- `DurableTurnDriver::resume_approval`. -/
def resumeApproval (sessionId executionId approvalId : String) : DriverProg DurableTurnResult := do
  let suspension ← loadCurrentSuspension codec fuel executionId
  let events ← executionEvents fuel executionId
  let event ← orRefuse (events.reverse.find? (isDecision approvalId))
    "approval has no durable host decision"
  let confirmation ← Fallible.lift (invalid id
    (codec.readConfirmation (decidedConfirmation event.payload)))
  resume codec fuel executor effectHooks sessionId executionId suspension.checkpoint.checkpointId
    (.approvalConfirmed confirmation)

/-- `DurableTurnDriver::resume_committed`. -/
def resumeCommitted (sessionId executionId checkpointId : String) : DriverProg DurableTurnResult := do
  let key ← executionKey codec executionId
  refuse (key.sessionId ≠ sessionId) "foreign committed resume Session"
  checkResumable fuel key
  let current ← loadSuspension codec fuel executionId checkpointId
  let deadline ← restoreDeadline current.checkpoint.budget.deadlineAtMs
  let checkpoint ← hydrateCheckpoint codec fuel key current.checkpoint
  commitMerged codec fuel key checkpoint
  driveCheckpoint codec fuel executor effectHooks key checkpoint deadline

end Resuming

end Driver
end Kolyan
