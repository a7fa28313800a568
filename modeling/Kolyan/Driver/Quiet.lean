/-
# What the driver leaves to a Turn

A plain append goes to the ledger of a cancelled execution too.  The driver, the
Server and the coordinator commit many facts by plain appends, but the completion
of a Turn is not among them: where they commit one, it is under a terminal
boundary and refused after a cancellation.  `Only quiet` says so of a program,
whatever its host answers, and its instances follow the text of the programs.
Only the recorder of an attempt is left, which records what its Turn asks for.
-/

import Kolyan.Driver.Sessions

namespace Kolyan
namespace Driver

open Checks Threads Fallible Ledger Policy Turn

/-- A fact that may be committed by a plain append at any time. -/
@[reducible] def quietKind : LedgerEventKind → Bool
  | .turnCompleted => false
  | _ => true

/-- No plain append of a completion. -/
def quiet {E : Type} : Op E → Prop
  | .ledger (.append event) => quietKind event.kind = true
  | _ => True

/-- Operations that every call of a ledger may ask for, but for the appends that
are not quiet. -/
class Bookkeeping {E : Type} (ok : Op E → Prop) : Prop where
  query : ∀ q, ok (.ledger (.query q))
  admission : ∀ event, ok (.ledger (.appendUnlessCancelled event))
  append : ∀ event, quietKind event.kind = true → ok (.ledger (.append event))

instance bookkeeping_quiet {E : Type} : Bookkeeping (quiet : Op E → Prop) :=
  ⟨fun _ => trivial, fun _ => trivial, fun _ h => h⟩

/-- The host operation calls no tool. -/
@[reducible] def idleHost : HostOp → Bool
  | .invoke _ => false
  | _ => true

/-- Operations that a driver may ask for without calling a tool. -/
class Idle (ok : Op HostOp → Prop) : Prop extends Bookkeeping ok where
  host : ∀ e, idleHost e = true → ok (.host e)

instance idle_quiet : Idle quiet := ⟨fun _ _ => trivial⟩

/-- No call of a tool. -/
def calm : Op HostOp → Prop
  | .host e => idleHost e = true
  | _ => True

instance idle_calm : Idle calm where
  query := fun _ => trivial
  admission := fun _ => trivial
  append := fun _ _ => trivial
  host := fun _ h => h

section LedgerCalls

variable {E : Type} {A : E → Type} {ok : Op E → Prop} [h : Bookkeeping ok]

instance quiet_query (q : LedgerQuery) : Only ok (query q : LedgerProg A _) := ⟨h.query q, fun _ => trivial⟩

instance quiet_appendUnlessCancelled (event : LedgerEvent) :
    Only ok (appendUnlessCancelled event : LedgerProg A _) := ⟨h.admission event, fun _ => trivial⟩

instance quiet_append {event : LedgerEvent} [g : Certain (quietKind event.kind)] :
    Only ok (Ledger.append event : LedgerProg A _) := ⟨h.append event g.eq, fun _ => trivial⟩

instance quiet_checkedQuery (q : LedgerQuery) : Only ok (checkedQuery q : LedgerProg A _) := by
  unfold checkedQuery; infer_instance

instance quiet_eventById (id : String) : Only ok (eventById id : LedgerProg A _) := by
  unfold eventById; infer_instance

instance quiet_eventPages (id : String) (fuel after : ℕ) (events : List LedgerEvent) :
    Only ok (eventPages id fuel after events : LedgerProg A _) := by
  induction fuel generalizing after events with
  | zero => exact ⟨trivial⟩
  | succ fuel ih => unfold eventPages; infer_instance

instance quiet_executionEventsAfter (fuel : ℕ) (id : String) (after : ℕ) :
    Only ok (executionEventsAfter fuel id after : LedgerProg A _) := quiet_eventPages id fuel after []

end LedgerCalls

section Coordinator

open Execution

variable (fuel : ℕ) (execution : ExecutionRef)

instance quiet_coordinatorLedger {α : Type} (p : LedgerProg ActiveOp.Answer α) [Only quiet p] :
    Only quiet (Execution.ledgerCall p) := by
  unfold Execution.ledgerCall; infer_instance

instance quiet_isActive (id : String) : Only quiet (isActive id) := ⟨trivial, fun _ => trivial⟩

instance quiet_release (id : String) : Only quiet (release id) := ⟨trivial, fun _ => trivial⟩

instance quiet_admitExecution (kind : AdmissionKind) : Only quiet (admitExecution execution kind) :=
  ⟨trivial, fun _ => trivial⟩

instance quiet_project (id : String) (events : List LedgerEvent) : Only quiet (project id events) := by
  unfold project
  split <;> infer_instance

instance quiet_state (id : String) : Only quiet (state fuel id) := by
  unfold state readExecution; infer_instance

instance quiet_latestCursor (id : String) : Only quiet (latestCursor fuel id) := by
  unfold latestCursor readExecution; infer_instance

instance quiet_once (suffix : String) (kind : LedgerEventKind) (payload : Value)
    [h : Certain (quietKind kind)] : Only quiet (Execution.appendOnce execution suffix kind payload) := by
  have : Certain (quietKind (onceEvent execution suffix kind payload).kind) := h
  unfold Execution.appendOnce
  dsimp only
  refine only_bind (g := fun found => ?_)
  split
  · exact only_ite
  · unfold appendOrReconcile
    refine only_bind (g := fun r => ?_)
    split <;> infer_instance

instance quiet_startFrom (state : ExecutionState) : Only quiet (startFrom execution state) := by
  unfold startFrom
  split <;> infer_instance

instance quiet_resumeFrom (state : ExecutionState) : Only quiet (resumeFrom fuel execution state) := by
  unfold resumeFrom
  split <;> infer_instance

instance quiet_recoverFrom (state : ExecutionState) : Only quiet (recoverFrom fuel execution state) := by
  unfold recoverFrom
  split <;> infer_instance

instance quiet_cancelFrom (state : ExecutionState) : Only quiet (cancelFrom execution state) := by
  unfold cancelFrom; infer_instance

instance quiet_coordinatorCancel : Only quiet (Execution.cancel fuel execution) := by
  unfold Execution.cancel; infer_instance

end Coordinator

section Calls

variable {ε α : Type} {ok : Op HostOp → Prop} [h : Idle ok]

instance quiet_host (e : HostOp) : Only (α := no_index e.Answer) quiet (host e : HostProg ε e.Answer) :=
  ⟨trivial, fun _ => trivial⟩

instance idle_host (e : HostOp) [g : Certain (idleHost e)] :
    Only (α := no_index e.Answer) ok (host e : HostProg ε e.Answer) := ⟨h.host e g.eq, fun _ => trivial⟩

instance quiet_ledgerCall (p : LedgerProg HostOp.Answer α) [Only ok p] : Only ok (ledgerCall p) := by
  unfold ledgerCall; infer_instance

instance quiet_refuse (c : Prop) [Decidable c] (message : String) : Only ok (refuse c message) :=
  only_lift _

instance quiet_orRefuse (o : Option α) (message : String) : Only ok (orRefuse o message) := only_lift _

instance quiet_passOn (p : TurnProg α) : Only quiet (passOn p) := by
  have hpassed : ∀ (o : TurnOp) (u : Unit), (passedOn o u).Within quiet := fun _ _ =>
    ⟨trivial, fun _ => trivial⟩
  exact ⟨Prog.within_bind (Prog.within_serve hpassed p.run ()) fun _ => trivial⟩

instance quiet_executionEvents (fuel : ℕ) (id : String) : Only ok (executionEvents fuel id) := by
  unfold executionEvents; infer_instance

instance quiet_appendOnce (key : ExecutionRef) (suffix : String) (kind : LedgerEventKind) (payload : Value)
    [g : Certain (quietKind kind)] : Only ok (appendOnce key suffix kind payload) := by
  have : Certain (quietKind (identified key (key.executionId ++ "/" ++ suffix) kind payload).kind) := g
  unfold appendOnce
  dsimp only
  refine only_bind (g := fun found => ?_)
  split <;> infer_instance

instance quiet_cancel (key : ExecutionRef) : Only quiet (cancel key) := by
  unfold cancel; infer_instance

instance quiet_publicationCursor (fuel : ℕ) (id : String) : Only quiet (publicationCursor fuel id) := by
  unfold publicationCursor; infer_instance

/-- A call of the coordinator stays what it is at a driver's host. -/
instance quiet_coordinatorCall (p : Execution.CoordinatorProg α) [h : Only quiet p] :
    Only quiet (coordinatorCall p) := by
  have hserved : ∀ (p : Prog (Op Execution.ActiveOp) (Op.Answer Execution.ActiveOp.Answer)
      (Except Execution.CoordinatorError α)), p.Within quiet → (Prog.serve coordinatorOp p ()).Within quiet := by
    intro p hp
    induction p with
    | done a => trivial
    | halt => trivial
    | ask o next ih =>
      match o with
      | .ledger (.query q) => exact ⟨trivial, fun a => ih a (hp.2 a)⟩
      | .ledger (.append event) => exact ⟨hp.1, fun a => ih a (hp.2 a)⟩
      | .ledger (.appendUnlessCancelled event) => exact ⟨trivial, fun a => ih a (hp.2 a)⟩
      | .host e => exact ⟨trivial, fun a => ih a (hp.2 a)⟩
  exact ⟨Prog.within_bind (hserved p.run h.within) fun _ => trivial⟩

end Calls

section Admissions

variable (codec : DriverCodec) (fuel : ℕ) (key : ExecutionRef)

instance quiet_persist (admission : InputAdmission) : Only quiet (admission.persist codec) := by
  unfold InputAdmission.persist; infer_instance

instance quiet_load : Only quiet (InputAdmission.load codec key) := by
  unfold InputAdmission.load; infer_instance

instance quiet_executionKey (executionId : String) : Only quiet (executionKey codec executionId) := by
  unfold executionKey; infer_instance

instance quiet_validateCheckpointHistory (checkpoint : TurnCheckpoint) :
    Only quiet (validateCheckpointHistory codec fuel key checkpoint) := by
  unfold validateCheckpointHistory; infer_instance

end Admissions

section Recorder

variable (codec : DriverCodec) (fuel : ℕ) (key : ExecutionRef) (attempt : Attempt)

instance quiet_commitCheckpoint (checkpoint : TurnCheckpoint) :
    Only quiet (commitCheckpoint codec fuel key checkpoint) := by
  unfold commitCheckpoint; infer_instance

instance quiet_recordCheckpoint (checkpoint : TurnCheckpoint) :
    Only quiet (attempt.recordCheckpoint codec fuel checkpoint) := by
  unfold Attempt.recordCheckpoint; infer_instance

instance quiet_admitBoundary (boundary : TurnBoundary) : Only quiet (attempt.admitBoundary boundary) := by
  unfold Attempt.admitBoundary
  refine only_bind (g := fun _ => ?_)
  dsimp only
  refine only_bind (h := only_mapError (h := ?_))
  split
  · rename_i hboundary
    have : Certain (quietKind (attempt.boundaryFact boundary.kind).kind) := by
      rw [hboundary]
      exact ⟨rfl⟩
    exact quiet_append
  · exact quiet_appendUnlessCancelled _

/-- The fact of an error is no completion. -/
instance certain_errorKind (error : TurnError) : Certain (quietKind (errorKind error)) := by
  unfold errorKind
  split <;> exact ⟨rfl⟩

instance quiet_persistError (error : TurnError) : Only quiet (persistError fuel key error) := by
  unfold persistError; infer_instance

end Recorder

section Tools

variable (codec : EvidenceCodec) (tools : DurableTools) (bound : PreparedEvidence) {α : Type}
variable {ok : Op HostOp → Prop} [h : Idle ok]

instance quiet_orFailed (p : DriverProg α) [Only ok p] : Only ok (orFailed p) := by
  unfold orFailed; infer_instance

instance quiet_ledgerOrFailed (p : LedgerProg HostOp.Answer α) [Only ok p] :
    Only ok (ledgerOrFailed p) := by
  unfold ledgerOrFailed; infer_instance

instance quiet_uncertain (message : String) :
    Only ok (tools.uncertain bound message : ToolProg α) := by
  unfold DurableTools.uncertain
  dsimp only
  refine only_bind (g := fun r => ?_)
  split <;> infer_instance

instance quiet_orUncertain (text : ToolError → String) (p : ToolProg α) [Only ok p] :
    Only ok (tools.orUncertain bound text p) := by
  unfold DurableTools.orUncertain
  refine only_bind (g := fun r => ?_)
  split <;> infer_instance

instance quiet_checkCancelled : Only ok checkCancelled := by
  unfold checkCancelled; infer_instance

instance quiet_checkLive (window : ℕ) : Only ok (checkLive window) := by
  unfold checkLive; infer_instance

instance quiet_waitLive (window : ℕ) (p : HostProg EffectHookError α) [Only ok p] :
    Only ok (waitLive window p) := by
  unfold waitLive; infer_instance

instance quiet_hook {e : HostOp} [Certain (idleHost e)] (g : e.Answer = Except EffectHookError α) :
    Only ok (hook g) := by
  unfold hook; infer_instance

instance quiet_prepareAgain (call : ToolCall) : Only ok (prepareAgain call) := by
  unfold prepareAgain
  refine only_bind (g := fun answer => ?_)
  split <;> infer_instance

instance quiet_acknowledge (event : LedgerEvent) : Only ok (acknowledge codec bound event) := by
  unfold acknowledge; infer_instance

instance quiet_fromAck (event : LedgerEvent) : Only ok (fromAck codec bound event) := by
  unfold fromAck; infer_instance

instance quiet_observe (phase : String) (window : ℕ) (event : LedgerEvent)
    (p : HostProg EffectHookError Unit) [Only ok p] :
    Only ok (tools.observe codec bound phase window event p) := by
  unfold DurableTools.observe; infer_instance

instance quiet_saved (suffix : String) : Only ok (bound.saved suffix) := by
  unfold PreparedEvidence.saved; infer_instance

instance quiet_entered (id missing mismatch : String) (kind : LedgerEventKind) (payload : Value) :
    Only ok (tools.entered id missing mismatch kind payload) := by
  unfold DurableTools.entered; infer_instance

instance quiet_checkEntered : Only ok (tools.checkEntered bound) := by
  unfold DurableTools.checkEntered; infer_instance

instance quiet_checkSaved (event : LedgerEvent) (suffix what : String) (kind : LedgerEventKind) :
    Only ok (tools.checkSaved bound event suffix what kind) := by
  unfold DurableTools.checkSaved; infer_instance

instance quiet_answerReceipt (window : ℕ) (event : LedgerEvent) :
    Only ok (tools.answerReceipt codec bound window event) := by
  unfold DurableTools.answerReceipt; infer_instance

instance quiet_answerWait (event : LedgerEvent) : Only ok (tools.answerWait codec bound event) := by
  unfold DurableTools.answerWait; infer_instance

instance quiet_proven (text : ToolError → String) (answer : Except ToolError α) :
    Only ok (tools.proven bound text answer) := by
  unfold DurableTools.proven; infer_instance

instance quiet_republish (wait : ExternalWait) : Only ok (tools.republish codec bound wait) := by
  unfold DurableTools.republish
  refine only_bind (g := fun _ => only_bind (g := fun _ => only_bind (g := fun _ => only_bind (g := fun _ =>
    only_bind (g := fun r => ?_)))))
  split <;> infer_instance

instance quiet_recover (event : LedgerEvent) : Only ok (tools.recover codec bound event) := by
  unfold DurableTools.recover
  refine only_bind (g := fun _ => only_bind (g := fun _ => only_bind (g := fun _ =>
    only_bind (g := fun recovered => ?_))))
  split <;> infer_instance

instance quiet_gate (invocation : ToolInvocation) : Only ok (tools.gate codec bound invocation) := by
  unfold DurableTools.gate
  split
  · infer_instance
  · dsimp only
    refine only_bind (g := fun _ => only_bind (g := fun _ => only_bind (g := fun _ => only_bind (g := fun _ => ?_))))
    infer_instance

instance quiet_start : Only ok (tools.start bound) := by
  unfold DurableTools.start; infer_instance

instance quiet_publishWait (wait : ExternalWait) : Only ok (tools.publishWait codec bound wait) := by
  unfold DurableTools.publishWait
  refine only_bind (g := fun _ => only_bind (g := fun _ => only_bind (g := fun _ =>
    only_bind (g := fun r => ?_))))
  split <;> infer_instance

instance quiet_publish (suffix what : String) (kind : LedgerEventKind) (payload : Value)
    [Certain (quietKind kind)] : Only ok (tools.publish bound suffix what kind payload) := by
  unfold DurableTools.publish
  refine only_bind (g := fun r => ?_)
  split <;> infer_instance

instance quiet_publishReceipt (window : ℕ) (result : Except ToolError ToolResult) :
    Only ok (tools.publishReceipt codec bound window result) := by
  have : Certain (quietKind (if result.toBool then .effectCompleted else .effectFailed)) := by
    split <;> exact ⟨rfl⟩
  unfold DurableTools.publishReceipt; infer_instance

instance quiet_conclude (window : ℕ) (outcome : Except ToolError ToolOutcome) :
    Only ok (tools.conclude codec bound window outcome) := by
  unfold DurableTools.conclude
  split <;> infer_instance

instance quiet_enter (invocation : ToolInvocation) : Only quiet (tools.enter codec bound invocation) := by
  unfold DurableTools.enter; infer_instance

/-- **The tools complete no Turn.** -/
instance quiet_executeInvocation (invocation : ToolInvocation) :
    Only quiet (tools.executeInvocation codec invocation) := by
  unfold DurableTools.executeInvocation
  refine only_bind (g := fun _ => only_bind (g := fun bound => only_bind (g := fun _ =>
    only_bind (g := fun _ => only_bind (g := fun receipt => ?_)))))
  split
  · infer_instance
  · refine only_bind (g := fun waiting => ?_)
    split
    · infer_instance
    · refine only_bind (g := fun started => ?_)
      split <;> infer_instance

end Tools

section Suspensions

variable (codec : DriverCodec) (fuel : ℕ) (key : ExecutionRef)

instance quiet_projectEvents : Only quiet (projectEvents fuel key) := by
  unfold projectEvents; infer_instance

instance quiet_requireFact (id missing : String) (kind : LedgerEventKind) :
    Only quiet (requireFact key id missing kind) := by
  unfold requireFact; infer_instance

instance quiet_validateAuthorityFact (id : String) (kind : LedgerEventKind) (payload : Value) :
    Only quiet (validateAuthorityFact key id kind payload) := by
  unfold validateAuthorityFact; infer_instance

instance quiet_validateEffectAuthority (bound : PreparedEvidence) :
    Only quiet (validateEffectAuthority bound key) := by
  unfold validateEffectAuthority; infer_instance

instance quiet_validateCallEffect (item : CheckpointCall) : Only quiet (validateCallEffect codec key item) := by
  unfold validateCallEffect
  split <;> infer_instance

instance quiet_validateCallEffects (items : List CheckpointCall) :
    Only quiet (validateCallEffects codec key items) := by
  induction items with
  | nil => exact only_pure _
  | cons item items ih => unfold validateCallEffects; infer_instance

instance quiet_validateCheckpointEffects (checkpoint : TurnCheckpoint) :
    Only quiet (validateCheckpointEffects codec fuel key checkpoint) := by
  unfold validateCheckpointEffects; infer_instance

instance quiet_loadCurrentSuspension (executionId : String) :
    Only quiet (loadCurrentSuspension codec fuel executionId) := by
  unfold loadCurrentSuspension; infer_instance

instance quiet_loadSuspension (executionId checkpointId : String) :
    Only quiet (loadSuspension codec fuel executionId checkpointId) := by
  unfold loadSuspension; infer_instance

instance quiet_requestApprovals (approvals : List ApprovalRequest) :
    Only quiet (requestApprovals codec key approvals) := by
  induction approvals with
  | nil => exact only_pure _
  | cons approval approvals ih => unfold requestApprovals; infer_instance

instance quiet_publishSuspension (suspension : TurnSuspension) :
    Only quiet (publishSuspension codec fuel key suspension) := by
  unfold publishSuspension
  refine only_bind (g := fun cursor => ?_)
  dsimp only
  refine only_bind (g := fun found => ?_)
  split <;> infer_instance

instance quiet_suspended (suspension : TurnSuspension) : Only quiet (suspended codec fuel key suspension) := by
  unfold suspended
  refine only_bind (g := fun admission => only_bind (g := fun scope => only_bind (g := fun _ => ?_)))
  infer_instance

instance quiet_completed (result : TurnResult) : Only quiet (completed fuel key result) := by
  unfold completed; infer_instance

end Suspensions

section Resuming

variable (codec : DriverCodec) (fuel : ℕ) (executor : TurnExecutor) (key : ExecutionRef)

instance quiet_anchor (deadline : TurnDeadline) (request : TurnRequest) :
    Only quiet (anchor executor deadline request) := by
  unfold anchor; infer_instance

instance quiet_claimStart : Only quiet (claimStart key) := by
  unfold claimStart; infer_instance

instance quiet_checkResumable : Only quiet (checkResumable fuel key) := by
  unfold checkResumable; infer_instance

instance quiet_atomicPublication (id : String) (kind : LedgerEventKind) (payload : Value) :
    Only quiet (atomicPublication fuel key id kind payload) := by
  unfold atomicPublication
  refine only_bind (g := fun _ => only_bind (g := fun found => ?_))
  split <;> infer_instance

instance quiet_verifyResolution (checkpoint : TurnCheckpoint) (resolution : ExternalResolution) :
    Only quiet (verifyResolution codec key checkpoint resolution) := by
  unfold verifyResolution; infer_instance

instance quiet_verifyResolutions (checkpoint : TurnCheckpoint) (resolutions : List ExternalResolution) :
    Only quiet (verifyResolutions codec key checkpoint resolutions) := by
  induction resolutions with
  | nil => exact only_pure _
  | cons resolution resolutions ih => unfold verifyResolutions; infer_instance

instance quiet_verifyConfirmation (checkpointId : String) (confirmation : ApprovalConfirmation) :
    Only quiet (verifyConfirmation key checkpointId confirmation) := by
  unfold verifyConfirmation; infer_instance

instance quiet_verifyInput (checkpointId : String) (checkpoint : TurnCheckpoint) (input : ResumeInput) :
    Only quiet (verifyInput codec key checkpointId checkpoint input) := by
  cases input with
  | approvalConfirmed confirmation => exact quiet_verifyConfirmation key checkpointId confirmation
  | externalResolved resolutions => exact quiet_verifyResolutions codec key checkpoint resolutions

instance quiet_verifyWaits (items : List CheckpointCall) : Only quiet (verifyWaits items) := by
  induction items with
  | nil => exact only_pure _
  | cons item items ih =>
    unfold verifyWaits
    split <;> infer_instance

instance quiet_commitResolution (merged : TurnCheckpoint) (resolution : ExternalResolution) :
    Only quiet (commitResolution codec fuel key merged resolution) := by
  unfold commitResolution; infer_instance

instance quiet_commitResolutions (merged : TurnCheckpoint) (resolutions : List ExternalResolution) :
    Only quiet (commitResolutions codec fuel key merged resolutions) := by
  induction resolutions with
  | nil => exact only_pure _
  | cons resolution resolutions ih => unfold commitResolutions; infer_instance

instance quiet_commitInput (merged : TurnCheckpoint) (input : ResumeInput) :
    Only quiet (commitInput codec fuel key merged input) := by
  cases input with
  | approvalConfirmed confirmation => exact only_pure _
  | externalResolved resolutions => exact quiet_commitResolutions codec fuel key merged resolutions

instance quiet_commitMerged (checkpoint : TurnCheckpoint) :
    Only quiet (commitMerged codec fuel key checkpoint) := by
  unfold commitMerged; infer_instance

instance quiet_recoveredEvidence (checkpoint : TurnCheckpoint) (item : CheckpointCall) (effect root : String) :
    Only quiet (recoveredEvidence codec key checkpoint item effect root) := by
  unfold recoveredEvidence
  refine only_bind (g := fun _ => only_bind (g := fun _ => only_bind (g := fun _ => only_bind (g := fun _ =>
    only_bind (g := fun _ => only_bind (g := fun _ => only_bind (g := fun _ => only_bind (g := fun _ =>
      only_bind (g := fun _ => ?_)))))))))
  split <;> infer_instance

instance quiet_hydrateReceipt (checkpoint : TurnCheckpoint) (item : CheckpointCall) (bound : PreparedEvidence)
    (receipt : LedgerEvent) : Only quiet (hydrateReceipt codec fuel key checkpoint item bound receipt) := by
  unfold hydrateReceipt
  refine only_bind (g := fun _ => only_bind (g := fun outcome => ?_))
  cases outcome with
  | ok result => dsimp only; infer_instance
  | error error => dsimp only; infer_instance

instance quiet_hydrateWait (checkpoint : TurnCheckpoint) (bound : PreparedEvidence) :
    Only quiet (hydrateWait codec fuel key checkpoint bound) := by
  unfold hydrateWait
  refine only_bind (g := fun found => ?_)
  dsimp only
  split
  · infer_instance
  · refine only_bind (g := fun answer => only_bind (g := fun recovered => only_bind (g := fun wait => ?_)))
    infer_instance

instance quiet_hydrateCall (checkpoint : TurnCheckpoint) (item : CheckpointCall) :
    Only quiet (hydrateCall codec fuel key checkpoint item) := by
  unfold hydrateCall
  dsimp only
  split
  · infer_instance
  · refine only_bind (g := fun started => ?_)
    split
    · infer_instance
    · refine only_bind (g := fun _ => only_bind (g := fun bound => only_bind (g := fun receipt => ?_)))
      split <;> infer_instance

instance quiet_hydrateCalls (checkpoint : TurnCheckpoint) (items : List CheckpointCall) :
    Only quiet (hydrateCalls codec fuel key checkpoint items) := by
  induction items generalizing checkpoint with
  | nil => exact only_pure _
  | cons item items ih => unfold hydrateCalls; infer_instance

instance quiet_hydrateCheckpoint (checkpoint : TurnCheckpoint) :
    Only quiet (hydrateCheckpoint codec fuel key checkpoint) := by
  unfold hydrateCheckpoint; infer_instance

instance quiet_restoreDeadline (deadlineAtMs : Option ℕ) : Only quiet (restoreDeadline deadlineAtMs) := by
  unfold restoreDeadline; infer_instance

instance quiet_mergeInput (suspension : TurnSuspension) (input : ResumeInput) (scope : ToolExecutionScope)
    (deadline : TurnDeadline) :
    Only quiet (mergeInput codec fuel executor key suspension input scope deadline) := by
  unfold mergeInput
  refine only_bind (g := fun r => ?_)
  split <;> infer_instance

end Resuming

section Server

variable (codec : DriverCodec) (fuel : ℕ) {α : Type}

instance quiet_coordinated (p : Execution.CoordinatorProg α) [Only quiet p] : Only quiet (coordinated p) := by
  unfold coordinated; infer_instance

instance quiet_driven (p : DriverProg α) [Only quiet p] : Only quiet (driven p) := by
  unfold driven; infer_instance

instance quiet_serverLedger (p : LedgerProg HostOp.Answer α) [Only quiet p] : Only quiet (serverLedger p) := by
  unfold serverLedger; infer_instance

instance quiet_conflictIf (c : Prop) [Decidable c] (message : String) : Only quiet (conflictIf c message) :=
  only_lift _

instance quiet_loadSession (sessionId : String) : Only quiet (loadSession sessionId) := by
  unfold loadSession; infer_instance

instance quiet_completedContext (session : SessionRecord) (execution : ExecutionRef) :
    Only quiet (completedContext codec fuel session execution) := by
  unfold completedContext; infer_instance

instance quiet_commitSession (sessionId turnId : String) (status : SessionTurnStatus)
    (messages : List Message) : Only quiet (commitSession codec fuel sessionId turnId status messages) := by
  unfold commitSession
  refine only_bind (g := fun session => only_bind (g := fun turn => ?_))
  dsimp only
  split <;> infer_instance

instance quiet_cancelTurn (execution : ExecutionRef) : Only quiet (cancelTurn codec fuel execution) := by
  unfold cancelTurn; infer_instance

instance quiet_recordApprovalDecision (key : ExecutionRef) (suspension : TurnSuspension)
    (approvalId decision : String) :
    Only quiet (recordApprovalDecision codec key suspension approvalId decision) := by
  unfold recordApprovalDecision
  refine only_bind (g := fun _ => only_bind (g := fun sight => only_bind (g := fun approval => ?_)))
  dsimp only
  refine only_bind (g := fun _ => only_bind (g := fun found => ?_))
  split <;> infer_instance

instance quiet_commitDenial (execution : ExecutionRef) (suspension : TurnSuspension) (approvalId : String) :
    Only quiet (commitDenial codec fuel execution suspension approvalId) := by
  unfold commitDenial; infer_instance

instance quiet_denyPending (execution : ExecutionRef) (scope : ToolExecutionScope) (approvalId : String) :
    Only quiet (denyPending codec fuel execution scope approvalId) := by
  unfold denyPending
  refine only_bind (g := fun session => only_bind (g := fun _ => only_bind (g := fun state => only_bind (g := fun _ =>
    only_bind (g := fun suspension => ?_)))))
  infer_instance

end Server

end Driver
end Kolyan
